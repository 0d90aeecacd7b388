import Elemta.Foundation.Bytes
import Mathlib.Data.List.DropRight

/-!
# Body hashes of ARC

A body is signed in a canonical form (`canonical.go`). A body that is too large for memory
is hashed while it is read (`body_reader.go`): white space, line ends and empty lines are
held back until something follows them on the line or below.
-/

namespace Elemta.Arc

open Bytes

inductive Canonicalization where
  | simple
  | relaxed
  deriving DecidableEq

def crlf : Bytes := [13, 10]

def wsp (b : UInt8) : Bool :=
  b == 32 || b == 9

/-! ## The body in memory -/

/-- The text so far, and whether it ends in a run of white space. -/
def collapseWSP (value : Bytes) : Bytes × Bool :=
  value.foldl (fun (out, inWSP) c =>
    if wsp c then (if inWSP then out else out ++ [32], true) else (out ++ [c], false)) ([], false)

/-- `strings.ReplaceAll(body, "\r\n", "\n")`. -/
def replaceCRLF : Bytes → Bytes
  | 13 :: 10 :: s => 10 :: replaceCRLF s
  | b :: s => b :: replaceCRLF s
  | [] => []

def lineOf (canon : Canonicalization) (line : Bytes) : Bytes :=
  if canon = .relaxed then (collapseWSP line).1.rdropWhile wsp else line

def joinLines (canon : Canonicalization) (lines : List Bytes) : Bytes :=
  let lines := lines.rdropWhile List.isEmpty
  if lines = [] then if canon = .relaxed then [] else crlf
  else join crlf lines ++ crlf

def canonicalizeBody (body : Bytes) (canon : Canonicalization) : Bytes :=
  let lines := split [10] (replaceCRLF body)
  -- a line end at the end of the body is no further line
  let lines := if lines.getLast? = some [] then lines.dropLast else lines
  joinLines canon (lines.map (lineOf canon))

/-! ## The body while it is read -/

structure BodyHash where
  out : Bytes
  emptyLines : Nat
  lineHasContent : Bool
  wroteContent : Bool
  pendingWSP : Bool
  pendingCR : Bool

namespace BodyHash

def start : BodyHash :=
  { out := [], emptyLines := 0, lineHasContent := false, wroteContent := false,
    pendingWSP := false, pendingCR := false }

def writeContent (canon : Canonicalization) (s : BodyHash) (c : UInt8) : BodyHash :=
  if canon = .relaxed ∧ wsp c = true then { s with pendingWSP := true }
  else
    let s :=
      if s.lineHasContent then s
      else { s with
        out := s.out ++ (List.replicate s.emptyLines crlf).flatten
        emptyLines := 0
        lineHasContent := true }
    { s with
      out := s.out ++ (if s.pendingWSP then [32] else []) ++ [c]
      pendingWSP := false
      wroteContent := true }

def endLine (s : BodyHash) : BodyHash :=
  let s :=
    if s.lineHasContent then { s with out := s.out ++ crlf }
    else { s with emptyLines := s.emptyLines + 1 }
  { s with lineHasContent := false, pendingWSP := false }

def absorb (canon : Canonicalization) (s : BodyHash) (c : UInt8) : BodyHash :=
  if s.pendingCR = true ∧ c = 10 then endLine { s with pendingCR := false }
  else
    let s := if s.pendingCR then writeContent canon { s with pendingCR := false } 13 else s
    if c = 13 then { s with pendingCR := true }
    else if c = 10 then s.endLine
    else s.writeContent canon c

def close (canon : Canonicalization) (s : BodyHash) : Bytes :=
  if s.lineHasContent || !s.wroteContent && canon == .simple then s.out ++ crlf else s.out

def finish (canon : Canonicalization) (s : BodyHash) : Bytes :=
  close canon (if s.pendingCR then s.writeContent canon 13 else s)

end BodyHash

/-- What `bodyHashReader` hashes, if none of its reads fails. -/
def bodyHashReader (canon : Canonicalization) (reads : List Bytes) : Bytes :=
  (reads.foldl (List.foldl (BodyHash.absorb canon)) BodyHash.start).finish canon

/-! ## What is held back -/

def terminated (lines : List Bytes) : Bytes :=
  lines.flatMap (· ++ crlf)

variable {canon : Canonicalization} {cur : Bytes} {c : UInt8}

theorem collapseWSP_concat (value : Bytes) :
    collapseWSP (value ++ [c]) =
      if wsp c then
        (if (collapseWSP value).2 then (collapseWSP value).1 else (collapseWSP value).1 ++ [32], true)
      else ((collapseWSP value).1 ++ [c], false) := by
  rw [collapseWSP, List.foldl_append]
  rfl

/-- A run of white space at the end is one blank. -/
theorem collapseWSP_eq (value : Bytes) :
    (collapseWSP value).1 =
      (collapseWSP value).1.rdropWhile wsp ++ if (collapseWSP value).2 then [32] else [] := by
  induction value using List.reverseRecOn with
  | nil => rfl
  | append_singleton value c ih =>
    have hblank : wsp 32 = true := by decide
    rw [collapseWSP_concat]
    by_cases hc : wsp c = true
    · by_cases hrun : (collapseWSP value).2 = true
      · simpa [hc, hrun] using ih
      · rw [if_neg hrun, List.append_nil] at ih
        simp [hc, hrun, hblank, ← ih]
    · simp [hc]

theorem lineOf_concat :
    lineOf canon (cur ++ [c]) =
      if canon = .relaxed ∧ wsp c = true then lineOf canon cur
      else lineOf canon cur ++
        (if canon = .relaxed ∧ (collapseWSP cur).2 = true then [32] else []) ++ [c] := by
  have hblank : wsp 32 = true := by decide
  cases canon with
  | simple => simp [lineOf]
  | relaxed =>
    by_cases hc : wsp c = true
    · by_cases hrun : (collapseWSP cur).2 = true
      · simp [lineOf, collapseWSP_concat, hc, hrun]
      · simp [lineOf, collapseWSP_concat, hc, hrun, hblank]
    · simp [lineOf, collapseWSP_concat, hc, ← collapseWSP_eq]

theorem terminated_eq (lines : List Bytes) :
    terminated lines = terminated (lines.rdropWhile List.isEmpty) ++
      (List.replicate (lines.rtakeWhile List.isEmpty).length crlf).flatten := by
  have hempty : lines.rtakeWhile List.isEmpty = List.replicate _ [] :=
    List.eq_replicate_of_mem fun _ hline => List.isEmpty_iff.1 (List.mem_rtakeWhile_imp hline)
  have hsplit : lines.rdropWhile List.isEmpty ++ lines.rtakeWhile List.isEmpty = lines :=
    List.rdropWhile_append_rtakeWhile
  rw [hempty] at hsplit
  conv_lhs => rw [← hsplit]
  simp [terminated, List.flatMap_def]

theorem join_terminated {lines : List Bytes} (hne : lines ≠ []) :
    join crlf lines ++ crlf = terminated lines := by
  induction lines with
  | nil => exact absurd rfl hne
  | cons line lines ih =>
    cases lines with
    | nil => simp [join, terminated]
    | cons next lines =>
      rw [join_cons (by simp), List.append_assoc, ih (by simp)]
      simp [terminated]

namespace BodyHash

def held (canon : Canonicalization) (lines : List Bytes) (cur : Bytes) (cr : Bool) :
    BodyHash where
  out :=
    if lineOf canon cur = [] then terminated (lines.rdropWhile List.isEmpty)
    else terminated lines ++ lineOf canon cur
  emptyLines := if lineOf canon cur = [] then (lines.rtakeWhile List.isEmpty).length else 0
  lineHasContent := decide (lineOf canon cur ≠ [])
  wroteContent := decide ((lines ++ [lineOf canon cur]).rdropWhile List.isEmpty ≠ [])
  pendingWSP := decide (canon = .relaxed ∧ (collapseWSP cur).2 = true)
  pendingCR := cr

variable {lines : List Bytes} {cr : Bool}

theorem writeContent_held :
    writeContent canon (held canon lines cur cr) c = held canon lines (cur ++ [c]) cr := by
  by_cases hwsp : canon = .relaxed ∧ wsp c = true
  · simp [writeContent, held, lineOf_concat, collapseWSP_concat, hwsp]
  have hrun : ¬(canon = .relaxed ∧ (collapseWSP (cur ++ [c])).2 = true) := by
    rintro ⟨hcanon, hrun⟩
    simp_all [collapseWSP_concat]
  by_cases hempty : lineOf canon cur = []
  · simp [writeContent, held, lineOf_concat, hwsp, hrun, hempty, terminated_eq lines]
  · simp [writeContent, held, lineOf_concat, hwsp, hrun, hempty]

theorem endLine_held :
    endLine (held canon lines cur cr) = held canon (lines ++ [lineOf canon cur]) [] cr := by
  have hnil : lineOf canon [] = [] := by cases canon <;> rfl
  have hrun : ¬(canon = .relaxed ∧ (collapseWSP []).2 = true) := by simp [collapseWSP]
  by_cases hempty : lineOf canon cur = []
  · simp [endLine, held, hnil, hrun, hempty]
  · simp [endLine, held, hnil, hrun, hempty, terminated]
    exact ⟨_, .inr (.inl rfl), hempty⟩

theorem close_held :
    (held canon lines cur cr).close canon = joinLines canon (lines ++ [lineOf canon cur]) := by
  by_cases hempty : lineOf canon cur = []
  · by_cases hnone : lines.rdropWhile List.isEmpty = []
    · cases canon <;> simp [close, held, joinLines, hempty, hnone, terminated]
    · simp [close, held, joinLines, hempty, hnone, join_terminated]
  · simp [close, held, joinLines, hempty, join_terminated, terminated]

theorem absorb_held :
    absorb canon (held canon lines cur false) c =
      if c = 13 then held canon lines cur true
      else if c = 10 then held canon (lines ++ [lineOf canon cur]) [] false
      else held canon lines (cur ++ [c]) false := by
  rw [← endLine_held, ← writeContent_held]
  simp [absorb, held]

/-- A CR is content unless an LF comes next, in this read or another. -/
theorem absorb_held_cr :
    absorb canon (held canon lines cur true) c =
      if c = 10 then held canon (lines ++ [lineOf canon cur]) [] false
      else absorb canon (held canon lines (cur ++ [13]) false) c := by
  have hwritten : writeContent canon { held canon lines cur true with pendingCR := false } 13 =
      held canon lines (cur ++ [13]) false := writeContent_held
  by_cases hc : c = 10
  · rw [if_pos hc, ← endLine_held]
    simp [absorb, held, hc]
  · rw [if_neg hc, absorb, hwritten]
    simp [absorb, held, hc]

theorem finish_held (body : Bytes) :
    (body.foldl (absorb canon) (held canon lines cur cr)).finish canon =
      joinLines canon (lines ++ (splitAux [10] 0 cur.reverse
        (replaceCRLF (if cr then 13 :: body else body))).map (lineOf canon)) := by
  induction body generalizing lines cur cr with
  | nil =>
    cases cr with
    | false => exact close_held.trans (by simp [replaceCRLF, splitAux])
    | true =>
      have hwritten : finish canon (held canon lines cur true) =
          close canon (held canon lines (cur ++ [13]) true) :=
        congrArg (close canon) (writeContent_held)
      rw [List.foldl_nil, hwritten, close_held]
      simp [replaceCRLF, splitAux]
  | cons c body ih =>
    have hclear : ∀ cur, ((c :: body).foldl (absorb canon) (held canon lines cur false)).finish canon =
        joinLines canon (lines ++
          (splitAux [10] 0 cur.reverse (replaceCRLF (c :: body))).map (lineOf canon)) := by
      intro cur
      rw [List.foldl_cons, absorb_held]
      by_cases hcr : c = 13
      · rw [if_pos hcr, ih, hcr]
        rfl
      have hcons : replaceCRLF (c :: body) = c :: replaceCRLF body := by
        rw [replaceCRLF]
        exact fun _ h => absurd h hcr
      rw [if_neg hcr, hcons, splitAux]
      by_cases hlf : c = 10
      · rw [if_pos hlf, ih]
        simp [hlf]
      · rw [if_neg hlf, ih]
        simp [Ne.symm hlf]
    cases cr with
    | false => exact hclear cur
    | true =>
      rw [List.foldl_cons, absorb_held_cr]
      by_cases hlf : c = 10
      · rw [if_pos hlf, ih, hlf]
        simp [replaceCRLF, splitAux]
      · have hcons : replaceCRLF (13 :: c :: body) = 13 :: replaceCRLF (c :: body) := by
          rw [replaceCRLF]
          exact fun _ _ h => hlf (List.cons.inj h).1
        rw [if_neg hlf, ← List.foldl_cons, hclear, if_pos rfl, hcons, splitAux]
        simp

end BodyHash

/-- However the body is divided into reads, the hash absorbs its canonical form. -/
theorem streamed_body_canonical (canon : Canonicalization) (reads : List Bytes) :
    bodyHashReader canon reads = canonicalizeBody reads.flatten canon := by
  have hstart : BodyHash.start = BodyHash.held canon [] [] false := by cases canon <;> rfl
  have hnil : lineOf canon [] = [] := by cases canon <;> rfl
  -- the line behind the last line end is empty
  have hlast : ∀ lines : List Bytes,
      joinLines canon ((if lines.getLast? = some [] then lines.dropLast else lines).map (lineOf canon)) =
        joinLines canon (lines.map (lineOf canon)) := by
    intro lines
    split
    · rename_i h
      conv_rhs => rw [← List.dropLast_append_getLast? [] h]
      simp [joinLines, hnil]
    · rfl
  rw [bodyHashReader, ← List.foldl_flatten, hstart, BodyHash.finish_held, canonicalizeBody, hlast]
  rfl

end Elemta.Arc
