import Elemta.Smtp.Loop

/-!
# Transparency

A client doubles the period at the start of a line and ends the message with a period on a
line of its own. What the data reader takes from such a stream is decided line by line,
whatever pieces the stream arrives in: the message comes out as it was, or it is refused at
the line that takes the octets on the wire over the size limit.
-/

namespace Elemta.Smtp

open Bytes BufferedReader

/-! ## The client's side -/

def stuffLine : Bytes → Bytes
  | 46 :: line => 46 :: 46 :: line
  | line => line

/-- The lines of a message on the wire, with the end of the data. -/
def dotStuff (lines : List Bytes) : Bytes :=
  (lines.map stuffLine).flatten ++ lit ".\r\n"

def CrlfLine (line : Bytes) : Prop :=
  ∃ text, 10 ∉ text ∧ line = text ++ [13, 10]

namespace CrlfLine

variable {line : Bytes}

theorem stuff (h : CrlfLine line) : CrlfLine (stuffLine line) := by
  obtain ⟨text, htext, rfl⟩ := h
  match text, htext with
  | [], _ => exact ⟨[], by simp, rfl⟩
  | b :: text, htext =>
    by_cases hb : b = 46
    · subst hb
      exact ⟨46 :: 46 :: text, by simpa using htext, rfl⟩
    refine ⟨b :: text, htext, ?_⟩
    rw [stuffLine]
    intro rest heq
    exact absurd (List.cons.inj heq).1 hb

theorem line_tape (h : CrlfLine line) (rest : Tape Fault) :
    Tape.line (Tape.ofBytes line ++ rest) = (line, none, rest) := by
  obtain ⟨text, htext, rfl⟩ := h
  have hsplit : text ++ [13, 10] = (text ++ [13]) ++ [10] := by simp
  rw [hsplit]
  exact Tape.line_ofBytes (by simpa using htext)

theorem validateLineEndings_eq (h : CrlfLine line) (strict : Bool) :
    Session.validateLineEndings strict line = none := by
  obtain ⟨text, -, rfl⟩ := h
  have hlast : (text ++ [13, 10]).getLast? = some 10 := by simp
  have hcr : (text ++ [13, 10]).dropLast.getLast? = some 13 := by
    have hdrop : (text ++ [13, 10]).dropLast = text ++ [13] := by
      rw [List.dropLast_append_of_ne_nil (by simp)]
      rfl
    simp
  simp only [Session.validateLineEndings, hlast, hcr]
  simp

end CrlfLine

theorem dotStuff_cons (line : Bytes) (lines : List Bytes) :
    dotStuff (line :: lines) = stuffLine line ++ dotStuff lines := by
  simp [dotStuff]

theorem length_le_dotStuff {lines : List Bytes} (h : ∀ line ∈ lines, CrlfLine line) :
    lines.length ≤ (dotStuff lines).length := by
  induction lines with
  | nil => exact Nat.zero_le _
  | cons line lines ih =>
    have hrest := ih fun l hl => h l (List.mem_cons_of_mem line hl)
    obtain ⟨text, -, heq⟩ := (h line (List.mem_cons_self ..)).stuff
    rw [dotStuff_cons, heq, List.length_append, List.length_append]
    simp only [List.length_cons, List.length_nil]
    omega

theorem length_flatten_le_dotStuff (lines : List Bytes) :
    lines.flatten.length ≤ (dotStuff lines).length := by
  induction lines with
  | nil => exact Nat.zero_le _
  | cons line lines ih =>
    have hline : line.length ≤ (stuffLine line).length := by
      unfold stuffLine
      split
      · exact Nat.le_succ _
      · exact Nat.le_refl _
    rw [dotStuff_cons, List.flatten_cons, List.length_append, List.length_append]
    omega

theorem applyDotStuffing_stuffLine (line : Bytes) :
    Session.applyDotStuffing (stuffLine line) = line := by
  unfold stuffLine
  split
  · rfl
  rename_i hdot
  unfold Session.applyDotStuffing
  split
  · rename_i rest
    exact absurd rfl (hdot rest)
  · rfl

theorem stuffLine_unmarked (strict : Bool) (n : Nat) (line : Bytes) :
    Session.isValidEndOfData strict n (stuffLine line) = false := by
  have hcrlf : lit ".\r\n" = [46, 13, 10] := by decide
  have hlf : lit ".\n" = [46, 10] := by decide
  have hne (rest : Bytes) (hrest : rest.head? ≠ some 46) : stuffLine line ≠ 46 :: rest := by
    intro heq
    unfold stuffLine at heq
    split at heq
    · obtain ⟨-, rfl⟩ := List.cons.inj heq
      exact hrest rfl
    · rename_i hdot
      exact hdot rest heq
  unfold Session.isValidEndOfData
  rw [if_neg (by rw [hcrlf]; exact hne [13, 10] (by decide)), hlf,
    beq_false_of_ne (hne [10] (by decide)), Bool.false_and]

/-! ## The reader's side -/

namespace Session

def sizeRefusal : Bytes :=
  lit "552 5.3.4 Message size exceeds maximum allowed"

def contentPasses (cfg : Config) (a : Answers) : Bool → List Bytes → Bool
  | _, [] => true
  | inHeaders, line :: rest =>
    (validateLineContent cfg.checks cfg.isInternal a.delivery.validators inHeaders
        (stuffLine line)).isNone &&
      contentPasses cfg a (inHeaders && trimSpace (stuffLine line) != []) rest

structure Answers.Ready (a : Answers) : Prop where
  spills : a.spills = true
  deadline : a.readDeadline = true
  memory : ∀ n, a.lineMemoryOk n = true
  writes : ∀ n, a.spoolWrites n = true

variable {cfg : Config} {a : Answers}

variable {d : DataReader} {lines : List Bytes} {rest : Tape Fault}

/-- A line of the message is taken unless it takes the message over the limit. -/
theorem takeLine_stuffed (ha : Answers.Ready a) {line : Bytes} (hline : CrlfLine line)
    (hcontent : validateLineContent cfg.checks cfg.isInternal a.delivery.validators d.inHeaders
      (stuffLine line) = none) :
    (cfg.maxSize < ((d.bytesRead + (stuffLine line).length : Nat) : Int) ∧
      takeLine cfg a d (stuffLine line) = .inl (.refused sizeRefusal)) ∨
    (((d.bytesRead + (stuffLine line).length : Nat) : Int) ≤ cfg.maxSize ∧
      ∃ d', takeLine cfg a d (stuffLine line) = .inr d' ∧ d'.spool = d.spool ++ line ∧
        d'.bytesRead = d.bytesRead + (stuffLine line).length ∧
        d'.inHeaders = (d.inHeaders && trimSpace (stuffLine line) != [])) := by
  by_cases hsize : cfg.maxSize < ((d.bytesRead + (stuffLine line).length : Nat) : Int)
  · refine .inl ⟨hsize, ?_⟩
    simp only [takeLine, hline.stuff.validateLineEndings_eq, if_pos hsize, sizeRefusal]
  refine .inr ⟨Int.not_lt.1 hsize, ?_⟩
  simp only [takeLine, hline.stuff.validateLineEndings_eq, if_neg hsize, ha.memory,
    stuffLine_unmarked, hcontent, ha.writes, Bool.not_true, Bool.and_false, if_true]
  refine ⟨_, rfl, ?_, rfl, rfl⟩
  rw [applyDotStuffing_stuffLine]

/-- The end of the data completes the message unless it takes the message over the limit. -/
theorem takeLine_end (ha : Answers.Ready a) :
    takeLine cfg a d (lit ".\r\n") =
      .inl (if cfg.maxSize < ((d.bytesRead + 3 : Nat) : Int) then .refused sizeRefusal
        else .complete d.spool) := by
  have hmark : lit ".\r\n" = [46] ++ [13, 10] := by decide
  have hline : CrlfLine (lit ".\r\n") := ⟨[46], by decide, hmark⟩
  have hlen : (lit ".\r\n").length = 3 := by decide
  have hend (n : Nat) : isValidEndOfData cfg.strictLineEndings n (lit ".\r\n") = true := by
    have hcrlf : endsCRLF (lit ".\r\n") = true := by decide
    simp [isValidEndOfData, hcrlf]
  simp only [takeLine, hline.validateLineEndings_eq, hlen, ha.memory, hend, Bool.not_true,
    Bool.and_false, if_true]
  split
  · rfl
  · rfl

section

variable (ha : Answers.Ready a) (hlines : ∀ line ∈ lines, CrlfLine line)
  (hshort : ∀ line ∈ lines, (stuffLine line).length ≤ dataLineLimit)

include ha hlines hshort

/-- The loop over a message on the wire: the message is complete, or too large. -/
theorem readLines_dotStuff (hcontent : contentPasses cfg a d.inHeaders lines = true) {fuel : Nat}
    (hfuel : lines.length < fuel) {r : Reader Fault}
    (htape : r.tape = Tape.ofBytes (dotStuff lines) ++ rest) :
    (((d.bytesRead + (dotStuff lines).length : Nat) : Int) ≤ cfg.maxSize ∧
      ∃ r', readLines cfg a fuel d r = (.complete (d.spool ++ lines.flatten), r') ∧
        r'.tape = rest) ∨
    (cfg.maxSize < ((d.bytesRead + (dotStuff lines).length : Nat) : Int) ∧
      ∃ r', readLines cfg a fuel d r = (.refused sizeRefusal, r')) := by
  have hread {line : Bytes} (hline : CrlfLine line) (hlen : line.length ≤ dataLineLimit)
      {r : Reader Fault} {rest : Tape Fault} (htape : r.tape = Tape.ofBytes line ++ rest) :
      ∃ r', r.boundedLine readerSize dataLineLimit = (.text line none, r') ∧ r'.tape = rest :=
    Reader.boundedLine_of_line (by decide) (by rw [htape, hline.line_tape]) hlen
  induction lines generalizing d r fuel with
  | nil =>
    obtain ⟨fuel, rfl⟩ := Nat.exists_eq_add_of_lt hfuel
    have hmark : CrlfLine (lit ".\r\n") := ⟨[46], by decide, by decide⟩
    have hwire : dotStuff [] = lit ".\r\n" := rfl
    have hlen : (lit ".\r\n").length = 3 := by decide
    rw [hwire] at htape ⊢
    obtain ⟨r', hr', hrest⟩ := hread hmark (by decide) htape
    rw [readLines, hr']
    simp only [takeLine_end ha]
    split
    · rename_i hsize
      exact .inr ⟨hsize, r', rfl⟩
    · rename_i hsize
      exact .inl ⟨Int.not_lt.1 hsize, r', by simp, hrest⟩
  | cons line lines ih =>
    obtain ⟨fuel, rfl⟩ : ∃ k, fuel = k + 1 := ⟨fuel - 1, by simp at hfuel; omega⟩
    have hline := hlines line (List.mem_cons_self ..)
    rw [contentPasses, Bool.and_eq_true, Option.isNone_iff_eq_none] at hcontent
    have htotal : (dotStuff (line :: lines)).length =
        (stuffLine line).length + (dotStuff lines).length := by
      rw [dotStuff_cons, List.length_append]
    rw [dotStuff_cons, Tape.ofBytes_append, List.append_assoc] at htape
    obtain ⟨r₁, hr₁, htape₁⟩ :=
      hread hline.stuff (hshort line (List.mem_cons_self ..)) htape
    rw [readLines, hr₁]
    rcases takeLine_stuffed ha hline hcontent.1 with
      ⟨hsize, htake⟩ | ⟨-, d', htake, hspool, hbytes, hheaders⟩
    · simp only [htake]
      refine .inr ⟨?_, r₁, rfl⟩
      omega
    · simp only [htake]
      have hnext := ih (fun l hl => hlines l (List.mem_cons_of_mem line hl))
        (fun l hl => hshort l (List.mem_cons_of_mem line hl)) (hheaders ▸ hcontent.2)
        (by simp at hfuel; omega) htape₁
      rw [hbytes, hspool, Nat.add_assoc, ← htotal] at hnext
      rwa [List.flatten_cons, ← List.append_assoc]

/-- Reading a message off the wire: it comes out as it was, or it is too large. -/
theorem readData_dotStuff (hcontent : contentPasses cfg a true lines = true) {s : Session}
    (htape : s.reader.tape = Tape.ofBytes (dotStuff lines) ++ rest) :
    (((dotStuff lines).length : Int) ≤ cfg.maxSize ∧
      ∃ r', s.readData cfg a = (.complete lines.flatten, r') ∧ r'.tape = rest) ∨
    (cfg.maxSize < ((dotStuff lines).length : Int) ∧
      ∃ r', s.readData cfg a = (.refused sizeRefusal, r')) := by
  have hfuel : lines.length < s.reader.tape.length + 1 := by
    have hle := length_le_dotStuff hlines
    rw [htape, List.length_append, Tape.ofBytes, List.length_map]
    omega
  have hread := readLines_dotStuff ha hlines hshort (d := .start) hcontent hfuel htape
  have hstart : s.readData cfg a =
      readLines cfg a (s.reader.tape.length + 1) .start s.reader := by
    rw [readData, ha.spills, ha.deadline]
    rfl
  rw [hstart]
  simpa [DataReader.start] using hread

end

/-- A message that the line checks accept and whose octets on the wire are within the limits is
stored as it was before it was stuffed, and the reader stands behind its end. -/
theorem stuffed_message_stored (cfg : Config) (a : Answers) (s : Session) (lines : List Bytes)
    (rest : Tape Fault) (ha : Answers.Ready a) (hlines : ∀ line ∈ lines, CrlfLine line)
    (hshort : ∀ line ∈ lines, (stuffLine line).length ≤ dataLineLimit)
    (hsize : ((dotStuff lines).length : Int) ≤ cfg.maxSize)
    (hcontent : contentPasses cfg a true lines = true)
    (htape : s.reader.tape = Tape.ofBytes (dotStuff lines) ++ rest) :
    ∃ r', s.readMessage cfg a = (.ok lines.flatten, { s with
        reader := r', state := { s.state with dataSize := lines.flatten.length } }) ∧
      r'.tape = rest := by
  rcases readData_dotStuff ha hlines hshort hcontent htape with
    ⟨-, r', hread, hrest⟩ | ⟨hover, -⟩
  · refine ⟨r', ?_, hrest⟩
    rw [readMessage, hread]
  · omega

def receiving (cfg : Config) (wire : Bytes) : Session :=
  start cfg 0 (arrives wire) .empty

theorem stuffed_message_stored_sample :
    ∃ r', (receiving (.plain none) (dotStuff [lit "..\r\n", lit "\r\n", lit ".\r\n"])).readMessage
        (.plain none) (.calm 0 (lit "id")) = (.ok (lit "..\r\n\r\n.\r\n"),
          { receiving (.plain none) (dotStuff [lit "..\r\n", lit "\r\n", lit ".\r\n"]) with
            reader := r', state := { SessionState.new with dataSize := 9 } }) ∧ r'.tape = [] := by
  have hlines : ∀ line ∈ [lit "..\r\n", lit "\r\n", lit ".\r\n"], CrlfLine line := by
    simp only [List.mem_cons, List.not_mem_nil, or_false]
    rintro line (rfl | rfl | rfl)
    · exact ⟨lit "..", by decide, by decide⟩
    · exact ⟨[], by decide, by decide⟩
    · exact ⟨lit ".", by decide, by decide⟩
  obtain ⟨r', hread, hrest⟩ := stuffed_message_stored (.plain none) (.calm 0 (lit "id"))
    (receiving (.plain none) (dotStuff [lit "..\r\n", lit "\r\n", lit ".\r\n"])) _ []
    ⟨rfl, rfl, fun _ => rfl, fun _ => rfl⟩ hlines (by decide +kernel) (by decide +kernel)
    (by decide +kernel) (by decide +kernel)
  exact ⟨r', hread, hrest⟩

def withoutNul : Validators :=
  { Validators.passing with
    dataLine := fun line =>
      if 0 ∈ line then
        some (false, lit "Input contains potentially dangerous Unicode characters")
      else none }

/-- Five octets are no more than seven, but there are eight on the wire; and a line that the
content checks refuse is not stored either. -/
theorem small_messages_refused :
    ((lit "abc\r\n").length : Int) ≤ 7 ∧
      ((receiving { Config.plain none with maxSize := 7 } (dotStuff [lit "abc\r\n"])).readMessage
        { Config.plain none with maxSize := 7 } (.calm 0 (lit "id"))).1.toOption = none ∧
      ((receiving (.plain none) (dotStuff [lit "a\x00\r\n"])).readMessage (.plain none)
        { Answers.calm 0 (lit "id") with
          delivery := { DeliveryEnv.calm (lit "id") with validators := withoutNul } }).1.toOption =
        none := by
  decide +kernel

end Session

end Elemta.Smtp
