import Elemta.Foundation.WhiteSpace
import Elemta.Smtp.Loop

/-!
# Checked and dispatched lines

The validator splits a copy of the command line in which every run of white space is one
blank; the dispatcher splits the line itself, at the first blank. The two agree on the name
and, up to runs of white space, on the arguments as long as the first white space of the
line is a blank. A tab behind the name is a blank to the validator only.
-/

namespace Elemta.Smtp
namespace Validator

open Bytes

def checked (line : Bytes) : Bytes × Bytes :=
  parseCommand (canonicalizeCommand line)

def blankFirst (line : Bytes) : Bool :=
  ((trimSpace line).find? regexSpace).all (· == 32)

/-! ## Runs of white space -/

theorem collapseSpace_cons (f : Bool) (b : UInt8) (r : Bytes) :
    collapseSpace f (b :: r) =
      (if regexSpace b then if f then [] else [32] else [b]) ++ collapseSpace (regexSpace b) r := by
  cases hb : regexSpace b <;> cases f <;> simp [collapseSpace, hb]

theorem collapseSpace_plain {w : Bytes} (hw : ∀ b ∈ w, regexSpace b = false) (hne : w ≠ [])
    (f : Bool) (s : Bytes) : collapseSpace f (w ++ s) = w ++ collapseSpace false s := by
  induction w generalizing f with
  | nil => exact absurd rfl hne
  | cons b w ih =>
    have hb := hw b (List.mem_cons_self ..)
    rw [List.cons_append, collapseSpace_cons, hb]
    by_cases hnil : w = []
    · subst hnil
      rfl
    · rw [ih (fun c hc => hw c (List.mem_cons_of_mem b hc)) hnil]
      rfl

def inRun : Bool → Bytes → Bool
  | f, [] => f
  | _, b :: r => inRun (regexSpace b) r

theorem inRun_concat (f : Bool) (s : Bytes) (b : UInt8) : inRun f (s ++ [b]) = regexSpace b := by
  induction s generalizing f with
  | nil => rfl
  | cons c s ih => exact ih (regexSpace c)

theorem collapseSpace_append (f : Bool) (s t : Bytes) :
    collapseSpace f (s ++ t) = collapseSpace f s ++ collapseSpace (inRun f s) t := by
  induction s generalizing f with
  | nil => simp [collapseSpace, inRun]
  | cons b s ih =>
    rw [List.cons_append, collapseSpace_cons, collapseSpace_cons, ih, inRun, List.append_assoc]

theorem collapseSpace_reverse (s : Bytes) :
    collapseSpace false s.reverse = (collapseSpace false s).reverse := by
  induction s with
  | nil => rfl
  | cons b s ih =>
    rw [List.reverse_cons, collapseSpace_append, ih]
    cases hb : regexSpace b with
    | false => simp [collapseSpace, hb]
    | true =>
      -- the blank of a run stands in front of the text behind the run
      cases s with
      | nil => simp [collapseSpace, hb, inRun]
      | cons c s =>
        rw [List.reverse_cons, inRun_concat]
        cases hc : regexSpace c <;> simp [collapseSpace, hb, hc]

theorem prefix_of_prefix_collapseSpace {q s : Bytes} (hq : ∀ b ∈ q, regexSpace b = false)
    (h : q <+: collapseSpace false s) : q <+: s := by
  induction q generalizing s with
  | nil => exact List.nil_prefix
  | cons c q ih =>
    have hc := hq c (List.mem_cons_self ..)
    cases s with
    | nil =>
      obtain ⟨t, ht⟩ := h
      exact nomatch ht
    | cons b s =>
      rw [collapseSpace_cons] at h
      cases hb : regexSpace b with
      | true =>
        rw [hb] at h
        obtain ⟨rfl, -⟩ := List.cons_prefix_cons.1 h
        cases hc
      | false =>
        rw [hb] at h
        obtain ⟨rfl, hrest⟩ := List.cons_prefix_cons.1 h
        exact List.cons_prefix_cons.2
          ⟨rfl, ih (fun x hx => hq x (List.mem_cons_of_mem c hx)) hrest⟩

/-! ## Trimming and runs -/

section Classes

/-- Patterns for white space: the class `\s`, and patterns without any octet of it. -/
structure Covers (patterns : List Bytes) : Prop extends PrefixFree patterns where
  single : ∀ b, regexSpace b = true → [b] ∈ patterns
  cases : ∀ p ∈ patterns, (∃ b, p = [b] ∧ regexSpace b = true) ∨ ∀ b ∈ p, regexSpace b = false

theorem regexSpace_cases {b : UInt8} (h : regexSpace b = true) :
    b = 9 ∨ b = 10 ∨ b = 12 ∨ b = 13 ∨ b = 32 := by
  simpa [regexSpace, or_assoc] using h

theorem covers_spaces : Covers spaces where
  toPrefixFree := prefixFree_spaces
  single b hb := by
    rcases regexSpace_cases hb with rfl | rfl | rfl | rfl | rfl <;> decide
  cases p hp := by
    have hall : ∀ p ∈ spaces, (p = [p.headD 0] ∧ regexSpace (p.headD 0) = true) ∨
        p.all (fun b => decide (regexSpace b = false)) = true := by decide
    exact (hall p hp).imp (fun h => ⟨_, h⟩) forall_of_all

theorem covers_spaces_reversed : Covers (spaces.map List.reverse) where
  toPrefixFree := prefixFree_spaces_reversed
  single b hb := List.mem_map.2 ⟨[b], covers_spaces.single b hb, rfl⟩
  cases p hp := by
    obtain ⟨q, hq, rfl⟩ := List.mem_map.1 hp
    rcases covers_spaces.cases q hq with ⟨b, rfl, hb⟩ | hplain
    · exact .inl ⟨b, rfl, hb⟩
    · exact .inr fun b hb => hplain b (List.mem_reverse.1 hb)

variable {patterns : List Bytes}

namespace Covers

variable {r : Bytes}

theorem not_space_of_tight (h : Covers patterns) {b : UInt8} (ht : Tight patterns (b :: r)) :
    regexSpace b = false := by
  cases hb : regexSpace b with
  | false => rfl
  | true => exact absurd ⟨r, rfl⟩ (ht [b] (h.single b hb))

/-- A text that starts with no white space still does so when its runs are collapsed. -/
theorem tight_collapseSpace (h : Covers patterns) {b : UInt8} (ht : Tight patterns (b :: r)) :
    Tight patterns (b :: collapseSpace false r) := by
  have hb := h.not_space_of_tight ht
  intro q hq hpre
  rcases h.cases q hq with ⟨c, rfl, hc⟩ | hplain
  · obtain ⟨rfl, -⟩ := List.cons_prefix_cons.1 hpre
    rw [hb] at hc
    cases hc
  · refine ht q hq (prefix_of_prefix_collapseSpace hplain ?_)
    rw [collapseSpace_cons, hb]
    exact hpre

theorem dropPatterns_collapseSpace (h : Covers patterns) (f : Bool) (s : Bytes) :
    dropPatterns patterns 0 (collapseSpace f s) =
      collapseSpace false (dropPatterns patterns 0 s) := by
  induction s using h.toPrefixFree.induction generalizing f with
  | tight s hs =>
    rw [hs.dropPatterns_eq]
    cases s with
    | nil => rfl
    | cons b r =>
      rw [collapseSpace_cons, collapseSpace_cons, h.not_space_of_tight hs]
      exact (h.tight_collapseSpace hs).dropPatterns_eq
  | step p hp s ih =>
    rw [h.dropPatterns_append hp]
    rcases h.cases p hp with ⟨b, rfl, hb⟩ | hplain
    · rw [List.singleton_append, collapseSpace_cons, hb]
      cases f with
      | true => exact ih true
      | false =>
        exact (h.dropPatterns_append (h.single 32 (by decide)) (collapseSpace true s)).trans
          (ih true)
    · have hne : p ≠ [] := fun hnil => h.ne_nil (hnil ▸ hp)
      rw [collapseSpace_plain hplain hne, h.dropPatterns_append hp, ih]

end Covers

end Classes

theorem trimSpace_collapseSpace (f : Bool) (s : Bytes) :
    trimSpace (collapseSpace f s) = collapseSpace false (trimSpace s) := by
  simp only [trimSpace]
  rw [covers_spaces.dropPatterns_collapseSpace, ← collapseSpace_reverse,
    covers_spaces_reversed.dropPatterns_collapseSpace, ← collapseSpace_reverse]

theorem canonicalizeCommand_eq (line : Bytes) :
    canonicalizeCommand line = collapseSpace false (trimSpace line) := by
  rw [canonicalizeCommand, trimSpace_collapseSpace, trimSpace_trimSpace]

/-- Collapsing runs keeps the words; a run that has begun is behind a word that has ended. -/
theorem fieldsAux_collapseSpace {cur : Bytes} {f : Bool} (h : cur = [] ∨ f = false)
    (s : Bytes) : fieldsAux 0 cur (collapseSpace f s) = fieldsAux 0 cur s := by
  induction hn : s.length using Nat.strong_induction_on generalizing s cur f with
  | _ n ih =>
    rcases tight_or_matchLen spaces s with htight | ⟨p, hp, ⟨r, rfl⟩, -⟩
    · cases s with
      | nil => rfl
      | cons b r =>
        rw [collapseSpace_cons, covers_spaces.not_space_of_tight htight, fieldsAux_tight htight]
        refine (fieldsAux_tight (covers_spaces.tight_collapseSpace htight)).trans ?_
        exact ih r.length (by rw [← hn, List.length_cons]; omega) (.inr rfl) r rfl
    · have hne : p ≠ [] := fun hnil => prefixFree_spaces.ne_nil (hnil ▸ hp)
      have hpos := List.length_pos_iff.2 hne
      rw [List.length_append] at hn
      have hrest (f : Bool) : fields (collapseSpace f r) = fields r :=
        ih r.length (by omega) (.inl rfl) r rfl
      rw [fieldsAux_space hp]
      rcases covers_spaces.cases p hp with ⟨b, rfl, hb⟩ | hplain
      · rw [List.singleton_append, collapseSpace_cons, hb]
        cases f with
        | false =>
          refine (fieldsAux_space (covers_spaces.single 32 (by decide)) cur _).trans ?_
          rw [hrest]
        | true =>
          obtain rfl : cur = [] := h.resolve_right (by decide)
          exact hrest true
      · rw [collapseSpace_plain hplain hne, fieldsAux_space hp, hrest]

theorem fields_canonicalizeCommand (line : Bytes) :
    fields (canonicalizeCommand line) = fields line := by
  rw [canonicalizeCommand_eq, ← fields_trimSpace line]
  exact fieldsAux_collapseSpace (.inl rfl) (trimSpace line)

end Validator

/-! ## The two splits -/

open Bytes Validator

variable {line : Bytes} {memoryOk : Bool} {parseIP : Bytes → Option IpFamily}

theorem splitCommand_of_cut {name rest : Bytes}
    (h : cut (lit " ") (trimSpace line) = some (name, rest)) :
    splitCommand line = (toUpper name, trimSpace rest) := by
  simp only [splitCommand, splitN, h]

theorem splitCommand_of_none (h : cut (lit " ") (trimSpace line) = none) :
    splitCommand line = (toUpper (trimSpace line), []) := by
  simp only [splitCommand, splitN, h, List.flatten_cons, List.flatten_nil, List.append_nil]

/-- Dispatched are the checked name and arguments that differ in runs of white space only. -/
theorem splitCommand_eq_checked (h : blankFirst line = true) :
    (splitCommand line).1 = (checked line).1 ∧
      collapseSpace false (splitCommand line).2 = (checked line).2 := by
  have hblank : lit " " = [32] := by decide
  have hnot {w : Bytes} (hw : ∀ b ∈ w, regexSpace b = false) : 32 ∉ w :=
    fun hmem => absurd (hw 32 hmem) (by decide)
  rw [checked, canonicalizeCommand_eq]
  cases hfind : (trimSpace line).find? regexSpace with
  | none =>
    have hplain : ∀ b ∈ trimSpace line, regexSpace b = false := by
      simpa using List.find?_eq_none.1 hfind
    have hsame : collapseSpace false (trimSpace line) = trimSpace line := by
      by_cases hne : trimSpace line = []
      · rw [hne]
        rfl
      · have hall := collapseSpace_plain hplain hne false []
        rwa [collapseSpace, List.append_nil] at hall
    have hcut : cut [32] (trimSpace line) = none := cut_eq_none (hnot hplain)
    rw [splitCommand_of_none (hblank ▸ hcut), parseCommand, hsame, hcut]
    exact ⟨rfl, rfl⟩
  | some b =>
    obtain rfl : b = 32 := by
      rw [blankFirst, hfind] at h
      simpa using h
    obtain ⟨-, name, rest, hline, hname⟩ := List.find?_eq_some_iff_append.1 hfind
    have hplain : ∀ b ∈ name, regexSpace b = false := by simpa using hname
    have hcut (t : Bytes) : cut [32] (name ++ 32 :: t) = some (name, t) := by
      rw [cut_append_of_notMem (hnot hplain), cut_cons_self]
      simp
    have hcollapse : collapseSpace false (trimSpace line) =
        name ++ 32 :: collapseSpace true rest := by
      rw [hline]
      by_cases hne : name = []
      · subst hne
        rfl
      · rw [collapseSpace_plain hplain hne]
        rfl
    rw [splitCommand_of_cut (hblank ▸ hline ▸ hcut rest), parseCommand, hcollapse, hcut]
    exact ⟨rfl, (trimSpace_collapseSpace true rest).symm⟩

theorem commandChar_of_accepted (h : validateCommand parseIP memoryOk line = none) :
    ∀ b ∈ (checked line).1, commandChar b = true := by
  simp only [validateCommand, Option.or_eq_none_iff] at h
  have hcheck := h.2
  split at hcheck
  · cases hcheck
  simp only [checkCommand, Option.or_eq_none_iff] at hcheck
  have hstructure := hcheck.1.1
  revert hstructure
  fun_cases validateCommandStructure (checked line).1 (checked line).2 with
  | case4 _ hall => simpa using hall
  | _ => nofun

/-- Any other white space behind the name stays in the name that is dispatched. -/
theorem splitCommand_ne_checked (h : validateCommand parseIP memoryOk line = none)
    (hblank : blankFirst line = false) :
    (splitCommand line).1 ≠ (checked line).1 := by
  have hlit : lit " " = [32] := by decide
  rw [blankFirst] at hblank
  obtain ⟨b, hfind, hne⟩ : ∃ b, (trimSpace line).find? regexSpace = some b ∧ b ≠ 32 := by
    cases hfind : (trimSpace line).find? regexSpace with
    | none => simp [hfind] at hblank
    | some b => exact ⟨b, rfl, by simpa [hfind] using hblank⟩
  obtain ⟨hspace, front, rest, hline, hfront⟩ := List.find?_eq_some_iff_append.1 hfind
  have hkept : b ∈ (splitCommand line).1 := by
    have hupper : upperByte b = b ∧ b < 0x80 := by
      rcases regexSpace_cases hspace with rfl | rfl | rfl | rfl | rfl <;> decide
    cases hcut : cut (lit " ") (trimSpace line) with
    | none =>
      rw [splitCommand_of_none hcut, hline]
      exact mem_toUpper hupper.1 hupper.2 (by simp)
    | some parts =>
      obtain ⟨name, args⟩ := parts
      rw [splitCommand_of_cut hcut]
      refine mem_toUpper hupper.1 hupper.2 ?_
      -- the blank that ends the name stands behind the other white space
      have heq := hline.symm.trans (eq_of_cut hcut)
      rw [List.append_assoc] at heq
      rcases List.append_eq_append_iff.1 heq with ⟨u, rfl, hu⟩ | ⟨u, rfl, hu⟩
      · cases u with
        | nil => exact absurd (List.cons.inj hu).1 hne
        | cons c u =>
          obtain ⟨rfl, -⟩ := List.cons.inj hu
          simp
      · cases u with
        | nil => exact absurd (List.cons.inj hu).1.symm hne
        | cons c u =>
          obtain ⟨rfl, -⟩ := List.cons.inj hu
          exact absurd (hfront 32 (by simp)) (by decide)
  intro heq
  rw [heq] at hkept
  have hchar := commandChar_of_accepted h b hkept
  rcases regexSpace_cases hspace with rfl | rfl | rfl | rfl | rfl <;> cases hchar

namespace Session

/-- AUTH reads nothing of its line but the words. -/
theorem handleAUTH_congr {line line' : Bytes} (h : fields line = fields line')
    (cfg : Config) (a : Answers) (s : Session) :
    s.handleAUTH cfg a line = s.handleAUTH cfg a line' := by
  simp only [handleAUTH, h]

/-- An accepted line is dispatched by the name that was checked exactly when its first white space
is a blank, and then with the arguments that were checked up to runs of white space. -/
theorem accepted_line_dispatched (cfg : Config) (a : Answers) (s : Session) (line : Bytes)
    (haccepted : Validator.validateCommand cfg.parseIP a.commandMemoryOk line = none) :
    ((splitCommand line).1 = (Validator.checked line).1 ↔ Validator.blankFirst line = true) ∧
    (Validator.blankFirst line = true →
      ∃ args, Validator.collapseSpace false args = (Validator.checked line).2 ∧
        s.processCommand cfg a line =
          s.processParsed cfg a line (Validator.checked line).1 args ∧
        (s.state.canAcceptCommand (Validator.checked line).1 = true →
          ((Validator.checked line).1 = lit "BDAT" →
            s.processCommand cfg a line = s.handleBDAT cfg a args) ∧
          ((Validator.checked line).1 = lit "MAIL" →
            s.processCommand cfg a line = s.handleMAIL cfg a args) ∧
          ((Validator.checked line).1 = lit "RCPT" →
            s.processCommand cfg a line = s.handleRCPT cfg a args) ∧
          ((Validator.checked line).1 = lit "AUTH" → s.processCommand cfg a line =
            s.handleAUTH cfg a (Validator.canonicalizeCommand line)))) := by
  refine ⟨⟨fun hsame => ?_, fun hblank => (splitCommand_eq_checked hblank).1⟩, fun hblank => ?_⟩
  · by_contra hother
    exact splitCommand_ne_checked haccepted (eq_false_of_ne_true hother) hsame
  obtain ⟨hname, hargs⟩ := splitCommand_eq_checked hblank
  have hprocess : s.processCommand cfg a line =
      s.processParsed cfg a line (checked line).1 (splitCommand line).2 := by
    simp only [processCommand, haccepted, hname]
  refine ⟨(splitCommand line).2, hargs, hprocess, fun hplace => ?_⟩
  have hdispatch : s.processCommand cfg a line =
      s.dispatch cfg a line (checked line).1 (splitCommand line).2 := by
    rw [hprocess, processParsed, if_neg (by simp [hplace])]
  obtain ⟨hmail, hrcpt, hbdat, hauth⟩ := dispatch_named cfg a s line (splitCommand line).2
  refine ⟨fun h => ?_, fun h => ?_, fun h => ?_, fun h => ?_⟩
  · rw [hdispatch, h, hbdat]
  · rw [hdispatch, h, hmail]
  · rw [hdispatch, h, hrcpt]
  · rw [hdispatch, h, hauth]
    exact handleAUTH_congr (fields_canonicalizeCommand line).symm cfg a s

theorem accepted_line_dispatched_sample :
    Validator.validateCommand (fun _ => none) true (lit "MAIL  FROM:<a@b.example>\r\n") = none ∧
      ∃ args, Validator.collapseSpace false args = lit "FROM:<a@b.example>" ∧
        (start (.plain none) 0 [] .empty).processCommand (.plain none) (.calm 0 (lit "id"))
            (lit "MAIL  FROM:<a@b.example>\r\n") =
          (start (.plain none) 0 [] .empty).processParsed (.plain none) (.calm 0 (lit "id"))
            (lit "MAIL  FROM:<a@b.example>\r\n") (lit "MAIL") args := by
  have haccepted : validateCommand (fun _ => none) true
      (lit "MAIL  FROM:<a@b.example>\r\n") = none := by decide +kernel
  have hchecked : checked (lit "MAIL  FROM:<a@b.example>\r\n") =
      (lit "MAIL", lit "FROM:<a@b.example>") := by decide +kernel
  obtain ⟨args, hargs, hprocess, -⟩ := (accepted_line_dispatched (.plain none) (.calm 0 (lit "id"))
    (start (.plain none) 0 [] .empty) (lit "MAIL  FROM:<a@b.example>\r\n") haccepted).2
    (by decide +kernel)
  exact ⟨haccepted, args, hargs, hprocess⟩

/-- A tab is checked as a blank and dispatched as a part of the name. -/
theorem tab_dispatched_as_name :
    Validator.validateCommand (fun _ => none) true (lit "BDAT\t5\r\n") = none ∧
      Validator.checked (lit "BDAT\t5\r\n") = (lit "BDAT", lit "5") ∧
      splitCommand (lit "BDAT\t5\r\n") = (lit "BDAT\t5", []) := by
  decide +kernel

end Session

end Elemta.Smtp
