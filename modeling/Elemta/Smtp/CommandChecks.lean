import Elemta.Smtp.CommandLines

/-!
# Commands that pass the checks

A command passes when its own rule accepts the argument and none of the other filters
objects to it. The last filter looks for the words and characters of injected code in the
whole argument, in any case, so it also finds them inside of host names and of base64
text. Everything else lets a host name of the rule, and a response of AUTH PLAIN, pass.
-/

namespace Elemta.Smtp.Validator

open Bytes

/-! ## Texts without blocked patterns -/

variable {s h : Bytes} {parseIP : Bytes → Option IpFamily} {b : UInt8}

theorem mem_collapseSpace {f : Bool} (h : b ∈ collapseSpace f s) :
    b = 32 ∨ (b ∈ s ∧ regexSpace b = false) := by
  induction s generalizing f with
  | nil => exact nomatch h
  | cons c s ih =>
    rw [collapseSpace_cons, List.mem_append] at h
    rcases h with h | h
    · split at h
      · split at h
        · exact nomatch h
        · exact .inl (List.mem_singleton.1 h)
      · rename_i hc
        obtain rfl := List.mem_singleton.1 h
        exact .inr ⟨List.mem_cons_self .., by simpa using hc⟩
    · exact (ih h).imp_right fun ⟨hmem, hb⟩ => ⟨List.mem_cons_of_mem c hmem, hb⟩

variable {q u v identity password username : Bytes}

/-- A text without white space that stands in the collapsed text stands in the text. -/
theorem infix_of_infix_collapseSpace {f : Bool} (hq : ∀ b ∈ q, regexSpace b = false)
    (h : q <:+: collapseSpace f s) : q <:+: s := by
  fun_induction collapseSpace f s with
  | case1 => exact h
  | case2 b s _ ih => exact (ih h).trans (List.suffix_cons b s).isInfix
  | case3 f b s _ _ ih =>
    rcases List.infix_cons_iff.1 h with hstart | hrest
    · -- the blank of the run is no octet of the text
      cases q with
      | nil => exact List.nil_infix
      | cons c q =>
        obtain ⟨rfl, -⟩ := List.cons_prefix_cons.1 hstart
        exact absurd (hq 32 (List.mem_cons_self ..)) (by decide)
    · exact (ih hrest).trans (List.suffix_cons b s).isInfix
  | case4 f b s hb ih =>
    rcases List.infix_cons_iff.1 h with hstart | hrest
    · refine (prefix_of_prefix_collapseSpace hq ?_).isInfix
      rwa [collapseSpace, if_neg hb]
    · exact (ih hrest).trans (List.suffix_cons b s).isInfix

/-- Such a text is kept when runs are collapsed. -/
theorem infix_collapseSpace (hq : ∀ b ∈ q, regexSpace b = false) (h : q <:+: s) (f : Bool) :
    q <:+: collapseSpace f s := by
  obtain ⟨u, v, rfl⟩ := h
  by_cases hne : q = []
  · rw [hne]
    exact List.nil_infix
  · rw [List.append_assoc, collapseSpace_append, collapseSpace_plain hq hne, ← List.append_assoc]
    exact ⟨_, _, rfl⟩

theorem mem_collapseSpace_of_mem (hb : regexSpace b = false) (h : b ∈ s) (f : Bool) :
    b ∈ collapseSpace f s := by
  have hinfix : [b] <:+: s := (List.singleton_infix_iff b s).2 h
  exact (List.singleton_infix_iff b _).1 (infix_collapseSpace (by simpa using hb) hinfix f)

theorem regexSpace_lowerByte : regexSpace (lowerByte b) = regexSpace b := by
  unfold lowerByte regexSpace
  grind

theorem collapseSpace_map_lowerByte (f : Bool) :
    collapseSpace f (s.map lowerByte) = (collapseSpace f s).map lowerByte := by
  fun_induction collapseSpace f s with
  | case1 => rfl
  | case2 | case4 => simp [collapseSpace, regexSpace_lowerByte, *]
  | case3 =>
    simp [collapseSpace, regexSpace_lowerByte, *]
    decide

theorem blockedInCommand_eq_false_iff {text : Bytes} : blockedInCommand text = false ↔
    (∀ w ∈ sqlWords ++ scriptWords, ¬ w <:+: foldCase text) ∧
    (∀ b ∈ text, b ∉ lit ";&|\x60$" ∧ controlChar b = false) ∧
    ¬ lit "../" <:+: text ∧ ¬ lit "..\\" <:+: text := by
  simp only [blockedInCommand, Bool.or_eq_false_iff, List.any_eq_false, contains,
    decide_eq_false_iff_not, decide_eq_true_eq, Bool.not_eq_true]
  constructor
  · rintro ⟨⟨⟨⟨hwords, hmeta⟩, hslash⟩, hback⟩, hcontrol⟩
    exact ⟨hwords, fun b hb => ⟨hmeta b hb, hcontrol b hb⟩, hslash, hback⟩
  · rintro ⟨hwords, hchars, hslash, hback⟩
    exact ⟨⟨⟨⟨hwords, fun b hb => (hchars b hb).1⟩, hslash⟩, hback⟩, fun b hb => (hchars b hb).2⟩

/-- The words and the paths that are blocked have no white space in them. -/
theorem blocked_plain : (∀ w ∈ sqlWords ++ scriptWords, ∀ b ∈ w, regexSpace b = false) ∧
    (∀ b ∈ lit "../", regexSpace b = false) ∧ ∀ b ∈ lit "..\\", regexSpace b = false := by
  have hwords : ∀ w ∈ sqlWords ++ scriptWords,
      w.all (fun b => decide (regexSpace b = false)) = true := by decide
  exact ⟨fun w hw => forall_of_all (hwords w hw), forall_of_all (by decide),
    forall_of_all (by decide)⟩

theorem isAlnum_spec (h : isAlnum b = true) :
    Solid b ∧ regexSpace b = false ∧ b ≤ 127 ∧ controlChar b = false := by
  have hrange : 48 ≤ b ∧ b ≤ 122 := by
    simp only [isAlnum, isDigit, Bool.or_eq_true, Bool.and_eq_true, decide_eq_true_eq] at h
    grind
  have hascii : b ≤ 127 := UInt8.le_trans hrange.2 (by decide)
  refine ⟨solid_of_graphic (UInt8.le_trans (by decide) hrange.1) hascii, ?_, hascii, ?_⟩
  · unfold regexSpace
    grind
  · unfold controlChar
    grind

theorem ascii_of_parameterChar (h : parameterChar b = true) : b ≤ 127 := by
  have hmarks : ∀ b ∈ lit "-_@.:<>=[]!#$%&'*+/?^\x60\x7b|\x7d~", b ≤ 127 :=
    forall_of_all (by decide)
  rw [parameterChar, Bool.or_eq_true, Bool.or_eq_true, decide_eq_true_eq] at h
  rcases h with (halnum | hspace) | hmark
  · exact (isAlnum_spec halnum).2.2.1
  · unfold regexSpace at hspace
    grind
  · exact hmarks b hmark

/-- Collapsing runs neither brings a blocked pattern into a text nor hides one. -/
theorem blockedInCommand_collapseSpace (hascii : ∀ b ∈ s, b ≤ 127)
    (hcontrol : ∀ b ∈ s, controlChar b = false) :
    blockedInCommand (collapseSpace false s) = false ↔ blockedInCommand s = false := by
  obtain ⟨hplain, hplain', hplain''⟩ := blocked_plain
  have hfound {q : Bytes} (hq : ∀ b ∈ q, regexSpace b = false) (t : Bytes) :
      q <:+: collapseSpace false t ↔ q <:+: t :=
    ⟨infix_of_infix_collapseSpace hq, fun h => infix_collapseSpace hq h false⟩
  have hascii' : ∀ b ∈ collapseSpace false s, b ≤ 127 := by
    intro b hb
    rcases mem_collapseSpace hb with rfl | ⟨hmem, -⟩
    · decide
    · exact hascii b hmem
  have hfold : foldCase (collapseSpace false s) = collapseSpace false (foldCase s) := by
    rw [foldCase_of_ascii hascii', foldCase_of_ascii hascii, collapseSpace_map_lowerByte]
  have hchars : (∀ b ∈ collapseSpace false s, b ∉ lit ";&|\x60$" ∧ controlChar b = false) ↔
      ∀ b ∈ s, b ∉ lit ";&|\x60$" ∧ controlChar b = false := by
    refine ⟨fun h b hb => ⟨fun hmark => ?_, hcontrol b hb⟩, fun h b hb => ?_⟩
    · have hspace : ∀ b ∈ lit ";&|\x60$", regexSpace b = false := forall_of_all (by decide)
      exact (h b (mem_collapseSpace_of_mem (hspace b hmark) hb false)).1 hmark
    · rcases mem_collapseSpace hb with rfl | ⟨hmem, -⟩
      · decide
      · exact h b hmem
  have hwords : (∀ w ∈ sqlWords ++ scriptWords, ¬ w <:+: collapseSpace false (foldCase s)) ↔
      ∀ w ∈ sqlWords ++ scriptWords, ¬ w <:+: foldCase s :=
    forall₂_congr fun w hw => not_congr (hfound (hplain w hw) _)
  rw [blockedInCommand_eq_false_iff, blockedInCommand_eq_false_iff, hfold, hwords, hchars,
    hfound hplain', hfound hplain'']

theorem blockedInCommand_of_infix (hascii : ∀ b ∈ s, b ≤ 127) (hu : u <:+: s)
    (h : blockedInCommand s = false) : blockedInCommand u = false := by
  obtain ⟨hwords, hchars, hslash, hback⟩ := blockedInCommand_eq_false_iff.1 h
  refine blockedInCommand_eq_false_iff.2 ⟨fun w hw hfound => ?_, fun b hb => ?_, ?_, ?_⟩
  · refine hwords w hw ?_
    rw [foldCase_of_ascii fun b hb => hascii b (hu.subset hb)] at hfound
    rw [foldCase_of_ascii hascii]
    exact hfound.trans (hu.map lowerByte)
  · exact hchars b (hu.subset hb)
  · exact fun hfound => hslash (hfound.trans hu)
  · exact fun hfound => hback (hfound.trans hu)

/-- Two texts without blocked patterns stay without them with a blank between. -/
theorem blockedInCommand_blank (hascii : ∀ b ∈ u ++ 32 :: v, b ≤ 127)
    (hu : blockedInCommand u = false) (hv : blockedInCommand v = false) :
    blockedInCommand (u ++ 32 :: v) = false := by
  obtain ⟨hwords, hchars, hslash, hback⟩ := blockedInCommand_eq_false_iff.1 hu
  obtain ⟨hwords', hchars', hslash', hback'⟩ := blockedInCommand_eq_false_iff.1 hv
  have hnoBlank : (∀ w ∈ sqlWords ++ scriptWords, 32 ∉ w) ∧ 32 ∉ lit "../" ∧ 32 ∉ lit "..\\" := by
    decide
  refine blockedInCommand_eq_false_iff.2 ⟨fun w hw hfound => ?_, fun b hb => ?_, ?_, ?_⟩
  · have hfold : foldCase (u ++ 32 :: v) = foldCase u ++ 32 :: foldCase v := by
      rw [foldCase_of_ascii hascii, foldCase_of_ascii fun b hb => hascii b (by simp [hb]),
        foldCase_of_ascii fun b hb => hascii b (by simp [hb]), List.map_append]
      rfl
    rw [hfold] at hfound
    rcases infix_append_cons (hnoBlank.1 w hw) hfound with hfound | hfound
    · exact hwords w hw hfound
    · exact hwords' w hw hfound
  · rcases List.mem_append.1 hb with hb | hb
    · exact hchars b hb
    · rcases List.mem_cons.1 hb with rfl | hb
      · decide
      · exact hchars' b hb
  · exact fun hfound => (infix_append_cons hnoBlank.2.1 hfound).elim hslash hslash'
  · exact fun hfound => (infix_append_cons hnoBlank.2.2 hfound).elim hback hback'

/-! ## Lines with a name and an argument -/

def commandLine (name args : Bytes) : Bytes :=
  name ++ 32 :: args ++ lit "\r\n"

section Line

variable {name args : Bytes} (hname : ∀ b ∈ name, isAlnum b = true) (hne : name ≠ [])
  (hargs : args ≠ [])

include hname hne hargs

theorem trimSpace_commandLine (hlast : ∀ b ∈ args.getLast?, Solid b) :
    trimSpace (commandLine name args) = name ++ 32 :: args := by
  have hcrlf : lit "\r\n" = [13, 10] := by decide
  refine trimSpace_line (fun b hb => ?_) fun b hb => ?_
  · obtain ⟨c, r, rfl⟩ := List.exists_cons_of_ne_nil hne
    obtain rfl : c = b := by simpa using hb
    exact (isAlnum_spec (hname c (List.mem_cons_self ..))).1
  · obtain ⟨c, r, rfl⟩ := List.exists_cons_of_ne_nil hargs
    refine hlast b ?_
    simpa using hb

variable (hfirst : ∀ b ∈ args.head?, Solid b) (hlast : ∀ b ∈ args.getLast?, Solid b)

include hfirst hlast

theorem splitCommand_commandLine :
    splitCommand (commandLine name args) = (toUpper name, args) := by
  have hblank : lit " " = [32] := by decide
  have hcut : cut (lit " ") (trimSpace (commandLine name args)) = some (name, args) := by
    have hnone : 32 ∉ name := fun hmem => absurd (hname 32 hmem) (by decide)
    rw [trimSpace_commandLine hname hne hargs hlast, hblank, cut_append_of_notMem hnone,
      cut_cons_self]
    simp
  rw [splitCommand_of_cut hcut, trimSpace_of_solid hfirst hlast]

theorem checked_commandLine :
    canonicalizeCommand (commandLine name args) ≠ [] ∧
      checked (commandLine name args) = (toUpper name, collapseSpace false args) := by
  have hplain : ∀ b ∈ name, regexSpace b = false := fun b hb => (isAlnum_spec (hname b hb)).2.1
  have htrim := trimSpace_commandLine hname hne hargs hlast
  have hfind : (trimSpace (commandLine name args)).find? regexSpace = some 32 := by
    rw [htrim]
    refine List.find?_eq_some_iff_append.2 ⟨by decide, name, args, rfl, fun b hb => ?_⟩
    simp [hplain b hb]
  obtain ⟨hleft, hright⟩ := splitCommand_eq_checked (by simp [blankFirst, hfind] :
    blankFirst (commandLine name args) = true)
  rw [splitCommand_commandLine hname hne hargs hfirst hlast] at hleft hright
  refine ⟨?_, Prod.ext hleft.symm hright.symm⟩
  rw [canonicalizeCommand_eq, htrim, collapseSpace_plain hplain hne]
  simp [hne]

/-- A line of ASCII text that is short enough passes when its name and argument do. -/
theorem validateCommand_commandLine (hlength : (commandLine name args).length ≤ maxCommandLength)
    (hchars : ∀ b ∈ args, b ≤ 127 ∧ controlChar b = false)
    (hcheck : checkCommand parseIP true (toUpper name) (collapseSpace false args) = none) :
    validateCommand parseIP true (commandLine name args) = none := by
  obtain ⟨hcanonical, hchecked⟩ := checked_commandLine hname hne hargs hfirst hlast
  have hline : ∀ b ∈ commandLine name args, b ≤ 127 ∧ controlChar b = false := by
    intro b hb
    simp only [commandLine, List.mem_append, List.mem_cons] at hb
    rcases hb with (hb | rfl | hb) | hb
    · exact (isAlnum_spec (hname b hb)).2.2
    · decide
    · exact hchars b hb
    · have hcrlf : ∀ b ∈ lit "\r\n", b ≤ 127 ∧ controlChar b = false := forall_of_all (by decide)
      exact hcrlf b hb
  have hlen : validateLength (commandLine name args) = none := by
    rw [validateLength, if_neg (by omega)]
  have hutf8 : validateUTF8 (commandLine name args) = none := by
    rw [validateUTF8, if_pos (Utf8.valid_of_ascii fun b hb => (hline b hb).1)]
  have hcontrol : filterControlCharacters (commandLine name args) = none := by
    have hnone : (commandLine name args).any controlChar = false :=
      List.any_eq_false.2 fun b hb => by simp [(hline b hb).2]
    rw [filterControlCharacters, hnone]
    rfl
  rw [checked] at hchecked
  simp only [validateCommand, hlen, hutf8, hcontrol, Option.none_or, if_neg hcanonical, hchecked,
    hcheck]

end Line

/-- A command that is no address command passes when its own rule accepts the arguments and no
pattern is found in them. -/
theorem checkCommand_of_rule {name args : Bytes} (hname : name ∈ validCommands)
    (hother : name ≠ lit "MAIL" ∧ name ≠ lit "RCPT") (hlength : args.length ≤ maxParameterLength)
    (hrule : validateCommandParameters name args = none)
    (hfree : blockedInParameters args = false) : checkCommand parseIP true name args = none := by
  have hknown : ∀ name ∈ validCommands, validateCommandName name = none ∧
      blockedInCommand name = false ∧ name ≠ [] ∧ name.all commandChar = true := by decide
  obtain ⟨hvalid, hplain, hne, hchars⟩ := hknown name hname
  have hstructure : validateCommandStructure name args = none := by
    rw [validateCommandStructure, if_neg hne, hchars, if_neg (by decide), if_neg (by omega)]
  have hargs : checkedArguments parseIP name args = .ok args := by
    rw [checkedArguments, if_neg hother.2]
  have hpatterns : checkBlockedPatterns name args = none := by
    rw [checkBlockedPatterns, hplain, hfree]
    simp
  have hexempt : ¬ (name = lit "MAIL" ∨ name = lit "RCPT") := not_or.2 hother
  simp only [checkCommand, hstructure, hvalid, hargs, hrule, if_neg hexempt, hpatterns, if_true,
    Option.none_or]

/-! ## Host names -/

theorem mem_of_labels (hlabels : (split (lit ".") h).all hostLabel = true) (hb : b ∈ h) :
    isAlnum b = true ∨ b = 45 ∨ b = 46 := by
  have hdot : lit "." = [46] := by decide
  have hjoin := join_split (by decide : lit "." ≠ []) h
  rw [← hjoin] at hb
  rcases mem_join hb with hb | ⟨label, hlabel, hb⟩
  · exact .inr (.inr (List.mem_singleton.1 hb))
  · have hok := List.all_eq_true.1 hlabels label hlabel
    simp only [hostLabel, Bool.and_eq_true, List.all_eq_true, Bool.or_eq_true, beq_iff_eq] at hok
    exact (hok.2 b hb).imp_right .inl

theorem length_collapseSpace_le (f : Bool) (s : Bytes) : (collapseSpace f s).length ≤ s.length := by
  fun_induction collapseSpace f s with
  | case1 => exact Nat.le_refl _
  | case2 b s _ ih => exact Nat.le_succ_of_le ih
  | case3 f b s _ _ ih | case4 f b s _ ih => exact Nat.succ_le_succ ih

/-- A name of the rule is a text in brackets or made of labels. -/
theorem hostname_cases (hrule : validateHostnameParameter h = none) :
    h ≠ [] ∧ h.length ≤ 255 ∧
      ((∃ mid, mid ≠ [] ∧ h = 91 :: (mid ++ [93])) ∨ (split (lit ".") h).all hostLabel = true) := by
  revert hrule
  fun_cases validateHostnameParameter h with
  | case3 hne hlong hliteral =>
    refine fun _ => ⟨hne, Nat.le_of_not_lt hlong, ?_⟩
    obtain ⟨htwo, hopen, hclose⟩ := hliteral
    obtain ⟨r, rfl⟩ := List.head?_eq_some_iff.1 hopen
    rcases List.eq_nil_or_concat r with rfl | ⟨mid, c, rfl⟩
    · simp at hclose
    rw [List.concat_eq_append] at hclose htwo ⊢
    rw [← List.cons_append, List.getLast?_concat] at hclose
    cases hclose
    refine .inl ⟨mid, ?_, rfl⟩
    rintro rfl
    simp at htwo
  | case4 hne hlong _ hlabels => exact fun _ => ⟨hne, Nat.le_of_not_lt hlong, .inr hlabels⟩
  | _ => nofun

theorem collapseSpace_literal (mid : Bytes) :
    collapseSpace false (91 :: (mid ++ [93])) = 91 :: (collapseSpace false mid ++ [93]) := by
  have hopens : regexSpace 91 = false := by decide
  have hcloses : regexSpace 93 = false := by decide
  rw [collapseSpace_cons, collapseSpace_append]
  rfl

theorem collapseSpace_ne_nil (h : s ≠ []) : collapseSpace false s ≠ [] := by
  obtain ⟨b, r, rfl⟩ := List.exists_cons_of_ne_nil h
  rw [collapseSpace_cons]
  split <;> simp

/-- A host name that the rule accepts neither starts nor ends with white space, and the rule
accepts it with its runs collapsed. -/
theorem hostname_spec (hrule : validateHostnameParameter h = none) :
    (∀ b ∈ h.head?, Solid b) ∧ (∀ b ∈ h.getLast?, Solid b) ∧
      validateHostnameParameter (collapseSpace false h) = none := by
  obtain ⟨hne, hlen, ⟨mid, hmid, rfl⟩ | hlabels⟩ := hostname_cases hrule
  · have hsolid : Solid 91 ∧ Solid 93 := by decide
    have hshort := length_collapseSpace_le false (91 :: (mid ++ [93]))
    have hpos := List.length_pos_iff.2 (collapseSpace_ne_nil hmid)
    refine ⟨by simpa using hsolid.1, ?_, ?_⟩
    · rw [← List.cons_append, List.getLast?_concat]
      simpa using hsolid.2
    · rw [collapseSpace_literal] at hshort ⊢
      unfold validateHostnameParameter
      rw [if_neg (by simp), if_neg (by omega), if_pos]
      refine ⟨?_, rfl, ?_⟩
      · simp only [List.length_cons, List.length_append, List.length_nil]
        omega
      · rw [← List.cons_append, List.getLast?_concat]
  · have hplain : ∀ b ∈ h, Solid b ∧ regexSpace b = false := by
      intro b hb
      rcases mem_of_labels hlabels hb with hb | rfl | rfl
      · exact ⟨(isAlnum_spec hb).1, (isAlnum_spec hb).2.1⟩
      · decide
      · decide
    have hsame : collapseSpace false h = h := by
      have hwhole := collapseSpace_plain (fun b hb => (hplain b hb).2) hne false []
      rwa [List.append_nil, collapseSpace, List.append_nil] at hwhole
    rw [hsame]
    exact ⟨fun b hb => (hplain b (List.mem_of_mem_head? hb)).1,
      fun b hb => (hplain b (List.mem_of_mem_getLast? hb)).1, hrule⟩

theorem parameterChar_collapseSpace :
    (collapseSpace false s).all parameterChar = true ↔ s.all parameterChar = true := by
  refine ⟨fun h => List.all_eq_true.2 fun b hb => ?_, fun h => List.all_eq_true.2 fun b hb => ?_⟩
  · cases hspace : regexSpace b with
    | true => simp [parameterChar, hspace]
    | false => exact List.all_eq_true.1 h b (mem_collapseSpace_of_mem hspace hb false)
  · rcases mem_collapseSpace hb with rfl | ⟨hmem, -⟩
    · decide
    · exact List.all_eq_true.1 h b hmem

theorem blockedInParameters_collapseSpace (hascii : ∀ b ∈ s, b ≤ 127)
    (h : blockedInCommand s = false) : blockedInParameters (collapseSpace false s) = false := by
  have hcontrol := (blockedInCommand_eq_false_iff.1 h).2.1
  rw [blockedInParameters,
    (blockedInCommand_collapseSpace hascii fun b hb => (hcontrol b hb).2).2 h]
  refine List.any_eq_false.2 fun b hb => ?_
  rcases mem_collapseSpace hb with rfl | ⟨-, hspace⟩
  · decide
  · simp only [regexSpace, Bool.or_eq_false_iff] at hspace
    simp [hspace]

theorem validCommands_spec : ∀ name ∈ validCommands, name.all isAlnum = true ∧ name ≠ [] ∧
    toUpper name = name ∧ name.length ≤ 8 := by
  decide

section

variable {name args : Bytes} (hname : name ∈ validCommands)
  (hother : name ≠ lit "MAIL" ∧ name ≠ lit "RCPT") (hargs : args ≠ [])
  (hfirst : ∀ b ∈ args.head?, Solid b) (hlast : ∀ b ∈ args.getLast?, Solid b)

include hname hother hargs hfirst hlast

/-- A line that is no address command passes when its own rule accepts the collapsed argument and
no pattern is found in it. -/
theorem validateCommand_of_rule (hlength : args.length ≤ maxParameterLength)
    (hchars : args.all parameterChar = true) (hblocked : blockedInCommand args = false)
    (hrule : validateCommandParameters name (collapseSpace false args) = none) :
    validateCommand parseIP true (commandLine name args) = none := by
  obtain ⟨hword, hne, hupper, hshort⟩ := validCommands_spec name hname
  have hascii : ∀ b ∈ args, b ≤ 127 := fun b hb =>
    ascii_of_parameterChar (List.all_eq_true.1 hchars b hb)
  have hcontrol := (blockedInCommand_eq_false_iff.1 hblocked).2.1
  refine validateCommand_commandLine (List.all_eq_true.1 hword) hne hargs hfirst hlast ?_
    (fun b hb => ⟨hascii b hb, (hcontrol b hb).2⟩) ?_
  · have hcrlf : (lit "\r\n").length = 2 := by decide
    simp only [commandLine, List.length_append, List.length_cons, hcrlf, maxCommandLength,
      maxParameterLength] at hlength ⊢
    omega
  · rw [hupper]
    exact checkCommand_of_rule hname hother ((length_collapseSpace_le false args).trans hlength)
      hrule (blockedInParameters_collapseSpace hascii hblocked)

/-- A line with an argument that is no address command and passes has nothing in its argument that
the characters of parameters and the blocked patterns object to. -/
theorem arguments_of_validateCommand
    (h : validateCommand parseIP true (commandLine name args) = none) :
    args.all parameterChar = true ∧ blockedInCommand args = false := by
  obtain ⟨hword, hne, hupper, -⟩ := validCommands_spec name hname
  obtain ⟨hcanonical, hchecked⟩ :=
    checked_commandLine (List.all_eq_true.1 hword) hne hargs hfirst hlast
  have hargs' := collapseSpace_ne_nil hargs
  rw [checked, hupper] at hchecked
  have hexempt : ¬ (name = lit "MAIL" ∨ name = lit "RCPT") := not_or.2 hother
  simp only [validateCommand, Option.or_eq_none_iff, if_neg hcanonical, hchecked, checkCommand,
    checkedArguments, if_neg hother.2, if_neg hexempt] at h
  obtain ⟨⟨-, hfilter⟩, -, ⟨hrule, hpatterns⟩, -⟩ := h
  have hcontrol : ∀ b ∈ args, controlChar b = false := by
    intro b hb
    rw [filterControlCharacters] at hfilter
    split at hfilter
    · cases hfilter
    · rename_i hnone
      simpa using List.any_eq_false.1 (Bool.not_eq_true _ ▸ hnone) b (by simp [commandLine, hb])
  have hchars : args.all parameterChar = true := by
    rw [validateCommandParameters, if_neg hargs'] at hrule
    split at hrule
    · cases hrule
    · rename_i hall
      exact parameterChar_collapseSpace.1 (by simpa using hall)
  refine ⟨hchars, (blockedInCommand_collapseSpace (fun b hb =>
    ascii_of_parameterChar (List.all_eq_true.1 hchars b hb)) hcontrol).1 ?_⟩
  rw [checkBlockedPatterns] at hpatterns
  split at hpatterns
  · cases hpatterns
  split at hpatterns
  · cases hpatterns
  · rename_i hfree
    have hnone : blockedInParameters (collapseSpace false args) = false := by simpa [hargs'] using hfree
    exact (Bool.or_eq_false_iff.1 hnone).1

end

theorem ehlo_passes_iff (hrule : validateHostnameParameter h = none) :
    validateCommand parseIP true (commandLine (lit "EHLO") h) = none ↔
      h.all parameterChar = true ∧ blockedInCommand h = false := by
  obtain ⟨hne, hlen, -⟩ := hostname_cases hrule
  obtain ⟨hfirst, hlast, hrule'⟩ := hostname_spec hrule
  refine ⟨arguments_of_validateCommand (by decide) (by decide) hne hfirst hlast,
    fun ⟨hchars, hblocked⟩ => ?_⟩
  refine validateCommand_of_rule (by decide) (by decide) hne hfirst hlast
    (hlen.trans (by decide)) hchars hblocked ?_
  unfold validateCommandParameters
  split
  · rfl
  · rw [parameterChar_collapseSpace.2 hchars]
    exact hrule'

/-! ## Responses of AUTH PLAIN -/

def plainResponse (identity username password : Bytes) : Bytes :=
  Base64.encode (identity ++ 0 :: username ++ 0 :: password)

theorem mem_plainResponse (h : b ∈ plainResponse identity username password) :
    Solid b ∧ regexSpace b = false ∧ parameterChar b = true := by
  have hmarks : ∀ b ∈ lit "+/=", Solid b ∧ regexSpace b = false ∧ parameterChar b = true :=
    forall_of_all (by decide)
  have hmark {b : UInt8} (hb : isAlnum b = true ∨ b ∈ lit "+/=") :
      Solid b ∧ regexSpace b = false ∧ parameterChar b = true := by
    rcases hb with halnum | hmark
    · obtain ⟨hsolid, hspace, -⟩ := isAlnum_spec halnum
      exact ⟨hsolid, hspace, by simp [parameterChar, halnum]⟩
    · exact hmarks b hmark
  have hall : ∀ n : Fin 64, isAlnum (Base64.char n) = true ∨ Base64.char n ∈ lit "+/=" := by decide
  rcases Base64.mem_encode_cases h with rfl | ⟨n, hn, rfl⟩
  · exact hmark (.inr (by decide))
  · exact hmark (hall ⟨n, hn⟩)

theorem plainResponse_ne_nil (identity username password : Bytes) :
    plainResponse identity username password ≠ [] := by
  intro hnil
  have hdecode := Base64.decode_encode (identity ++ 0 :: username ++ 0 :: password)
  rw [plainResponse] at hnil
  rw [hnil, show Base64.decode [] = some [] by decide] at hdecode
  simp at hdecode

theorem auth_passes_iff
    (hlength : (lit "PLAIN " ++ plainResponse identity username password).length ≤
      maxParameterLength) :
    validateCommand parseIP true (commandLine (lit "AUTH")
        (lit "PLAIN " ++ plainResponse identity username password)) = none ↔
      blockedInCommand (plainResponse identity username password) = false := by
  have hne := plainResponse_ne_nil identity username password
  have hchars : ∀ b ∈ plainResponse identity username password, Solid b ∧ regexSpace b = false ∧
      parameterChar b = true := fun b hb => mem_plainResponse hb
  generalize plainResponse identity username password = response at *
  have hargs : lit "PLAIN " ++ response = lit "PLAIN" ++ 32 :: response := by
    have hlit : lit "PLAIN " = lit "PLAIN" ++ [32] := by decide
    rw [hlit, List.append_assoc, List.singleton_append]
  have hword : ∀ b ∈ lit "PLAIN", Solid b ∧ regexSpace b = false ∧ parameterChar b = true :=
    forall_of_all (by decide)
  rw [hargs] at hlength ⊢
  have hall : (lit "PLAIN" ++ 32 :: response).all parameterChar = true := by
    refine List.all_eq_true.2 fun b hb => ?_
    simp only [List.mem_append, List.mem_cons] at hb
    rcases hb with hb | rfl | hb
    · exact (hword b hb).2.2
    · decide
    · exact (hchars b hb).2.2
  have hascii : ∀ b ∈ lit "PLAIN" ++ 32 :: response, b ≤ 127 := fun b hb =>
    ascii_of_parameterChar (List.all_eq_true.1 hall b hb)
  have hcollapse : collapseSpace false (lit "PLAIN" ++ 32 :: response) =
      lit "PLAIN" ++ 32 :: response := by
    have htail := collapseSpace_plain (fun b hb => (hchars b hb).2.1) hne true []
    rw [collapseSpace, List.append_nil] at htail
    have hblank : regexSpace 32 = true := by decide
    rw [collapseSpace_plain (fun b hb => (hword b hb).2.1) (by decide), collapseSpace_cons, hblank,
      htail]
    rfl
  have hfirst : ∀ b ∈ (lit "PLAIN" ++ 32 :: response).head?, Solid b := by
    have hhead : (lit "PLAIN" ++ 32 :: response).head? = some 80 := rfl
    have hsolid : Solid 80 := by decide
    rw [hhead]
    simpa using hsolid
  have hlast : ∀ b ∈ (lit "PLAIN" ++ 32 :: response).getLast?, Solid b := by
    intro b hb
    obtain ⟨c, r, rfl⟩ := List.exists_cons_of_ne_nil hne
    exact (hchars b (List.mem_of_mem_getLast? (by simpa using hb))).1
  refine ⟨fun h => ?_, fun hblocked => ?_⟩
  · have hfree := arguments_of_validateCommand (by decide) (by decide) (by simp) hfirst hlast h
    exact blockedInCommand_of_infix hascii ⟨lit "PLAIN" ++ [32], [], by simp⟩ hfree.2
  · have hmethod : blockedInCommand (lit "PLAIN") = false := by decide
    refine validateCommand_of_rule (by decide) (by decide) (by simp) hfirst hlast hlength hall
      (blockedInCommand_blank hascii hmethod hblocked) ?_
    have hmechanism : validateAuthParameter (lit "PLAIN" ++ 32 :: response) = none := by
      rw [validateAuthParameter]
      exact if_pos (by decide)
    rw [hcollapse, validateCommandParameters, if_neg (by simp), hall, if_neg (by decide),
      if_neg (by decide), if_neg (by decide), if_neg (by decide), if_pos rfl, hmechanism]

/-- A host name of the rule passes exactly when it is written in the characters of parameters and
no blocked pattern is found in it, and a response of AUTH PLAIN exactly when none is found. -/
theorem unblocked_commands_pass (parseIP : Bytes → Option IpFamily) :
    (∀ hostname, validateHostnameParameter hostname = none →
      (validateCommand parseIP true (commandLine (lit "EHLO") hostname) = none ↔
        hostname.all parameterChar = true ∧ blockedInCommand hostname = false)) ∧
    ∀ identity username password,
      (lit "PLAIN " ++ plainResponse identity username password).length ≤ maxParameterLength →
      (validateCommand parseIP true (commandLine (lit "AUTH")
          (lit "PLAIN " ++ plainResponse identity username password)) = none ↔
        blockedInCommand (plainResponse identity username password) = false) :=
  ⟨fun _ => ehlo_passes_iff, fun _ _ _ => auth_passes_iff⟩

theorem unblocked_commands_pass_sample :
    validateCommand (fun _ => none) true (commandLine (lit "EHLO") (lit "mx.example.org")) = none ∧
      validateCommand (fun _ => none) true (commandLine (lit "AUTH")
        (lit "PLAIN " ++ plainResponse [] (lit "ann") (lit "secret"))) = none := by
  obtain ⟨hehlo, hauth⟩ := unblocked_commands_pass fun _ => none
  exact ⟨(hehlo (lit "mx.example.org") (by decide +kernel)).2 (by decide +kernel),
    (hauth [] (lit "ann") (lit "secret") (by decide +kernel)).2 (by decide +kernel)⟩

/-- A host name and a password in which the filter finds a word of SQL. -/
theorem words_refused_in_names :
    validateHostnameParameter (lit "updates.example.com") = none ∧
      validateCommand (fun _ => none) true (commandLine (lit "EHLO") (lit "updates.example.com")) =
        some (lit "554 5.7.1 Parameters rejected: security violation") ∧
      (lit "PLAIN " ++ plainResponse [] (lit "ann") (lit "%LDp")).length ≤ maxParameterLength ∧
      validateCommand (fun _ => none) true (commandLine (lit "AUTH")
          (lit "PLAIN " ++ plainResponse [] (lit "ann") (lit "%LDp"))) =
        some (lit "554 5.7.1 Parameters rejected: security violation") := by
  decide +kernel

end Elemta.Smtp.Validator
