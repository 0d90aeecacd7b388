import Mathlib.Algebra.Group.Nat.Defs
import Mathlib.Algebra.Ring.Int.Defs
import Mathlib.Data.List.Infix

/-!
# Byte strings

Text as a network server sees it: a list of octets that need not be valid UTF-8.
The operations are the ones a string library offers on such text (searching,
trimming, splitting, case folding, decimal numbers). White space and case
folding follow Unicode as far as an ASCII pattern can tell the difference:
every white-space code point is recognised by its encoding, and the few
non-ASCII letters whose case variant is an ASCII letter are mapped to it.
-/

abbrev Bytes := List UInt8

namespace Bytes

instance : LawfulBEq Bytes := inferInstanceAs (LawfulBEq (List UInt8))

def lit (s : String) : Bytes :=
  s.toUTF8.data.toList

/-- What a check of the octets one after another finds. -/
theorem forall_of_all {P : UInt8 → Prop} [DecidablePred P] {s : Bytes}
    (h : s.all (fun b => decide (P b)) = true) : ∀ b ∈ s, P b := by
  simpa using h

/-! ## Searching -/

def hasPrefix (s p : Bytes) : Bool :=
  p.isPrefixOf s

def contains (s sub : Bytes) : Bool :=
  decide (sub <:+: s)

section

variable {c : UInt8} {sub s t : Bytes}

theorem prefix_of_prefix_append_cons (hc : c ∉ sub) (h : sub <+: s ++ c :: t) : sub <+: s := by
  rcases List.prefix_or_prefix_of_prefix h (List.prefix_append s (c :: t)) with hs | ⟨r, rfl⟩
  · exact hs
  · rcases List.prefix_cons_iff.1 ((List.prefix_append_right_inj s).1 h) with rfl | ⟨r', rfl, -⟩
    · rw [List.append_nil]
    · simp at hc

/-- A text without `c` stands on one side of it. -/
theorem infix_append_cons (hc : c ∉ sub) (h : sub <:+: s ++ c :: t) : sub <:+: s ∨ sub <:+: t := by
  induction s with
  | nil =>
    rcases List.infix_cons_iff.1 h with hstart | hrest
    · exact .inl (@prefix_of_prefix_append_cons c sub [] t hc hstart).isInfix
    · exact .inr hrest
  | cons b s ih =>
    rcases List.infix_cons_iff.1 h with hstart | hrest
    · exact .inl (@prefix_of_prefix_append_cons c sub (b :: s) t hc hstart).isInfix
    · exact (ih hrest).imp_left fun hs => hs.trans (List.suffix_cons b s).isInfix

end

/-! ## Cutting -/

def cut (sep : Bytes) : Bytes → Option (Bytes × Bytes)
  | [] => if sep = [] then some ([], []) else none
  | b :: r =>
    if sep.isPrefixOf (b :: r) then some ([], (b :: r).drop sep.length)
    else (cut sep r).map fun parts => (b :: parts.1, parts.2)

/-- The parts between the occurrences of `sep`; `cur` is the current part, reversed, and the
counter is what is left of the separator being passed. -/
def splitAux (sep : Bytes) : Nat → Bytes → Bytes → List Bytes
  | _, cur, [] => [cur.reverse]
  | k + 1, cur, _ :: r => splitAux sep k cur r
  | 0, cur, b :: r =>
    if sep.isPrefixOf (b :: r) then cur.reverse :: splitAux sep (sep.length - 1) [] r
    else splitAux sep 0 (b :: cur) r

def split (sep s : Bytes) : List Bytes :=
  splitAux sep 0 [] s

def join (sep : Bytes) (parts : List Bytes) : Bytes :=
  sep.intercalate parts

/-- The parts between the first `n - 1` occurrences of `sep`, and the rest. -/
def splitN (sep : Bytes) : Nat → Bytes → List Bytes
  | 0, _ => []
  | 1, s => [s]
  | n + 2, s =>
    match cut sep s with
    | some (before, after) => before :: splitN sep (n + 1) after
    | none => [s]

theorem splitAux_ne_nil (sep : Bytes) (k : Nat) (cur s : Bytes) : splitAux sep k cur s ≠ [] := by
  fun_induction splitAux sep k cur s with
  | case1 | case3 => simp
  | case2 | case4 => assumption

variable {parts : List Bytes} {sep s : Bytes} {c b : UInt8} {n : Nat}

theorem join_cons {part : Bytes} (h : parts ≠ []) :
    join sep (part :: parts) = part ++ sep ++ join sep parts := by
  cases parts with
  | nil => exact absurd rfl h
  | cons next parts => simp [join, List.intercalate, List.intersperse]

theorem mem_join (h : c ∈ join sep parts) : c ∈ sep ∨ ∃ part ∈ parts, c ∈ part := by
  induction parts with
  | nil => simp [join, List.intercalate] at h
  | cons part parts ih =>
    by_cases hlast : parts = []
    · subst hlast
      exact .inr ⟨part, List.mem_cons_self, by simpa [join, List.intercalate] using h⟩
    rw [join_cons hlast, List.mem_append, List.mem_append] at h
    rcases h with (h | h) | h
    · exact .inr ⟨part, List.mem_cons_self, h⟩
    · exact .inl h
    · rcases ih h with h | ⟨p, hp, h⟩
      · exact .inl h
      · exact .inr ⟨p, List.mem_cons_of_mem part hp, h⟩

theorem join_splitAux (hsep : sep ≠ []) (k : Nat) (cur s : Bytes) :
    join sep (splitAux sep k cur s) = cur.reverse ++ s.drop k := by
  fun_induction splitAux sep k cur s with
  | case1 => simp [join, List.intercalate]
  | case2 k cur b r ih => exact ih
  | case3 cur b r hpre ih =>
    obtain ⟨rest, hrest⟩ := List.isPrefixOf_iff_prefix.1 hpre
    rw [join_cons (splitAux_ne_nil _ _ _ _), ih]
    -- the separator was passed, and what follows it is the rest
    obtain ⟨c, sep, rfl⟩ := List.exists_cons_of_ne_nil hsep
    obtain ⟨rfl, rfl⟩ := List.cons.inj hrest
    simp
  | case4 cur b r hpre ih => simp [ih]

/-- Putting the separators back gives the text again. -/
theorem join_split (hsep : sep ≠ []) (s : Bytes) : join sep (split sep s) = s := by
  simpa [split] using join_splitAux hsep 0 [] s

theorem eq_of_cut {before after : Bytes} (h : cut sep s = some (before, after)) :
    s = before ++ sep ++ after := by
  fun_induction cut sep s generalizing before after with
  | case1 => simp_all
  | case2 => cases h
  | case3 b r hpre =>
    obtain ⟨rest, hrest⟩ := List.isPrefixOf_iff_prefix.1 hpre
    cases h
    simp [← hrest]
  | case4 b r hpre ih =>
    obtain ⟨parts, hparts, heq⟩ := Option.map_eq_some_iff.1 h
    cases heq
    simp [ih hparts]

theorem splitAux_skip (k : Nat) (cur s : Bytes) :
    splitAux sep k cur s = splitAux sep 0 cur (s.drop k) := by
  fun_induction splitAux sep k cur s with
  | case1 => simp [splitAux]
  | case2 k cur b r ih => exact ih
  | case3 | case4 => simp [splitAux, *]

/-- Splitting is cutting again and again. -/
theorem splitAux_eq_cut (hsep : sep ≠ []) (cur s : Bytes) :
    splitAux sep 0 cur s =
      match cut sep s with
      | some (before, after) => (cur.reverse ++ before) :: split sep after
      | none => [cur.reverse ++ s] := by
  induction s generalizing cur with
  | nil => simp [splitAux, cut, hsep]
  | cons b r ih =>
    unfold splitAux cut
    by_cases hpre : sep.isPrefixOf (b :: r) = true
    · rw [if_pos hpre, if_pos hpre, splitAux_skip]
      obtain ⟨c, sep', rfl⟩ := List.exists_cons_of_ne_nil hsep
      simp [split]
    rw [if_neg hpre, if_neg hpre, ih]
    cases cut sep r with
    | none => simp
    | some parts => simp

theorem split_eq_cut (hsep : sep ≠ []) (s : Bytes) :
    split sep s =
      match cut sep s with
      | some (before, after) => before :: split sep after
      | none => [s] :=
  splitAux_eq_cut hsep [] s

theorem cut_append_of_notMem {sep w : Bytes} (h : c ∉ w) (s : Bytes) :
    cut (c :: sep) (w ++ s) = (cut (c :: sep) s).map fun parts => (w ++ parts.1, parts.2) := by
  induction w with
  | nil => simp
  | cons b w ih =>
    obtain ⟨hb, hw⟩ : c ≠ b ∧ c ∉ w := by simpa using h
    have hpre : (c :: sep).isPrefixOf (b :: (w ++ s)) = false := by
      simp [List.isPrefixOf, hb]
    rw [List.cons_append, cut, if_neg (by simp [hpre]), ih hw, Option.map_map]
    rfl

theorem cut_self_append (sep s : Bytes) : cut (c :: sep) (c :: sep ++ s) = some ([], s) := by
  rw [List.cons_append, cut, if_pos]
  · simp
  · exact List.isPrefixOf_iff_prefix.2 ⟨s, by simp⟩

theorem cut_cons_self : cut [c] (c :: s) = some ([], s) :=
  cut_self_append [] s

theorem cut_eq_none (h : c ∉ s) : cut [c] s = none := by
  have hwhole : cut [c] (s ++ []) = _ := cut_append_of_notMem h []
  simpa [cut] using hwhole

theorem split_join (hne : parts ≠ []) (h : ∀ part ∈ parts, c ∉ part) :
    split [c] (join [c] parts) = parts := by
  induction parts with
  | nil => exact absurd rfl hne
  | cons part parts ih =>
    have hpart := h part List.mem_cons_self
    rw [split_eq_cut (by simp)]
    cases parts with
    | nil => simp [join, List.intercalate, cut_eq_none hpart]
    | cons next parts =>
      have hrest := ih (by simp) fun p hp => h p (List.mem_cons_of_mem part hp)
      rw [join_cons (by simp), List.append_assoc, cut_append_of_notMem hpart, cut_self_append]
      simpa using hrest

/-! ## Texts with the same breaks -/

/-- The texts differ in octets only that are not breaks, neither here nor there. -/
def Alike (breaks : UInt8 → Bool) (s t : Bytes) : Prop :=
  List.Forall₂ (fun a b => a = b ∨ (breaks a = false ∧ breaks b = false)) s t

namespace Alike

variable {breaks : UInt8 → Bool} {sep s t : Bytes}

theorem refl (s : Bytes) : Alike breaks s s := by
  induction s with
  | nil => exact .nil
  | cons b s ih => exact .cons (.inl rfl) ih

theorem append {s' t' : Bytes} (h : Alike breaks s t) (h' : Alike breaks s' t') :
    Alike breaks (s ++ s') (t ++ t') := by
  induction h with
  | nil => exact h'
  | cons hb _ ih => exact .cons hb ih

section

variable (hsep : ∀ b ∈ sep, breaks b = true) (h : Alike breaks s t)

include hsep h

end

end Alike

/-- Encodings of the code points with the Unicode property White_Space. -/
def spaces : List Bytes :=
  [[9], [10], [11], [12], [13], [32], [0xC2, 0x85], [0xC2, 0xA0], [0xE1, 0x9A, 0x80]] ++
    ((List.range 11).map fun i => [0xE2, 0x80, 0x80 + UInt8.ofNat i]) ++
    [[0xE2, 0x80, 0xA8], [0xE2, 0x80, 0xA9], [0xE2, 0x80, 0xAF], [0xE2, 0x81, 0x9F],
      [0xE3, 0x80, 0x80]]

def matchLen (patterns : List Bytes) (s : Bytes) : Nat :=
  match patterns.find? (fun p => p.isPrefixOf s) with
  | some p => p.length
  | none => 0

/-- Drops leading patterns; the counter is what is left of the pattern being dropped. -/
def dropPatterns (patterns : List Bytes) : Nat → Bytes → Bytes
  | _, [] => []
  | k + 1, _ :: r => dropPatterns patterns k r
  | 0, b :: r =>
    match matchLen patterns (b :: r) with
    | 0 => b :: r
    | n + 1 => dropPatterns patterns n r

def trimSpace (s : Bytes) : Bytes :=
  let left := dropPatterns spaces 0 s
  (dropPatterns (spaces.map List.reverse) 0 left.reverse).reverse

theorem dropPatterns_suffix (patterns : List Bytes) (k : Nat) (s : Bytes) :
    dropPatterns patterns k s <:+ s := by
  fun_induction dropPatterns patterns k s with
  | case1 | case3 => exact List.suffix_rfl
  | case2 k b r ih | case4 b r k _ ih => exact ih.trans (List.suffix_cons b r)

theorem isInfix_trimSpace (s : Bytes) : trimSpace s <:+: s := by
  have hright := dropPatterns_suffix (spaces.map List.reverse) 0 (dropPatterns spaces 0 s).reverse
  have hpre : trimSpace s <+: dropPatterns spaces 0 s := by
    rw [← List.reverse_suffix]
    unfold trimSpace
    rwa [List.reverse_reverse]
  exact hpre.isInfix.trans (dropPatterns_suffix spaces 0 s).isInfix

/-- Maximal runs without white space; `cur` is the current run, reversed. -/
def fieldsAux : Nat → Bytes → Bytes → List Bytes
  | _, cur, [] => if cur = [] then [] else [cur.reverse]
  | k + 1, cur, _ :: r => fieldsAux k cur r
  | 0, cur, b :: r =>
    match matchLen spaces (b :: r) with
    | 0 => fieldsAux 0 (b :: cur) r
    | n + 1 => if cur = [] then fieldsAux n [] r else cur.reverse :: fieldsAux n [] r

def fields (s : Bytes) : List Bytes :=
  fieldsAux 0 [] s

def blankFields (s : Bytes) : List Bytes :=
  (s.splitOnP fun b => b == 32 || b == 9).filter fun f => !f.isEmpty

/-! ## Case

A letter outside of ASCII is changed only where the result is ASCII. -/

def upperByte (b : UInt8) : UInt8 :=
  if 97 ≤ b ∧ b ≤ 122 then b - 32 else b

def lowerByte (b : UInt8) : UInt8 :=
  if 65 ≤ b ∧ b ≤ 90 then b + 32 else b

/-- Upper case; U+0131 and U+017F are the non-ASCII letters with an ASCII upper case. -/
def toUpper : Bytes → Bytes
  | 0xC4 :: 0xB1 :: r => 73 :: toUpper r
  | 0xC5 :: 0xBF :: r => 83 :: toUpper r
  | b :: r => upperByte b :: toUpper r
  | [] => []

/-- Lower case; U+0130 and U+212A are the non-ASCII letters with an ASCII lower case. -/
def toLower : Bytes → Bytes
  | 0xC4 :: 0xB0 :: r => 105 :: toLower r
  | 0xE2 :: 0x84 :: 0xAA :: r => 107 :: toLower r
  | b :: r => lowerByte b :: toLower r
  | [] => []

/-- Simple folding; U+017F and U+212A fold to ASCII letters. -/
def foldCase : Bytes → Bytes
  | 0xC5 :: 0xBF :: r => 115 :: foldCase r
  | 0xE2 :: 0x84 :: 0xAA :: r => 107 :: foldCase r
  | b :: r => lowerByte b :: foldCase r
  | [] => []

def equalFold (a b : Bytes) : Bool :=
  foldCase a == foldCase b

theorem foldCase_of_ascii (h : ∀ b ∈ s, b ≤ 127) : foldCase s = s.map lowerByte := by
  fun_induction foldCase s with
  | case1 r | case2 r => exact absurd (h _ (List.mem_cons_self ..)) (by decide)
  | case3 b r _ _ ih => rw [ih fun c hc => h c (List.mem_cons_of_mem b hc), List.map_cons]
  | case4 => rfl

theorem mem_toUpper (hb : upperByte b = b) (hb' : b < 0x80) (h : b ∈ s) : b ∈ toUpper s := by
  fun_induction toUpper s with
  | case1 r ih | case2 r ih =>
    rcases List.mem_cons.1 h with rfl | h
    · exact absurd hb' (by decide)
    rcases List.mem_cons.1 h with rfl | h
    · exact absurd hb' (by decide)
    · exact List.mem_cons_of_mem _ (ih h)
  | case3 c r _ _ ih =>
    rcases List.mem_cons.1 h with rfl | h
    · rw [hb]
      exact List.mem_cons_self ..
    · exact List.mem_cons_of_mem _ (ih h)
  | case4 => exact h

/-! ## Decimal numbers -/

def digit (d : Nat) : UInt8 :=
  UInt8.ofNat (48 + d)

def isDigit (b : UInt8) : Bool :=
  48 ≤ b && b ≤ 57

def digitsAux : Nat → Nat → Bytes
  | 0, _ => []
  | fuel + 1, n => if n < 10 then [digit n] else digitsAux fuel (n / 10) ++ [digit (n % 10)]

def itoa (n : Nat) : Bytes :=
  digitsAux (n + 1) n

def itoaInt (n : Int) : Bytes :=
  if n < 0 then 45 :: itoa n.natAbs else itoa n.natAbs

def decimalValue (s : Bytes) : Nat :=
  s.foldl (fun acc b => 10 * acc + (b.toNat - 48)) 0

def isDecimal (s : Bytes) : Bool :=
  !s.isEmpty && s.all isDigit

def parseInt64 (s : Bytes) : Option Int :=
  let (negative, digits) :=
    match s with
    | 43 :: r => (false, r)
    | 45 :: r => (true, r)
    | r => (false, r)
  if isDecimal digits then
    let n := decimalValue digits
    if negative then if n ≤ 2 ^ 63 then some (-(n : Int)) else none
    else if n < 2 ^ 63 then some n else none
  else none

theorem lt_of_parseInt64 {n : Int} (h : parseInt64 s = some n) : n < 2 ^ 63 := by
  have hsigned {negative : Bool} {digits : Bytes}
      (hread : (if isDecimal digits then
        if negative then
          if decimalValue digits ≤ 2 ^ 63 then some (-(decimalValue digits : Int)) else none
        else if decimalValue digits < 2 ^ 63 then some (decimalValue digits : Int) else none
        else none) = some n) : n < 2 ^ 63 := by
    split at hread
    · split at hread
      · split at hread
        · cases hread
          omega
        · cases hread
      · split at hread
        · cases hread
          omega
        · cases hread
    · cases hread
  exact hsigned h

theorem decimalValue_append_digit (s : Bytes) {d : Nat} (hd : d < 10) :
    decimalValue (s ++ [digit d]) = 10 * decimalValue s + d := by
  have hbyte : (digit d).toNat - 48 = d := by
    have hmod : (48 + d) % 256 = 48 + d := Nat.mod_eq_of_lt (by omega)
    simp [digit, hmod]
  simp [decimalValue, List.foldl_append, hbyte]

theorem decimalValue_digitsAux (fuel n : Nat) (h : n < fuel) :
    decimalValue (digitsAux fuel n) = n := by
  fun_induction digitsAux fuel n with
  | case1 => omega
  | case2 fuel n hsmall => simpa [decimalValue] using decimalValue_append_digit [] hsmall
  | case3 fuel n hlarge ih =>
    have hrec := ih (by omega)
    rw [decimalValue_append_digit _ (Nat.mod_lt _ (by omega))]
    omega

theorem decimalValue_itoa (n : Nat) : decimalValue (itoa n) = n :=
  decimalValue_digitsAux (n + 1) n (Nat.lt_succ_self n)

theorem itoa_injective : Function.Injective itoa := by
  intro m n h
  have hval := congrArg decimalValue h
  simpa [decimalValue_itoa] using hval

theorem isDigit_digit {d : Nat} (hd : d < 10) : isDigit (digit d) = true := by
  have hall : ∀ d < 10, isDigit (digit d) = true := by decide
  exact hall d hd

theorem isDigit_of_mem_digitsAux (fuel n : Nat) : ∀ b ∈ digitsAux fuel n, isDigit b = true := by
  intro b hb
  fun_induction digitsAux fuel n with
  | case1 => cases hb
  | case2 fuel n hsmall => exact List.mem_singleton.1 hb ▸ isDigit_digit hsmall
  | case3 fuel n hlarge ih =>
    rw [List.mem_append, List.mem_singleton] at hb
    rcases hb with hb | rfl
    · exact ih hb
    · exact isDigit_digit (Nat.mod_lt _ (by omega))

theorem isDigit_of_mem_itoa (h : b ∈ itoa n) : isDigit b = true :=
  isDigit_of_mem_digitsAux (n + 1) n b h

theorem le_of_mem_itoa (h : b ∈ itoa n) : b ≤ 57 := by
  have hdigit := isDigit_of_mem_itoa h
  simp only [isDigit, Bool.and_eq_true, decide_eq_true_eq] at hdigit
  exact hdigit.2

theorem itoa_ne_nil : itoa n ≠ [] := by
  unfold itoa digitsAux
  split <;> simp

theorem length_digitsAux_le {fuel k : Nat} (hk : 0 < k) (h : n < 10 ^ k) :
    (digitsAux fuel n).length ≤ k := by
  fun_induction digitsAux fuel n generalizing k with
  | case1 => exact Nat.zero_le k
  | case2 => exact hk
  | case3 fuel n hlarge ih =>
    -- one digit less for the quotient
    obtain ⟨k, rfl⟩ : ∃ m, k = m + 1 := ⟨k - 1, by omega⟩
    have hquotient : n / 10 < 10 ^ k := by
      rw [Nat.div_lt_iff_lt_mul (by decide)]
      exact h
    have hpos : 0 < k := by
      rcases Nat.eq_zero_or_pos k with rfl | hpos
      · omega
      · exact hpos
    have hrest := ih hpos hquotient
    rw [List.length_append, List.length_singleton]
    omega

theorem length_itoa_le {k : Nat} (hk : 0 < k) (h : n < 10 ^ k) : (itoa n).length ≤ k :=
  length_digitsAux_le hk h

theorem isDecimal_itoa (n : Nat) : isDecimal (itoa n) = true := by
  have hne : (itoa n).isEmpty = false := by simp [itoa_ne_nil]
  have hall : (itoa n).all isDigit = true := List.all_eq_true.2 fun _ => isDigit_of_mem_itoa
  rw [isDecimal, hne, hall]
  rfl

theorem parseInt64_itoa (h : n < 2 ^ 63) : parseInt64 (itoa n) = some n := by
  have hdec := isDecimal_itoa n
  have hvalue := decimalValue_itoa n
  have hdigit : ∀ b ∈ itoa n, isDigit b = true := fun b => isDigit_of_mem_itoa
  generalize itoa n = s at *
  match s, hdigit with
  | 43 :: r, hdigit => exact absurd (hdigit 43 (List.mem_cons_self ..)) (by decide)
  | 45 :: r, hdigit => exact absurd (hdigit 45 (List.mem_cons_self ..)) (by decide)
  | [], _ => simp [isDecimal] at hdec
  | b :: r, hdigit =>
    have hplus : b ≠ 43 := fun he => absurd (he ▸ hdigit b (List.mem_cons_self ..)) (by decide)
    have hminus : b ≠ 45 := fun he => absurd (he ▸ hdigit b (List.mem_cons_self ..)) (by decide)
    simpa [parseInt64, hdec, hvalue, hplus, hminus] using h

/-- `%q` for text of printable ASCII. -/
def quoted (s : Bytes) : Bytes :=
  lit "\"" ++ (s.flatMap fun b => if b = 34 ∨ b = 92 then [92, b] else [b]) ++ lit "\""

end Bytes
