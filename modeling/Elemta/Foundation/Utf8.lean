import Elemta.Foundation.Bytes

/-!
# UTF-8 text and its coercion

Validity of UTF-8 octet sequences, and the coercion that a text encoder applies
to a string it has to write as UTF-8: every octet that does not belong to a
valid sequence becomes the replacement character U+FFFD. Coerced text is valid,
and valid text is exactly the text that the coercion leaves alone.
-/

namespace Utf8

def inRange (lo hi b : UInt8) : Bool :=
  lo ≤ b && b ≤ hi

/-- What the first octet announces: the number of octets that follow and the range of the
first of them. -/
def lead (b : UInt8) : Option (Nat × UInt8 × UInt8) :=
  if b ≤ 0x7F then some (0, 0x80, 0xBF)
  else if inRange 0xC2 0xDF b then some (1, 0x80, 0xBF)
  else if b = 0xE0 then some (2, 0xA0, 0xBF)
  else if b = 0xED then some (2, 0x80, 0x9F)
  else if inRange 0xE1 0xEF b then some (2, 0x80, 0xBF)
  else if b = 0xF0 then some (3, 0x90, 0xBF)
  else if b = 0xF4 then some (3, 0x80, 0x8F)
  else if inRange 0xF1 0xF3 b then some (3, 0x80, 0xBF)
  else none

def tails : Nat → UInt8 → UInt8 → Bytes → Bool
  | 0, _, _, _ => true
  | _ + 1, _, _, [] => false
  | n + 1, lo, hi, b :: r => inRange lo hi b && tails n 0x80 0xBF r

/-- Number of octets after the first one in the character at the head of the text. -/
def runeTail : Bytes → Option Nat
  | [] => none
  | b :: r =>
    match lead b with
    | some (n, lo, hi) => if tails n lo hi r then some n else none
    | none => none

/-- Validity from inside a character of which `k` octets are left. -/
def validAux : Nat → Bytes → Bool
  | _, [] => true
  | k + 1, _ :: r => validAux k r
  | 0, b :: r =>
    match runeTail (b :: r) with
    | some n => validAux n r
    | none => false

def valid (s : Bytes) : Bool :=
  validAux 0 s

def replacement : Bytes :=
  [0xEF, 0xBF, 0xBD]

/-- Coercion from inside a character of which `k` octets are left. -/
def toValidAux : Nat → Bytes → Bytes
  | _, [] => []
  | k + 1, b :: r => b :: toValidAux k r
  | 0, b :: r =>
    match runeTail (b :: r) with
    | some n => b :: toValidAux n r
    | none => replacement ++ toValidAux 0 r

def toValid (s : Bytes) : Bytes :=
  toValidAux 0 s

/-! ## Coerced text is valid -/

theorem tails_toValidAux (n : Nat) (lo hi : UInt8) (r : Bytes)
    (h : tails n lo hi r = true) : tails n lo hi (toValidAux n r) = true := by
  fun_induction tails n lo hi r with
  | case1 => rfl
  | case2 => cases h
  | case3 n lo hi b r ih =>
    rw [Bool.and_eq_true] at h
    simp [toValidAux, tails, h.1, ih h.2]

variable {b c : UInt8} {n : Nat} {r s : Bytes}

theorem lead_of_runeTail (h : runeTail (b :: r) = some n) :
    ∃ lo hi, lead b = some (n, lo, hi) ∧ tails n lo hi r = true := by
  cases hlead : lead b with
  | none => simp [runeTail, hlead] at h
  | some announced =>
    obtain ⟨m, lo, hi⟩ := announced
    obtain ⟨htails, rfl⟩ : tails m lo hi r = true ∧ m = n := by simpa [runeTail, hlead] using h
    exact ⟨lo, hi, rfl, htails⟩

/-- Copying a character's remaining octets does not change how its head reads. -/
theorem runeTail_toValidAux (h : runeTail (b :: r) = some n) :
    runeTail (b :: toValidAux n r) = some n := by
  obtain ⟨lo, hi, hlead, htails⟩ := lead_of_runeTail h
  simp [runeTail, hlead, tails_toValidAux n lo hi r htails]

theorem validAux_replacement_append : validAux 0 (replacement ++ s) = validAux 0 s := by
  have hhead : runeTail (0xEF :: 0xBF :: 0xBD :: s) = some 2 := by
    simp [runeTail, lead, tails, inRange]
  simp [replacement, validAux, hhead]

theorem validAux_toValidAux (k : Nat) : validAux k (toValidAux k s) = true := by
  fun_induction toValidAux k s with
  | case1 k => cases k <;> rfl
  | case2 k b r ih => exact ih
  | case3 b r n hrune ih => simpa [validAux, runeTail_toValidAux hrune] using ih
  | case4 b r hrune ih => rwa [validAux_replacement_append]

theorem valid_toValid : valid (toValid s) = true :=
  validAux_toValidAux 0

/-! ## Valid text is what the coercion leaves alone -/

theorem length_le_toValidAux (k : Nat) (s : Bytes) : s.length ≤ (toValidAux k s).length := by
  fun_induction toValidAux k s with
  | case1 => exact Nat.le_refl _
  | case2 | case3 => simpa
  | case4 b r hrune ih =>
    simp only [replacement, List.length_append, List.length_cons, List.length_nil]
    omega

theorem toValidAux_eq_self_iff (k : Nat) : toValidAux k s = s ↔ validAux k s = true := by
  fun_induction toValidAux k s with
  | case1 => simp [validAux]
  | case2 k b r ih => simpa [validAux] using ih
  | case3 b r n hrune ih => simpa [validAux, hrune] using ih
  | case4 b r hrune ih =>
    -- one octet became three, so the coerced text is longer
    have hlen := length_le_toValidAux 0 r
    simp only [validAux, hrune, Bool.false_eq_true, iff_false]
    intro heq
    have := congrArg List.length heq
    simp only [replacement, List.length_append, List.length_cons, List.length_nil] at this
    omega

theorem toValid_eq_self_iff : toValid s = s ↔ valid s = true :=
  toValidAux_eq_self_iff 0

@[simp] theorem toValid_toValid : toValid (toValid s) = toValid s :=
  toValid_eq_self_iff.2 (valid_toValid)

/-! ## ASCII -/

theorem tails_append_ascii (hc : c ≤ 0x7F) {lo : UInt8} (hi : UInt8) (hlo : 0x80 ≤ lo)
    (r s : Bytes) : tails n lo hi (r ++ c :: s) = tails n lo hi r := by
  induction n generalizing lo hi r with
  | zero => simp [tails]
  | succ n ih =>
    cases r with
    | nil =>
      have hout : inRange lo hi c = false := by
        have hlt : c < lo := UInt8.lt_of_lt_of_le (UInt8.lt_of_le_of_lt hc (by decide)) hlo
        simp [inRange, UInt8.not_le.2 hlt]
      simp [tails, hout]
    | cons b r => simp [tails, ih 0xBF (UInt8.le_refl 0x80) r]

theorem lead_low {lo hi : UInt8} (h : lead b = some (n, lo, hi)) : 0x80 ≤ lo := by
  unfold lead at h
  split_ifs at h <;> simp_all <;> obtain ⟨-, rfl, -⟩ := h <;> decide

theorem runeTail_append_ascii (hc : c ≤ 0x7F) (b : UInt8) (r s : Bytes) :
    runeTail (b :: (r ++ c :: s)) = runeTail (b :: r) := by
  cases hlead : lead b with
  | none => simp [runeTail, hlead]
  | some announced =>
    obtain ⟨n, lo, hi⟩ := announced
    simp [runeTail, hlead, tails_append_ascii hc hi (lead_low hlead) r s]

theorem runeTail_le (h : runeTail (b :: r) = some n) : n ≤ r.length := by
  obtain ⟨lo, hi, -, htails⟩ := lead_of_runeTail h
  clear h
  fun_induction tails n lo hi r with
  | case1 => exact Nat.zero_le _
  | case2 => cases htails
  | case3 n lo hi b r ih =>
    rw [Bool.and_eq_true] at htails
    exact Nat.succ_le_succ (ih htails.2)

/-- Text that starts with an ASCII octet is coerced by itself, whatever stands before it. -/
theorem toValidAux_append_ascii (hc : c ≤ 0x7F) (k : Nat) (r s : Bytes) (hk : k ≤ r.length) :
    toValidAux k (r ++ c :: s) = toValidAux k r ++ toValidAux 0 (c :: s) := by
  fun_induction toValidAux k r with
  | case1 k =>
    obtain rfl : k = 0 := by simpa using hk
    rfl
  | case2 k b r ih => simp [toValidAux, ih (by simpa using hk)]
  | case3 b r n hrune ih =>
    simp [toValidAux, runeTail_append_ascii hc, hrune, ih (runeTail_le hrune)]
  | case4 b r hrune ih => simp [toValidAux, runeTail_append_ascii hc, hrune, ih]

theorem toValid_append_ascii (hc : c ≤ 0x7F) (r s : Bytes) :
    toValid (r ++ c :: s) = toValid r ++ toValid (c :: s) :=
  toValidAux_append_ascii hc 0 r s (Nat.zero_le _)

theorem valid_of_ascii (h : ∀ b ∈ s, b ≤ 0x7F) : valid s = true := by
  induction s with
  | nil => rfl
  | cons b r ih =>
    have hb : b ≤ 0x7F := h b List.mem_cons_self
    have hrune : runeTail (b :: r) = some 0 := by
      simp [runeTail, lead, hb, tails]
    simpa [valid, validAux, hrune] using ih fun x hx => h x (List.mem_cons_of_mem _ hx)

theorem toValid_of_ascii (h : ∀ b ∈ s, b ≤ 0x7F) : toValid s = s :=
  toValid_eq_self_iff.2 (valid_of_ascii h)

/-- ASCII octets are boundaries: the text is valid when both sides of one are. -/
theorem valid_append_ascii (hc : c ≤ 0x7F) (r s : Bytes) :
    valid (r ++ c :: s) = true ↔ valid r = true ∧ valid s = true := by
  have hhead : toValid (c :: s) = c :: toValid s := by
    have hrune : runeTail (c :: s) = some 0 := by
      simp [runeTail, lead, hc, tails]
    simp [toValid, toValidAux, hrune]
  rw [← toValid_eq_self_iff, ← toValid_eq_self_iff, ← toValid_eq_self_iff,
    toValid_append_ascii hc, hhead]
  constructor
  · intro h
    -- the coercion never shortens a text, so both sides keep their length
    have hr := length_le_toValidAux 0 r
    have hs := length_le_toValidAux 0 s
    have hlen := congrArg List.length h
    simp only [List.length_append, List.length_cons] at hlen
    have hleft : (toValid r).length = r.length := by
      unfold toValid at hlen ⊢
      omega
    obtain ⟨h1, h2⟩ := List.append_inj h hleft
    exact ⟨h1, (List.cons.inj h2).2⟩
  · rintro ⟨h1, h2⟩
    rw [h1, h2]

/-- What stands between two ASCII octets of a valid text is valid. -/
theorem valid_of_bracketed {d : UInt8} (hc : c ≤ 0x7F) (hd : d ≤ 0x7F) {tail : Bytes}
    (hs : valid s = true) (h : c :: (r ++ d :: tail) <:+: s) : valid r = true := by
  obtain ⟨front, rest, rfl⟩ := h
  have hinner : valid (r ++ d :: tail ++ rest) = true := by
    refine ((valid_append_ascii hc front _).1 ?_).2
    simpa using hs
  refine ((valid_append_ascii hd r (tail ++ rest)).1 ?_).1
  simpa using hinner

end Utf8
