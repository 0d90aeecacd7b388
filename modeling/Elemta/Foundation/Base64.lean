import Elemta.Foundation.Bytes

/-!
# Base 64

The standard alphabet with padding. The decoder skips line breaks in the text and does
not look at the unused bits of the last character.
-/

namespace Base64

def value (b : UInt8) : Option Nat :=
  if 65 ≤ b ∧ b ≤ 90 then some (b.toNat - 65)
  else if 97 ≤ b ∧ b ≤ 122 then some (b.toNat - 71)
  else if 48 ≤ b ∧ b ≤ 57 then some (b.toNat + 4)
  else if b = 43 then some 62
  else if b = 47 then some 63
  else none

def octets (n : Nat) : Bytes :=
  [UInt8.ofNat (n / 65536), UInt8.ofNat (n / 256 % 256), UInt8.ofNat (n % 256)]

def decodeGroups : Bytes → Option Bytes
  | [] => some []
  | [a, b, 61, 61] =>
    match value a, value b with
    | some x, some y => some ((octets (x * 262144 + y * 4096)).take 1)
    | _, _ => none
  | [a, b, c, 61] =>
    match value a, value b, value c with
    | some x, some y, some z => some ((octets (x * 262144 + y * 4096 + z * 64)).take 2)
    | _, _, _ => none
  | a :: b :: c :: d :: rest =>
    match value a, value b, value c, value d with
    | some x, some y, some z, some w =>
      (decodeGroups rest).map fun s => octets (x * 262144 + y * 4096 + z * 64 + w) ++ s
    | _, _, _, _ => none
  | _ => none

def decode (s : Bytes) : Option Bytes :=
  decodeGroups (s.filter fun b => b != 10 && b != 13)

def char (n : Nat) : UInt8 :=
  if n < 26 then UInt8.ofNat (n + 65)
  else if n < 52 then UInt8.ofNat (n + 71)
  else if n < 62 then UInt8.ofNat (n - 4)
  else if n = 62 then 43
  else 47

def encode : Bytes → Bytes
  | [] => []
  | [a] => [char (a.toNat / 4), char (a.toNat % 4 * 16), 61, 61]
  | [a, b] =>
    [char (a.toNat / 4), char (a.toNat % 4 * 16 + b.toNat / 16), char (b.toNat % 16 * 4), 61]
  | a :: b :: c :: rest =>
    char (a.toNat / 4) :: char (a.toNat % 4 * 16 + b.toNat / 16) ::
      char (b.toNat % 16 * 4 + c.toNat / 64) :: char (c.toNat % 64) :: encode rest

/-! ## Reading what was written -/

theorem char_spec {n : Nat} (h : n < 64) :
    value (char n) = some n ∧ 43 ≤ char n ∧ char n ≤ 122 ∧ char n ≠ 61 ∧ char n ≠ 59 ∧
      char n ≠ 58 := by
  have hall : ∀ n : Fin 64, value (char n) = some n.val ∧ 43 ≤ char n ∧ char n ≤ 122 ∧
      char n ≠ 61 ∧ char n ≠ 59 ∧ char n ≠ 58 := by decide
  exact hall ⟨n, h⟩

variable {b : UInt8} {s : Bytes}

theorem decodeGroups_cons {a c d : UInt8} (hc : c ≠ 61) (hd : d ≠ 61) (rest : Bytes) :
    decodeGroups (a :: b :: c :: d :: rest) =
      match value a, value b, value c, value d with
      | some x, some y, some z, some w =>
        (decodeGroups rest).map fun s => octets (x * 262144 + y * 4096 + z * 64 + w) ++ s
      | _, _, _, _ => none := by
  cases rest with
  | nil => simp [decodeGroups, hc, hd]
  | cons e rest => simp [decodeGroups]

theorem decodeGroups_padded {a c : UInt8} (hc : c ≠ 61) :
    decodeGroups [a, b, c, 61] =
      match value a, value b, value c with
      | some x, some y, some z => some ((octets (x * 262144 + y * 4096 + z * 64)).take 2)
      | _, _, _ => none := by
  rw [decodeGroups]
  exact fun h => hc h

private theorem octets_eq {a b c n : Nat} (hb : b < 256) (hc : c < 256)
    (hn : n = a * 65536 + b * 256 + c) :
    octets n = [UInt8.ofNat a, UInt8.ofNat b, UInt8.ofNat c] := by
  have hfirst : n / 65536 = a := by omega
  have hsecond : n / 256 % 256 = b := by omega
  have hthird : n % 256 = c := by omega
  rw [octets, hfirst, hsecond, hthird]

theorem decodeGroups_encode : decodeGroups (encode s) = some s := by
  fun_induction encode s with
  | case1 => rfl
  | case2 a =>
    have ha := a.toNat_lt
    have h1 := (char_spec (show a.toNat / 4 < 64 by omega)).1
    have h2 := (char_spec (show a.toNat % 4 * 16 < 64 by omega)).1
    have hoct := octets_eq (show 0 < 256 by omega) (show 0 < 256 by omega)
      (show a.toNat / 4 * 262144 + a.toNat % 4 * 16 * 4096 = a.toNat * 65536 + 0 * 256 + 0 by omega)
    simp [decodeGroups, h1, h2, hoct]
  | case3 a b =>
    have ha := a.toNat_lt
    have hb := b.toNat_lt
    have h1 := (char_spec (show a.toNat / 4 < 64 by omega)).1
    have h2 := (char_spec (show a.toNat % 4 * 16 + b.toNat / 16 < 64 by omega)).1
    obtain ⟨h3, -, -, h3eq, -, -⟩ := char_spec (show b.toNat % 16 * 4 < 64 by omega)
    have hoct := octets_eq hb (show 0 < 256 by omega)
      (show a.toNat / 4 * 262144 + (a.toNat % 4 * 16 + b.toNat / 16) * 4096 +
        b.toNat % 16 * 4 * 64 = a.toNat * 65536 + b.toNat * 256 + 0 by omega)
    rw [decodeGroups_padded h3eq]
    simp [h1, h2, h3, hoct]
  | case4 a b c rest ih =>
    have ha := a.toNat_lt
    have hb := b.toNat_lt
    have hc := c.toNat_lt
    have h1 := (char_spec (show a.toNat / 4 < 64 by omega)).1
    have h2 := (char_spec (show a.toNat % 4 * 16 + b.toNat / 16 < 64 by omega)).1
    obtain ⟨h3, -, -, h3eq, -, -⟩ := char_spec (show b.toNat % 16 * 4 + c.toNat / 64 < 64 by omega)
    obtain ⟨h4, -, -, h4eq, -, -⟩ := char_spec (show c.toNat % 64 < 64 by omega)
    have hoct := octets_eq hb hc
      (show a.toNat / 4 * 262144 + (a.toNat % 4 * 16 + b.toNat / 16) * 4096 +
        (b.toNat % 16 * 4 + c.toNat / 64) * 64 + c.toNat % 64 =
          a.toNat * 65536 + b.toNat * 256 + c.toNat by omega)
    rw [decodeGroups_cons h3eq h4eq, ih]
    simp [h1, h2, h3, h4, hoct]

theorem mem_encode_cases (h : b ∈ encode s) : b = 61 ∨ ∃ n < 64, b = char n := by
  fun_induction encode s with
  | case1 => simp at h
  | case2 a =>
    have ha := a.toNat_lt
    simp only [List.mem_cons, List.not_mem_nil, or_false] at h
    rcases h with rfl | rfl | rfl | rfl
    · exact .inr ⟨_, by omega, rfl⟩
    · exact .inr ⟨_, by omega, rfl⟩
    · exact .inl rfl
    · exact .inl rfl
  | case3 a b =>
    have ha := a.toNat_lt
    have hb := b.toNat_lt
    simp only [List.mem_cons, List.not_mem_nil, or_false] at h
    rcases h with rfl | rfl | rfl | rfl
    · exact .inr ⟨_, by omega, rfl⟩
    · exact .inr ⟨_, by omega, rfl⟩
    · exact .inr ⟨_, by omega, rfl⟩
    · exact .inl rfl
  | case4 a b c rest ih =>
    have ha := a.toNat_lt
    have hb := b.toNat_lt
    have hc := c.toNat_lt
    simp only [List.mem_cons] at h
    rcases h with rfl | rfl | rfl | rfl | h
    · exact .inr ⟨_, by omega, rfl⟩
    · exact .inr ⟨_, by omega, rfl⟩
    · exact .inr ⟨_, by omega, rfl⟩
    · exact .inr ⟨_, by omega, rfl⟩
    · exact ih h

/-- Encoded text has no blanks, line breaks, colons or semicolons. -/
theorem mem_encode (h : b ∈ encode s) : 33 ≤ b ∧ b ≤ 126 ∧ b ≠ 58 ∧ b ≠ 59 := by
  rcases mem_encode_cases h with rfl | ⟨n, hn, rfl⟩
  · decide
  · obtain ⟨-, hlow, hhigh, -, hsemi, hcolon⟩ := char_spec hn
    exact ⟨UInt8.le_trans (show (33 : UInt8) ≤ 43 by decide) hlow,
      UInt8.le_trans hhigh (show (122 : UInt8) ≤ 126 by decide), hcolon, hsemi⟩

theorem decode_encode (s : Bytes) : decode (encode s) = some s := by
  have hkeep : (encode s).filter (fun b => b != 10 && b != 13) = encode s := by
    refine List.filter_eq_self.2 fun b hb => ?_
    obtain ⟨hlow, -⟩ := mem_encode hb
    have h10 : b ≠ 10 := fun h => absurd (h ▸ hlow) (by decide)
    have h13 : b ≠ 13 := fun h => absurd (h ▸ hlow) (by decide)
    simp [h10, h13]
  rw [decode, hkeep, decodeGroups_encode]

end Base64
