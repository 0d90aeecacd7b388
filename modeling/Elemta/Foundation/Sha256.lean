import Elemta.Foundation.Bytes
import Mathlib.Tactic.IntervalCases

/-!
# SHA-256

The hash function of FIPS 180-4 on octet strings, written with structural
recursion so that it evaluates on concrete input, and the lower-case
hexadecimal form in which digests are stored.
-/

namespace Sha256

def roundConstants : List UInt32 :=
  [0x428a2f98, 0x71374491, 0xb5c0fbcf, 0xe9b5dba5, 0x3956c25b, 0x59f111f1, 0x923f82a4,
    0xab1c5ed5, 0xd807aa98, 0x12835b01, 0x243185be, 0x550c7dc3, 0x72be5d74, 0x80deb1fe,
    0x9bdc06a7, 0xc19bf174, 0xe49b69c1, 0xefbe4786, 0x0fc19dc6, 0x240ca1cc, 0x2de92c6f,
    0x4a7484aa, 0x5cb0a9dc, 0x76f988da, 0x983e5152, 0xa831c66d, 0xb00327c8, 0xbf597fc7,
    0xc6e00bf3, 0xd5a79147, 0x06ca6351, 0x14292967, 0x27b70a85, 0x2e1b2138, 0x4d2c6dfc,
    0x53380d13, 0x650a7354, 0x766a0abb, 0x81c2c92e, 0x92722c85, 0xa2bfe8a1, 0xa81a664b,
    0xc24b8b70, 0xc76c51a3, 0xd192e819, 0xd6990624, 0xf40e3585, 0x106aa070, 0x19a4c116,
    0x1e376c08, 0x2748774c, 0x34b0bcb5, 0x391c0cb3, 0x4ed8aa4a, 0x5b9cca4f, 0x682e6ff3,
    0x748f82ee, 0x78a5636f, 0x84c87814, 0x8cc70208, 0x90befffa, 0xa4506ceb, 0xbef9a3f7,
    0xc67178f2]

structure Registers where
  a : UInt32
  b : UInt32
  c : UInt32
  d : UInt32
  e : UInt32
  f : UInt32
  g : UInt32
  h : UInt32
  deriving DecidableEq

def initial : Registers :=
  { a := 0x6a09e667
    b := 0xbb67ae85
    c := 0x3c6ef372
    d := 0xa54ff53a
    e := 0x510e527f
    f := 0x9b05688c
    g := 0x1f83d9ab
    h := 0x5be0cd19 }

def rotateRight (x n : UInt32) : UInt32 :=
  (x >>> n) ||| (x <<< (32 - n))

/-- Big-endian words; a message is padded to a multiple of four octets first. -/
def words : Bytes → List UInt32
  | a :: b :: c :: d :: rest =>
    ((a.toUInt32 <<< 24) ||| (b.toUInt32 <<< 16) ||| (c.toUInt32 <<< 8) ||| d.toUInt32) ::
      words rest
  | _ => []

/-- The message schedule: the window of sixteen words slides by one word `n` times. -/
def schedule : Nat → List UInt32 → List UInt32
  | n + 1, w0 :: w1 :: w2 :: w3 :: w4 :: w5 :: w6 :: w7 :: w8 :: w9 :: rest@(_ :: _ :: _ ::
      _ :: w14 :: _ :: []) =>
    let s0 := rotateRight w1 7 ^^^ rotateRight w1 18 ^^^ (w1 >>> 3)
    let s1 := rotateRight w14 17 ^^^ rotateRight w14 19 ^^^ (w14 >>> 10)
    w0 :: schedule n (w1 :: w2 :: w3 :: w4 :: w5 :: w6 :: w7 :: w8 :: w9 ::
      (rest ++ [w0 + s0 + w9 + s1]))
  | _, window => window

def round (r : Registers) (input : UInt32 × UInt32) : Registers :=
  let big1 := rotateRight r.e 6 ^^^ rotateRight r.e 11 ^^^ rotateRight r.e 25
  let choice := (r.e &&& r.f) ^^^ (~~~r.e &&& r.g)
  let t1 := r.h + big1 + choice + input.1 + input.2
  let big0 := rotateRight r.a 2 ^^^ rotateRight r.a 13 ^^^ rotateRight r.a 22
  let majority := (r.a &&& r.b) ^^^ (r.a &&& r.c) ^^^ (r.b &&& r.c)
  { a := t1 + (big0 + majority)
    b := r.a
    c := r.b
    d := r.c
    e := r.d + t1
    f := r.e
    g := r.f
    h := r.g }

def compress (s : Registers) (block : List UInt32) : Registers :=
  let r := (roundConstants.zip (schedule 48 block)).foldl round s
  { a := s.a + r.a
    b := s.b + r.b
    c := s.c + r.c
    d := s.d + r.d
    e := s.e + r.e
    f := s.f + r.f
    g := s.g + r.g
    h := s.h + r.h }

def pad (message : Bytes) : Bytes :=
  let bits := 8 * message.length
  message ++ 0x80 :: (List.replicate ((119 - message.length % 64) % 64) 0 ++
    (List.range 8).reverse.map fun i => UInt8.ofNat (bits / 256 ^ i))

def blocks : Nat → List UInt32 → List (List UInt32)
  | 0, _ => []
  | n + 1, ws => ws.take 16 :: blocks n (ws.drop 16)

def sum256 (message : Bytes) : Bytes :=
  let ws := words (pad message)
  let r := (blocks (ws.length / 16) ws).foldl compress initial
  [r.a, r.b, r.c, r.d, r.e, r.f, r.g, r.h].flatMap fun (w : UInt32) =>
    [(w >>> 24).toUInt8, (w >>> 16).toUInt8, (w >>> 8).toUInt8, w.toUInt8]

example : (sum256 (Bytes.lit "abc")).take 4 = [0xba, 0x78, 0x16, 0xbf] := by
  decide +kernel

@[simp] theorem length_sum256 (message : Bytes) : (sum256 message).length = 32 := rfl

/-! ## Hexadecimal -/

def hexDigit (n : Nat) : UInt8 :=
  if n < 10 then UInt8.ofNat (48 + n) else UInt8.ofNat (87 + n)

def hex (bytes : Bytes) : Bytes :=
  bytes.flatMap fun b => [hexDigit (b.toNat / 16), hexDigit (b.toNat % 16)]

@[simp] theorem length_hex (bytes : Bytes) : (hex bytes).length = 2 * bytes.length := by
  induction bytes with
  | nil => rfl
  | cons b rest ih =>
    simp only [hex, List.flatMap_cons, List.length_append, List.length_cons, List.length_nil]
    rw [← hex]
    omega

theorem hexDigit_le {n : Nat} (h : n < 16) : hexDigit n ≤ 0x7F := by
  interval_cases n <;> decide

theorem le_of_mem_hex {bytes : Bytes} {b : UInt8} (h : b ∈ hex bytes) : b ≤ 0x7F := by
  obtain ⟨x, -, hx⟩ := List.mem_flatMap.1 h
  have hlt : x.toNat < 256 := x.toNat_lt
  simp only [List.mem_cons, List.not_mem_nil, or_false] at hx
  rcases hx with rfl | rfl
  · exact hexDigit_le (by omega)
  · exact hexDigit_le (by omega)

end Sha256
