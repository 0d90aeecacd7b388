import Elemta.Foundation.Sha256

/-!
# The sender rewriting scheme

`internal/srs`: addresses under which forwarded mail is sent, and how a bounce to
such an address finds its way back. The hash is six characters of an HMAC over
the parts in lower case; the timestamp counts days modulo 1024.
-/

namespace Elemta.Srs

open Bytes

/-! ## The hash -/

def hmacBlock : Nat := 64

def hmac (key message : Bytes) : Bytes :=
  let key := if hmacBlock < key.length then Sha256.sum256 key else key
  let key := key ++ List.replicate (hmacBlock - key.length) 0
  Sha256.sum256 (key.map (fun b => b ^^^ 0x5c) ++
    Sha256.sum256 (key.map (fun b => b ^^^ 0x36) ++ message))

def alphabet : Bytes :=
  lit "abcdefghijklmnopqrstuvwxyz234567"

def hashLength : Nat := 6

/-- The first bits of an octet string, most significant first. -/
def bits (s : Bytes) : List Bool :=
  s.flatMap fun b => (List.range 8).map fun i => b.toNat.testBit (7 - i)

/-- Base 32 without padding; bits that do not fill a character are dropped. -/
def base32 : List Bool → Bytes
  | a :: b :: c :: d :: e :: rest =>
    alphabet.getD (a.toNat * 16 + b.toNat * 8 + c.toNat * 4 + d.toNat * 2 + e.toNat) 0 ::
      base32 rest
  | _ => []

/-- A separator after every part, so that moving text between parts changes the hash. -/
def sign (secret : Bytes) (parts : List Bytes) : Bytes :=
  (base32 (bits ((hmac secret (parts.flatMap fun p => toLower p ++ [0])).take 4))).take hashLength

/-! ## Rewriting -/

/-- A rewriter has at least one secret; the first one signs. -/
structure Rewriter where
  secret : Bytes
  older : List Bytes
  deriving DecidableEq

def Rewriter.check (r : Rewriter) (got : Bytes) (parts : List Bytes) : Bool :=
  (r.secret :: r.older).any fun secret => toLower got == sign secret parts

def cutAddress (address : Bytes) : Option (Bytes × Bytes) :=
  match cut (lit "@") address.reverse with
  | none => none
  | some (domain, user) =>
    if domain = [] ∨ user = [] then none else some (user.reverse, domain.reverse)

variable {address : Bytes}

theorem eq_of_cutAddress {user domain : Bytes} (h : cutAddress address = some (user, domain)) :
    address = user ++ 64 :: domain := by
  revert h
  fun_cases cutAddress address with
  | case3 domain' user' hcut =>
    rintro ⟨⟩
    have hrev := congrArg List.reverse (eq_of_cut hcut)
    simpa [show lit "@" = [64] by decide] using hrev
  | _ => nofun

/-- `Is`: the form of an SRS address, whatever its domain and hash. -/
def isSRS (address : Bytes) : Bool :=
  match cutAddress address with
  | none => false
  | some (user, _) =>
    decide (5 ≤ user.length) &&
      (toUpper (user.take 5) == lit "SRS0=" || toUpper (user.take 5) == lit "SRS1=")

def daySeconds : Nat := 24 * 3600

def timestampRange : Nat := 1024

def maxAgeDays : Nat := 21

def current (stamp : Bytes) (now : Nat) : Bool :=
  match toLower stamp with
  | [high, low] =>
    match alphabet.idxOf? high, alphabet.idxOf? low with
    | some h, some l =>
      let today := now / daySeconds % timestampRange
      decide (stamp.length = 2) &&
        decide ((today + timestampRange - (h * 32 + l)) % timestampRange ≤ maxAgeDays)
    | _, _ => false
  | _ => false

def Rewriter.reverse (r : Rewriter) (now : Nat) (address : Bytes) : Option Bytes :=
  match cutAddress address with
  | none => none
  | some (user, _) =>
    if isSRS address = false then none
    else if equalFold (user.take 5) (lit "SRS1=") then
      match splitN (lit "=") 4 user with
      | [_, hash, forwarder, rest] =>
        if r.check hash [forwarder, rest] then some (lit "SRS0" ++ rest ++ lit "@" ++ forwarder)
        else none
      | _ => none
    else
      match splitN (lit "=") 5 user with
      | [_, hash, stamp, domain, original] =>
        if original = [] ∨ domain = [] then none
        else if r.check hash [stamp, domain, original] = false then none
        else if current stamp now = false then none
        else some (original ++ lit "@" ++ domain)
      | _ => none

def isSRS1 (address : Bytes) : Bool :=
  match cutAddress address with
  | none => false
  | some (user, _) => equalFold (user.take 5) (lit "SRS1=")

/-- The time stamp in an address. In an SRS1 address it is the one that the first forwarder put
into its own SRS0 address. -/
def stampOf (address : Bytes) : Option Bytes :=
  match cutAddress address with
  | none => none
  | some (user, _) =>
    if isSRS1 address then
      match splitN (lit "=") 4 user with
      | [_, _, _, rest] => (splitN (lit "=") 4 rest)[2]?
      | _ => none
    else
      match splitN (lit "=") 5 user with
      | [_, _, stamp, _, _] => some stamp
      | _ => none

def unexpired (now : Nat) (address : Bytes) : Bool :=
  (stampOf address).any fun stamp => current stamp now

/-- The time stamp is at most `MaxAge` old where it is one of this server. -/
def ownUnexpired (now : Nat) (address : Bytes) : Bool :=
  isSRS1 address || unexpired now address

/-- An address that is reversed has a current stamp, if the stamp is this server's. -/
theorem ownUnexpired_of_reverse {r : Rewriter} {now : Nat} {sender : Bytes}
    (h : r.reverse now address = some sender) : ownUnexpired now address = true := by
  revert h
  fun_cases Rewriter.reverse r now address with
  | case3 user domain hcut _ htwice =>
    have htwice' : isSRS1 address = true := by simpa [isSRS1, hcut] using htwice
    simp [ownUnexpired, htwice']
  | case9 user domain hcut _ honce head hash stamp domain original hsplit _ _ hcurrent =>
    have honce' : isSRS1 address = false := by simpa [isSRS1, hcut] using honce
    simp [ownUnexpired, unexpired, stampOf, hcut, honce', hsplit, eq_true_of_ne_false hcurrent]
  | _ => nofun

end Elemta.Srs
