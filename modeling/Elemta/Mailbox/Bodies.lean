import Elemta.Foundation.Slots
import Elemta.Foundation.Base64
import Elemta.Foundation.Machine
import Elemta.Foundation.Sha256

/-!
# Message bodies as they are stored

A body is compressed into a frame if that is worth it, and sealed under the first
configured key if there are keys. What is stored says itself what it is: a frame and a
sealed body each start with bytes of their own. Compression and keys change between
restarts, and two migrations bring stored bodies to the current form, so a body may be
read under another configuration than it was written under.

The compressor and the cipher are parameters, given with the laws that are assumed of
them; the salt of each seal is an input.
-/

namespace Elemta.Mailbox

open Bytes

inductive BodyError where
  | missing
  | tooLarge
  | corrupt
  | truncated
  | authentication
  | keyUnavailable (version : Bytes)
  | mismatch
  deriving DecidableEq

def readBounded (data : Bytes) (max : Nat) : Except BodyError Bytes :=
  if data.length ≤ max then .ok data else .error .tooLarge

/-! ## Frames -/

def bodyFrame : Bytes :=
  lit "\x00ELMZ1\x00"

def bodyMinCompress : Nat :=
  256

/-- The most that a body of this size can take in the store before it is sealed. -/
def bodyStoredLimit (size : Nat) : Nat :=
  size + size / 128 + 128

/-- A compressor that loses nothing and stays within the limit above. -/
structure Compressor where
  encodeAll : Bytes → Bytes
  decode : Bytes → Option Bytes
  decode_encodeAll : ∀ plain, decode (encodeAll plain) = some plain
  length_frame : ∀ plain, (bodyFrame ++ encodeAll plain).length ≤ bodyStoredLimit plain.length

def frameBody (z : Compressor) (plain : Bytes) : Bytes :=
  bodyFrame ++ z.encodeAll plain

def packBody (z : Compressor) (plain : Bytes) (compress : Bool) : Bytes :=
  let escape := hasPrefix plain bodyFrame
  if escape = false ∧ (compress = false ∨ plain.length < bodyMinCompress) then plain
  else
    let framed := frameBody z plain
    if escape = false ∧ framed.length ≥ plain.length - plain.length / 20 then plain
    else framed

def unpackBody (z : Compressor) (stored : Bytes) (max : Nat) : Except BodyError Bytes :=
  if hasPrefix stored bodyFrame then
    match z.decode (stored.drop bodyFrame.length) with
    | none => .error .corrupt
    | some plain => readBounded plain max
  else readBounded stored max

/-! ## Seals -/

def bodyKeySize : Nat :=
  32

def bodySaltSize : Nat :=
  32

def maxBodyVersion : Nat :=
  64

def bodyMagic : Bytes :=
  lit "\x00ELMB1\x00"

def bodyOverhead : Nat :=
  7 + 1 + maxBodyVersion + bodySaltSize + 16

/-- The cipher with the key that is derived for a salt: it opens what it sealed under the same
associated data, and what it seals grows by the tag. -/
structure Cipher where
  sealWith : (key salt aad plain : Bytes) → Bytes
  openWith : (key salt aad stored : Bytes) → Option Bytes
  openWith_sealWith : ∀ key salt aad plain,
    openWith key salt aad (sealWith key salt aad plain) = some plain
  length_sealWith : ∀ key salt aad plain, (sealWith key salt aad plain).length ≤ plain.length + 16

structure BodySecret where
  version : Bytes
  key : Bytes
  deriving DecidableEq

structure KeyRing where
  keys : List BodySecret
  short : ∀ k ∈ keys, k.version.length ≤ maxBodyVersion
  nodup : (keys.map BodySecret.version).Nodup

def KeyRing.empty : KeyRing :=
  { keys := []
    short := nofun
    nodup := List.nodup_nil }

abbrev Salt := { salt : Bytes // salt.length = bodySaltSize }

def bodyAAD (header key : Bytes) : Bytes :=
  header ++ key

def sealHeader (k : BodySecret) (salt : Salt) : Bytes :=
  bodyMagic ++ [UInt8.ofNat k.version.length] ++ k.version ++ salt.1

def sealBody (c : Cipher) (k : BodySecret) (key : Bytes) (salt : Salt) (plain : Bytes) : Bytes :=
  let header := sealHeader k salt
  header ++ c.sealWith k.key salt.1 (bodyAAD header key) plain

/-- The key version that a stored body names, or `none` for one stored in the clear. -/
def bodyVersion (stored : Bytes) : Except BodyError (Option Bytes) :=
  if hasPrefix stored bodyMagic then
    match stored.drop bodyMagic.length with
    | [] => .error .truncated
    | n :: rest =>
      if rest.length < n.toNat + bodySaltSize then .error .truncated
      else .ok (some (rest.take n.toNat))
  else .ok none

def openBody (c : Cipher) (ring : KeyRing) (key stored : Bytes) : Except BodyError Bytes :=
  match bodyVersion stored with
  | .error e => .error e
  | .ok none => .ok stored
  | .ok (some version) =>
    match ring.keys.find? (fun k => k.version == version) with
    | none => .error (.keyUnavailable version)
    | some k =>
      let headerLen := bodyMagic.length + 1 + version.length + bodySaltSize
      let header := stored.take headerLen
      let salt := header.drop (headerLen - bodySaltSize)
      match c.openWith k.key salt (bodyAAD header key) (stored.drop headerLen) with
      | none => .error .authentication
      | some plain => .ok plain

/-! ## The configured keys -/

/-- One `version:base64` entry, with the versions seen before it. -/
def parseBodyKey (entry : Bytes) (seen : List Bytes) : Option BodySecret :=
  match cut (lit ":") (trimSpace entry) with
  | none => none
  | some (version, encoded) =>
    if version = [] ∨ version.length > maxBodyVersion ∨
        version.any (fun b => b == 58 || b == 44) = true ∨ version ∈ seen then none
    else
      match Base64.decode encoded with
      | none => none
      | some raw => if raw.length ≠ bodyKeySize then none else some { version := version, key := raw }

def parseBodyKeyList : List Bytes → List BodySecret → Option (List BodySecret)
  | [], keys => some keys
  | entry :: rest, keys =>
    match parseBodyKey entry (keys.map BodySecret.version) with
    | none => none
    | some k => parseBodyKeyList rest (keys ++ [k])

theorem parseBodyKey_sound {entry : Bytes} {seen : List Bytes} {k : BodySecret}
    (h : parseBodyKey entry seen = some k) : k.version.length ≤ maxBodyVersion ∧ k.version ∉ seen := by
  revert h
  fun_cases parseBodyKey entry seen with
  | case5 version encoded _ hok =>
    simp only [not_or] at hok
    rintro ⟨⟩
    exact ⟨Nat.le_of_not_lt hok.2.1, hok.2.2.2⟩
  | _ => nofun

theorem parseBodyKeyList_sound {entries : List Bytes} {keys result : List BodySecret}
    (h : parseBodyKeyList entries keys = some result)
    (hshort : ∀ k ∈ keys, k.version.length ≤ maxBodyVersion)
    (hnodup : (keys.map BodySecret.version).Nodup) :
    (∀ k ∈ result, k.version.length ≤ maxBodyVersion) ∧
      (result.map BodySecret.version).Nodup := by
  fun_induction parseBodyKeyList entries keys with
  | case1 =>
    cases h
    exact ⟨hshort, hnodup⟩
  | case2 => cases h
  | case3 entry rest keys k hk ih =>
    obtain ⟨hlen, hnew⟩ := parseBodyKey_sound hk
    exact ih h (Slots.forall_concat hshort hlen) (Slots.nodup_concat hnodup hnew)

def parseBodyKeys (value : Bytes) : Option KeyRing :=
  if value = [] then some KeyRing.empty
  else
    match h : parseBodyKeyList (split (lit ",") value) [] with
    | none => none
    | some keys =>
      have hsound := parseBodyKeyList_sound h nofun List.nodup_nil
      some { keys := keys, short := hsound.1, nodup := hsound.2 }

/-! ## What is written is read -/

theorem hasPrefix_append (p s : Bytes) : hasPrefix (p ++ s) p = true :=
  List.isPrefixOf_iff_prefix.2 (List.prefix_append p s)

theorem not_magic_frame (s : Bytes) : hasPrefix (bodyFrame ++ s) bodyMagic = false := by
  have hframe : bodyFrame = [0, 69, 76, 77, 90, 49, 0] := by decide
  have hmagic : bodyMagic = [0, 69, 76, 77, 66, 49, 0] := by decide
  rfl

inductive Packed (z : Compressor) (plain : Bytes) : Bytes → Prop
  | plain (h : hasPrefix plain bodyFrame = false) : Packed z plain plain
  | framed : Packed z plain (frameBody z plain)

section

variable {z : Compressor} {c : Cipher} {plain packed key : Bytes} {k : BodySecret}
  {ring : KeyRing} {salt : Salt}

theorem packed_packBody (z : Compressor) (plain : Bytes) (compress : Bool) :
    Packed z plain (packBody z plain compress) := by
  unfold packBody
  dsimp only
  split
  · rename_i h
    exact .plain h.1
  split
  · rename_i h
    exact .plain h.1
  · exact .framed

theorem readBounded_self (data : Bytes) : readBounded data data.length = .ok data :=
  if_pos (le_refl _)

section

variable (h : Packed z plain packed)

include h

/-- Either form unpacks to the body: the escape of a body that starts like a frame is what keeps
the two apart. -/
theorem Packed.unpackBody :
    unpackBody z packed plain.length = .ok plain := by
  unfold Mailbox.unpackBody
  cases h with
  | plain hno =>
    rw [if_neg (by rw [hno]; exact Bool.false_ne_true)]
    exact readBounded_self plain
  | framed =>
    unfold frameBody
    rw [List.drop_left, z.decode_encodeAll]
    exact readBounded_self plain

theorem Packed.length_le : packed.length ≤ bodyStoredLimit plain.length := by
  cases h with
  | plain => exact Nat.le_trans (Nat.le_add_right _ _) (Nat.le_add_right _ _)
  | framed => exact z.length_frame plain

theorem Packed.not_magic (hplain : hasPrefix plain bodyMagic = false) :
    hasPrefix packed bodyMagic = false := by
  cases h with
  | plain => exact hplain
  | framed => exact not_magic_frame _

theorem Packed.not_magic_of_frame
    (hframe : hasPrefix packed bodyFrame = true) : hasPrefix packed bodyMagic = false := by
  cases h with
  | plain hno => exact absurd (hno.symm.trans hframe) Bool.false_ne_true
  | framed => exact not_magic_frame _

end

theorem length_sealHeader :
    (sealHeader k salt).length = bodyMagic.length + 1 + k.version.length + bodySaltSize := by
  simp only [sealHeader, List.length_append, List.length_cons, List.length_nil, salt.2, Nat.zero_add]

section

variable (hk : k.version.length ≤ maxBodyVersion)

include hk

theorem length_sealBody : (sealBody c k key salt packed).length ≤ packed.length + bodyOverhead := by
  have hmagic : bodyMagic.length = 7 := by decide
  have htag := c.length_sealWith k.key salt.1 (bodyAAD (sealHeader k salt) key) packed
  simp only [sealBody, List.length_append, length_sealHeader, hmagic, bodyOverhead]
  omega

theorem toNat_version_length : (UInt8.ofNat k.version.length).toNat = k.version.length := by
  exact Nat.mod_eq_of_lt (Nat.lt_of_le_of_lt hk (by decide))

theorem bodyVersion_sealBody :
    bodyVersion (sealBody c k key salt packed) = .ok (some k.version) := by
  have hsplit : sealBody c k key salt packed = bodyMagic ++
      UInt8.ofNat k.version.length :: (k.version ++ (salt.1 ++
        c.sealWith k.key salt.1 (bodyAAD (sealHeader k salt) key) packed)) := by
    simp [sealBody, sealHeader]
  unfold bodyVersion
  rw [hsplit, if_pos (hasPrefix_append _ _), List.drop_left]
  dsimp only
  rw [toNat_version_length hk, if_neg (by simp [salt.2]), List.take_left]

end

theorem find_version (hk : k ∈ ring.keys) :
    ring.keys.find? (fun k' => k'.version == k.version) = some k := by
  have hsome : (ring.keys.find? fun k' => k'.version == k.version).isSome := by
    rw [List.find?_isSome]
    exact ⟨k, hk, beq_self_eq_true _⟩
  obtain ⟨k', hk'⟩ := Option.isSome_iff_exists.1 hsome
  have hversion : k'.version = k.version := by simpa using List.find?_some hk'
  rw [hk', List.inj_on_of_nodup_map ring.nodup (List.mem_of_find?_eq_some hk') hk hversion]

theorem openBody_sealBody (hk : k ∈ ring.keys) :
    openBody c ring key (sealBody c k key salt packed) = .ok packed := by
  unfold openBody
  rw [bodyVersion_sealBody (ring.short k hk)]
  dsimp only
  rw [find_version hk]
  dsimp only
  have htake : (sealBody c k key salt packed).take
      (bodyMagic.length + 1 + k.version.length + bodySaltSize) = sealHeader k salt := by
    rw [← length_sealHeader]
    exact List.take_left
  have hdrop : (sealBody c k key salt packed).drop
      (bodyMagic.length + 1 + k.version.length + bodySaltSize) =
        c.sealWith k.key salt.1 (bodyAAD (sealHeader k salt) key) packed := by
    rw [← length_sealHeader]
    exact List.drop_left
  -- the salt is what is left of the header behind the version
  have hsalt : (sealHeader k salt).drop
      (bodyMagic.length + 1 + k.version.length + bodySaltSize - bodySaltSize) = salt.1 := by
    have hlen : bodyMagic.length + 1 + k.version.length + bodySaltSize - bodySaltSize =
        (bodyMagic ++ [UInt8.ofNat k.version.length] ++ k.version).length := by
      simp only [List.length_append, List.length_cons, List.length_nil, Nat.zero_add,
        Nat.add_sub_cancel]
    rw [hlen]
    exact List.drop_left
  rw [htake, hdrop, hsalt, c.openWith_sealWith]

theorem openBody_clear (h : hasPrefix packed bodyMagic = false) :
    openBody c ring key packed = .ok packed := by
  simp [openBody, bodyVersion, h]

end

end Elemta.Mailbox
