import Elemta.Mailbox.Bodies

/-!
# Bodies through restarts and migrations

The service is restarted with compression on or off and with more keys at the front of its
list, bodies are put and deleted, and migrations that compress or seal what is stored run
beside all that. A migration reads a body, looks whether its row is still there, replaces
the object and reads it back, each as a step of its own, and it may stop after any of them.
It keeps the configuration that it was started with.
-/

namespace Elemta.Mailbox.BodyHistory

open Bytes

structure Config where
  compress : Bool
  ring : KeyRing

abbrev Objects := Bytes → Option Bytes

/-- `key`'s row in `mailbox_bodies`, in the state `ready`. -/
structure Row where
  size : Nat
  checksum : Bytes
  deriving DecidableEq

def checksumOf (raw : Bytes) : Bytes :=
  Sha256.hex (Sha256.sum256 raw)

def rowOf (raw : Bytes) : Row :=
  { size := raw.length, checksum := checksumOf raw }

/-! ## The layers of the store -/

def rawGet (objects : Objects) (key : Bytes) (max : Nat) : Except BodyError Bytes :=
  match objects key with
  | none => .error .missing
  | some data => readBounded data max

/-- `encryptedBodies.Get` -/
def encryptedGet (c : Cipher) (ring : KeyRing) (objects : Objects) (key : Bytes) (max : Nat) :
    Except BodyError Bytes := do
  let stored ← rawGet objects key (max + bodyOverhead)
  let plain ← openBody c ring key stored
  if plain.length > max then .error .tooLarge else .ok plain

variable (z : Compressor)

/-- `compressedBodies.Get`, over the encrypted store if there are keys. -/
def get (c : Cipher) (cfg : Config) (objects : Objects) (key : Bytes)
    (max : Nat) : Except BodyError Bytes := do
  let stored ←
    match cfg.ring.keys with
    | [] => rawGet objects key (bodyStoredLimit max)
    | _ :: _ => encryptedGet c cfg.ring objects key (bodyStoredLimit max)
  unpackBody z stored max

def stored (c : Cipher) (ring : KeyRing) (key : Bytes) (salt : Salt) (packed : Bytes) : Bytes :=
  match ring.keys with
  | [] => packed
  | k :: _ => sealBody c k key salt packed

/-! ## The migrations -/

def opened (c : Cipher) (ring : KeyRing) (key object : Bytes) : Except BodyError Bytes :=
  match ring.keys with
  | [] => .ok object
  | _ :: _ => openBody c ring key object

def verified (packed : Bytes) (row : Row) : Except BodyError Bytes := do
  let plain ← unpackBody z packed row.size
  if plain.length ≠ row.size ∨ checksumOf plain ≠ row.checksum then .error .mismatch else .ok plain

/-- `encryptBody` up to the object that it would put in the store. -/
def encryptBody (c : Cipher) (cfg : Config) (objects : Objects) (key : Bytes)
    (row : Row) (salt : Salt) : Except BodyError (Option Bytes) :=
  match cfg.ring.keys with
  | [] => .ok none
  | current :: _ => do
    let object ← rawGet objects key (bodyStoredLimit row.size + bodyOverhead)
    let version ← bodyVersion object
    if version = some current.version then return none
    let packed ← openBody c cfg.ring key object
    let _ ← verified z packed row
    return some (sealBody c current key salt packed)

/-- `compressBody` up to the object that it would put in the store. -/
def compressBody (c : Cipher) (cfg : Config) (objects : Objects) (key : Bytes)
    (row : Row) (salt : Salt) : Except BodyError (Option Bytes) :=
  if cfg.compress = false then .ok none
  else do
    let object ← rawGet objects key (bodyStoredLimit row.size + bodyOverhead)
    let packed ← opened c cfg.ring key object
    let plain ← verified z packed row
    if hasPrefix packed bodyFrame then return none
    let smaller := packBody z plain true
    if hasPrefix smaller bodyFrame = false then return none
    return some (stored c cfg.ring key salt smaller)

/-! ## The machine -/

inductive Job where
  | prepared (cfg : Config) (key next : Bytes)
  | cleared (cfg : Config) (key next : Bytes)
  | replaced (cfg : Config) (key : Bytes)
  | finished

structure State where
  cfg : Config
  objects : Objects
  rows : Bytes → Option Row
  /-- The bytes that were put under each key. -/
  given : Bytes → Option Bytes
  jobs : List Job
  failed : List Bytes

def State.init : State :=
  { cfg := { compress := false, ring := KeyRing.empty }
    objects := fun _ => none
    rows := fun _ => none
    given := fun _ => none
    jobs := []
    failed := [] }

inductive Input where
  | restart (compress : Bool) (keys : Bytes)
  | put (key plain : Bytes) (salt : Salt)
  | delete (key : Bytes)
  | encrypt (key : Bytes) (salt : Salt)
  | compress (key : Bytes) (salt : Salt)
  | advance (i : Nat)
  deriving DecidableEq

def State.begin (s : State) (key : Bytes) (next : Row → Except BodyError (Option Bytes)) : State :=
  match s.rows key with
  | none => s
  | some row =>
    match next row with
    | .error _ => { s with failed := s.failed ++ [key] }
    | .ok none => s
    | .ok (some object) => { s with jobs := s.jobs ++ [.prepared s.cfg key object] }

def State.advance (c : Cipher) (s : State) (i : Nat) : Job → State
  | .prepared cfg key next =>
    if (s.rows key).isSome then { s with jobs := s.jobs.set i (.cleared cfg key next) }
    else { s with jobs := s.jobs.set i .finished }
  | .cleared cfg key next =>
    { s with
      objects := Function.update s.objects key (some next)
      jobs := s.jobs.set i (.replaced cfg key) }
  | .replaced cfg key =>
    match s.rows key with
    | none => { s with jobs := s.jobs.set i .finished }
    | some row =>
      match get z c cfg s.objects key row.size with
      | .error _ => { s with jobs := s.jobs.set i .finished, failed := s.failed ++ [key] }
      | .ok check =>
        if checksumOf check ≠ row.checksum then
          { s with jobs := s.jobs.set i .finished, failed := s.failed ++ [key] }
        else { s with jobs := s.jobs.set i .finished }
  | .finished => s

def step (c : Cipher) (s : State) : Input → State
  | .restart compress keys =>
    match parseBodyKeys keys with
    | none => s
    | some ring =>
      -- keys are only ever added at the front
      if s.cfg.ring.keys <:+ ring.keys then { s with cfg := { compress := compress, ring := ring } }
      else s
  | .put key plain salt =>
    -- an upload has a key of its own
    if s.given key = none then
      { s with
        objects := Function.update s.objects key
          (some (stored c s.cfg.ring key salt (packBody z plain s.cfg.compress)))
        rows := Function.update s.rows key (some (rowOf plain))
        given := Function.update s.given key (some plain) }
    else s
  | .delete key =>
    { s with
      objects := Function.update s.objects key none
      rows := Function.update s.rows key none }
  | .encrypt key salt => s.begin key fun row => encryptBody z c s.cfg s.objects key row salt
  | .compress key salt => s.begin key fun row => compressBody z c s.cfg s.objects key row salt
  | .advance i =>
    match s.jobs[i]? with
    | none => s
    | some job => s.advance z c i job

/-! ## The forms of a body -/

/-- An object that holds the body and can be told apart under these keys and any that are added. -/
inductive Form (z : Compressor) (c : Cipher) (ring : KeyRing) (key plain : Bytes) :
    Bytes → Prop
  | clear {packed : Bytes} (hpacked : Packed z plain packed)
      (hmagic : hasPrefix packed bodyMagic = false) : Form z c ring key plain packed
  | sealed {packed : Bytes} {k : BodySecret} (hk : k ∈ ring.keys) (salt : Salt)
      (hpacked : Packed z plain packed) :
      Form z c ring key plain (sealBody c k key salt packed)

section Forms

variable {z : Compressor} {c : Cipher} {cfg : Config} {ring : KeyRing} {objects : Objects}
  {key plain object packed : Bytes} {salt : Salt}

section

variable (h : Form z c ring key plain object)

include h

theorem Form.mono {ring' : KeyRing}
    (hsub : ring.keys ⊆ ring'.keys) : Form z c ring' key plain object := by
  cases h with
  | clear hpacked hmagic => exact .clear hpacked hmagic
  | sealed hk salt hpacked => exact .sealed (hsub hk) salt hpacked

theorem Form.openBody :
    ∃ packed, Packed z plain packed ∧ openBody c ring key object = .ok packed ∧
      object.length ≤ packed.length + bodyOverhead := by
  cases h with
  | clear hpacked hmagic => exact ⟨object, hpacked, openBody_clear hmagic, Nat.le_add_right _ _⟩
  | @sealed packed k hk salt hpacked =>
    exact ⟨packed, hpacked, openBody_sealBody hk, length_sealBody (ring.short k hk)⟩

theorem Form.packed_of_no_keys (hring : ring.keys = []) : Packed z plain object := by
  cases h with
  | clear hpacked hmagic => exact hpacked
  | sealed hk salt hpacked =>
    rw [hring] at hk
    cases hk

theorem Form.opened :
    ∃ packed, Packed z plain packed ∧ opened c ring key object = .ok packed := by
  unfold BodyHistory.opened
  cases hring : ring.keys with
  | nil => exact ⟨object, h.packed_of_no_keys hring, rfl⟩
  | cons k rest =>
    obtain ⟨packed, hpacked, hopen, -⟩ := h.openBody
    exact ⟨packed, hpacked, hopen⟩

theorem Form.length_le :
    object.length ≤ bodyStoredLimit plain.length + bodyOverhead := by
  obtain ⟨packed, hpacked, -, hlen⟩ := h.openBody
  exact Nat.le_trans hlen (Nat.add_le_add_right hpacked.length_le _)

end

theorem rawGet_of_le {max : Nat} (hobject : objects key = some object) (hlen : object.length ≤ max) :
    rawGet objects key max = .ok object := by
  simp [rawGet, hobject, readBounded, hlen]

/-- A body in any of its forms is read with its recorded size. -/
theorem Form.get (h : Form z c cfg.ring key plain object) (hobject : objects key = some object) :
    get z c cfg objects key plain.length = .ok plain := by
  unfold BodyHistory.get
  cases hring : cfg.ring.keys with
  | nil =>
    have hpacked := h.packed_of_no_keys hring
    rw [rawGet_of_le hobject hpacked.length_le]
    exact hpacked.unpackBody
  | cons k rest =>
    obtain ⟨packed, hpacked, hopen, hlen⟩ := h.openBody
    have hinner : encryptedGet c cfg.ring objects key (bodyStoredLimit plain.length) = .ok packed := by
      unfold encryptedGet
      rw [rawGet_of_le hobject h.length_le]
      simp only [bind, Except.bind, hopen]
      exact if_neg (Nat.not_lt.2 hpacked.length_le)
    rw [hinner]
    exact hpacked.unpackBody

theorem verified_of_packed (h : Packed z plain packed) :
    verified z packed (rowOf plain) = .ok plain := by
  unfold verified
  have hunpack : unpackBody z packed (rowOf plain).size = .ok plain := h.unpackBody
  simp only [bind, Except.bind, hunpack]
  exact if_neg (by simp [rowOf])

theorem form_sealBody {k : BodySecret} (hk : k ∈ ring.keys) (hpacked : Packed z plain packed) :
    Form z c ring key plain (sealBody c k key salt packed) :=
  .sealed hk salt hpacked

/-- What is put is a form of the body, if no clear body can be taken for a sealed one. -/
theorem form_stored (hpacked : Packed z plain packed)
    (hclear : ring.keys = [] → hasPrefix packed bodyMagic = false) :
    Form z c ring key plain (stored c ring key salt packed) := by
  unfold stored
  cases hring : ring.keys with
  | nil => exact .clear hpacked (hclear hring)
  | cons k rest => exact form_sealBody (by rw [hring]; exact List.mem_cons_self) hpacked

variable {next : Bytes}

theorem encryptBody_form (h : Form z c cfg.ring key plain object)
    (hobject : objects key = some object)
    (hnext : encryptBody z c cfg objects key (rowOf plain) salt = .ok (some next)) :
    Form z c cfg.ring key plain next := by
  unfold encryptBody at hnext
  cases hring : cfg.ring.keys with
  | nil =>
    rw [hring] at hnext
    cases hnext
  | cons current rest =>
    obtain ⟨packed, hpacked, hopen, -⟩ := h.openBody
    have hraw := rawGet_of_le hobject h.length_le
    rw [hring] at hnext
    have hsize : (rowOf plain).size = plain.length := rfl
    simp only [bind, Except.bind, hsize, hraw, hopen, verified_of_packed hpacked, pure,
      Except.pure] at hnext
    split at hnext
    · cases hnext
    split at hnext
    · cases hnext
    · cases hnext
      exact form_sealBody (by rw [hring]; exact List.mem_cons_self) hpacked

theorem compressBody_form (h : Form z c cfg.ring key plain object)
    (hobject : objects key = some object)
    (hnext : compressBody z c cfg objects key (rowOf plain) salt = .ok (some next)) :
    Form z c cfg.ring key plain next := by
  unfold compressBody at hnext
  split at hnext
  · cases hnext
  obtain ⟨packed, hpacked, hopened⟩ := h.opened
  have hraw := rawGet_of_le hobject h.length_le
  have hsize : (rowOf plain).size = plain.length := rfl
  simp only [bind, Except.bind, hsize, hraw, hopened, verified_of_packed hpacked, pure,
    Except.pure] at hnext
  split at hnext
  · cases hnext
  split at hnext
  · cases hnext
  rename_i hframe
  cases hnext
  have hsmaller := packed_packBody z plain true
  exact form_stored hsmaller fun _ =>
    hsmaller.not_magic_of_frame (Bool.not_eq_false _ ▸ hframe)

end Forms

/-! ## Every history -/

/-- Mail that is put in the clear does not start like a sealed body. -/
def unmistakable (s : State) : Input → Bool
  | .put _ plain _ => !s.cfg.ring.keys.isEmpty || !hasPrefix plain bodyMagic
  | _ => true

def JobOk (c : Cipher) (s : State) : Job → Prop
  | .prepared _ key next => ∃ plain, s.given key = some plain ∧ Form z c s.cfg.ring key plain next
  | .cleared _ key next => ∃ plain, s.given key = some plain ∧ Form z c s.cfg.ring key plain next
  | .replaced _ _ => True
  | .finished => True

structure Kept (c : Cipher) (s : State) : Prop where
  forms : ∀ key plain object, s.given key = some plain → s.objects key = some object →
    Form z c s.cfg.ring key plain object
  rows : ∀ key row, s.rows key = some row →
    ∃ plain object, s.given key = some plain ∧ row = rowOf plain ∧ s.objects key = some object
  jobs : ∀ job ∈ s.jobs, JobOk z c s job

section Histories

variable {z : Compressor} {c : Cipher} {s : State} {key : Bytes}

theorem Kept.setJob (h : Kept z c s) (i : Nat) (job : Job) (hjob : JobOk z c s job)
    (failed : List Bytes) :
    Kept z c { s with jobs := s.jobs.set i job, failed := failed } where
  forms := h.forms
  rows := h.rows
  jobs := Slots.forall_set h.jobs hjob

/-- A migration takes up a body with something that keeps it. -/
theorem Kept.begin (h : Kept z c s) {next : Row → Except BodyError (Option Bytes)}
    (hnext : ∀ plain object new, Form z c s.cfg.ring key plain object → s.objects key = some object →
      next (rowOf plain) = .ok (some new) → Form z c s.cfg.ring key plain new) :
    Kept z c (s.begin key next) := by
  unfold State.begin
  split
  · exact h
  rename_i row hrow
  obtain ⟨plain, object, hgiven, rfl, hobject⟩ := h.rows key row hrow
  split
  · exact ⟨h.forms, h.rows, h.jobs⟩
  · exact h
  · rename_i new hnew
    exact ⟨h.forms, h.rows, Slots.forall_concat h.jobs
      ⟨plain, hgiven, hnext plain object new (h.forms key plain object hgiven hobject) hobject hnew⟩⟩

theorem Kept.advance (h : Kept z c s) {i : Nat} {job : Job} (hjob : s.jobs[i]? = some job) :
    Kept z c (s.advance z c i job) := by
  have hok := h.jobs job (List.mem_of_getElem? hjob)
  fun_cases State.advance z c s i job with
  | case1 cfg key next => exact h.setJob i (.cleared cfg key next) hok _
  | case3 cfg key next =>
    obtain ⟨plain, hgiven, hform⟩ := hok
    have hset := h.setJob i (.replaced cfg key) trivial s.failed
    refine ⟨fun key' plain' object hgiven' hobject => ?_, fun key' row hrow => ?_, hset.jobs⟩
    · dsimp only at hobject
      by_cases hkey : key' = key
      · subst hkey
        rw [Function.update_self] at hobject
        cases hobject
        cases hgiven.symm.trans hgiven'
        exact hform
      · rw [Function.update_of_ne hkey] at hobject
        exact h.forms key' plain' object hgiven' hobject
    · obtain ⟨plain', object, hgiven', hplain', hobject⟩ := h.rows key' row hrow
      by_cases hkey : key' = key
      · subst hkey
        exact ⟨plain', next, hgiven', hplain', Function.update_self ..⟩
      · exact ⟨plain', object, hgiven', hplain', (Function.update_of_ne hkey ..).trans hobject⟩
  | case8 => exact h
  | _ => exact h.setJob i .finished trivial _

/-- More keys leave every form what it is. -/
theorem Kept.restart (h : Kept z c s) {compress : Bool} {ring : KeyRing}
    (hsuffix : s.cfg.ring.keys <:+ ring.keys) :
    Kept z c { s with cfg := { compress := compress, ring := ring } } where
  forms key plain object hgiven hobject := (h.forms key plain object hgiven hobject).mono hsuffix.subset
  rows := h.rows
  jobs job hjob := by
    have hok := h.jobs job hjob
    cases job with
    | prepared | cleared =>
      obtain ⟨plain, hgiven, hform⟩ := hok
      exact ⟨plain, hgiven, hform.mono hsuffix.subset⟩
    | replaced cfg key => trivial
    | finished => trivial

variable {plain : Bytes}

theorem JobOk.put {job : Job} (h : JobOk z c s job) (hnew : s.given key = none)
    {objects : Objects} {rows : Bytes → Option Row} :
    JobOk z c { s with
      objects := objects, rows := rows, given := Function.update s.given key (some plain) } job := by
  -- a job is about a body that was put before
  have hother : ∀ {key' plain'}, s.given key' = some plain' →
      Function.update s.given key (some plain) key' = some plain' := by
    intro key' plain' hgiven
    rw [Function.update_of_ne]
    · exact hgiven
    · rintro rfl
      rw [hnew] at hgiven
      cases hgiven
  cases job with
  | prepared | cleared =>
    obtain ⟨plain', hgiven, hform⟩ := h
    exact ⟨plain', hother hgiven, hform⟩
  | replaced cfg key' => trivial
  | finished => trivial

theorem Kept.put (h : Kept z c s) (hnew : s.given key = none) {object : Bytes}
    (hform : Form z c s.cfg.ring key plain object) :
    Kept z c { s with
      objects := Function.update s.objects key (some object)
      rows := Function.update s.rows key (some (rowOf plain))
      given := Function.update s.given key (some plain) } where
  forms key' plain' object' hgiven hobject := by
    dsimp only at hgiven hobject
    by_cases hkey : key' = key
    · subst hkey
      rw [Function.update_self] at hgiven hobject
      cases hgiven
      cases hobject
      exact hform
    · rw [Function.update_of_ne hkey] at hgiven hobject
      exact h.forms key' plain' object' hgiven hobject
  rows key' row hrow := by
    dsimp only at hrow ⊢
    by_cases hkey : key' = key
    · subst hkey
      rw [Function.update_self] at hrow
      cases hrow
      exact ⟨plain, object, Function.update_self .., rfl, Function.update_self ..⟩
    rw [Function.update_of_ne hkey] at hrow
    obtain ⟨plain', object', hgiven, hplain, hobject⟩ := h.rows key' row hrow
    refine ⟨plain', object', ?_, hplain, ?_⟩
    · rw [Function.update_of_ne hkey]
      exact hgiven
    · rw [Function.update_of_ne hkey]
      exact hobject
  jobs job hjob := (h.jobs job hjob).put hnew

theorem Kept.delete (h : Kept z c s) (key : Bytes) :
    Kept z c { s with
      objects := Function.update s.objects key none
      rows := Function.update s.rows key none } where
  forms key' plain object hgiven hobject := by
    dsimp only at hobject
    by_cases hkey : key' = key
    · subst hkey
      rw [Function.update_self] at hobject
      cases hobject
    · rw [Function.update_of_ne hkey] at hobject
      exact h.forms key' plain object hgiven hobject
  rows key' row hrow := by
    dsimp only at hrow ⊢
    by_cases hkey : key' = key
    · subst hkey
      rw [Function.update_self] at hrow
      cases hrow
    · rw [Function.update_of_ne hkey] at hrow
      obtain ⟨plain, object, hgiven, hplain, hobject⟩ := h.rows key' row hrow
      exact ⟨plain, object, hgiven, hplain, by rw [Function.update_of_ne hkey]; exact hobject⟩
  jobs := h.jobs

theorem Kept.step (h : Kept z c s) {input : Input} (hclear : unmistakable s input = true) :
    Kept z c (step z c s input) := by
  cases input with
  | restart compress keys =>
    simp only [BodyHistory.step]
    split
    · exact h
    split
    · rename_i hsuffix
      exact h.restart hsuffix
    · exact h
  | put key plain salt =>
    simp only [BodyHistory.step]
    split
    · rename_i hnew
      have hpacked := packed_packBody z plain s.cfg.compress
      refine h.put hnew (form_stored hpacked fun hring => hpacked.not_magic ?_)
      simpa [unmistakable, hring] using hclear
    · exact h
  | delete key => exact h.delete key
  | encrypt key salt =>
    exact h.begin fun plain object new hform hobject hnew => encryptBody_form hform hobject hnew
  | compress key salt =>
    exact h.begin fun plain object new hform hobject hnew => compressBody_form hform hobject hnew
  | advance i =>
    simp only [BodyHistory.step]
    split
    · exact h
    · rename_i job hjob
      exact h.advance hjob

theorem kept_init : Kept z c State.init :=
  ⟨nofun, nofun, nofun⟩

end Histories

/-- In a history in which no body that starts like a sealed one is put in the clear, every body that
has a row is read with its recorded size, as it was put. -/
theorem read_as_put (c : Cipher) (inputs : List Input)
    (h : Machine.Along (step z c) (fun s i => unmistakable s i = true) State.init inputs)
    (key : Bytes) (row : Row)
    (hrow : (Machine.run (step z c) State.init inputs).rows key = some row) :
    ∃ plain, (Machine.run (step z c) State.init inputs).given key = some plain ∧
      get z c (Machine.run (step z c) State.init inputs).cfg
        (Machine.run (step z c) State.init inputs).objects key row.size = .ok plain := by
  have hkept := h.run_invariant (Kept z c) (fun _ _ hclear hs => hs.step hclear) kept_init
  obtain ⟨plain, object, hgiven, rfl, hobject⟩ := hkept.rows key row hrow
  exact ⟨plain, hgiven, (hkept.forms key plain object hgiven hobject).get hobject⟩

/-! ### A small compressor and a cipher without secrets -/

def runOfLetters : Bytes :=
  List.replicate 300 97

def toyCompressor : Compressor where
  encodeAll plain := if plain = runOfLetters then [1] else 0 :: plain
  decode
    | [1] => some runOfLetters
    | 0 :: plain => some plain
    | _ => none
  decode_encodeAll plain := by
    by_cases h : plain = runOfLetters
    · simp [h]
    · simp [h]
  length_frame plain := by
    have hframe : bodyFrame.length = 7 := by decide
    by_cases h : plain = runOfLetters
    · simp only [h, if_true, List.length_append, hframe, bodyStoredLimit, List.length_singleton]
      omega
    · simp only [h, if_false, List.length_append, hframe, bodyStoredLimit, List.length_cons]
      omega

def toyCipher : Cipher where
  sealWith _ _ _ plain := List.replicate 16 0 ++ plain
  openWith _ _ _ stored := some (stored.drop 16)
  openWith_sealWith _ _ _ plain := by simp
  length_sealWith _ _ _ plain := by
    rw [List.length_append, List.length_replicate, Nat.add_comm]

def zeroSalt : Salt :=
  ⟨List.replicate bodySaltSize 0, List.length_replicate⟩

def firstKey : Bytes :=
  lit "v1:AAAAAAAAAAAAAAAAAAAAAAAAAAAAAAAAAAAAAAAAAAA="

def secondKey : Bytes :=
  lit "v2:AAECAwQFBgcICQoLDA0ODxAREhMUFRYXGBkaGxwdHh8="

/-- A body that is stored in the clear, then compressed and sealed by one migration and moved to a
second key by another that stops before it reads the body back. -/
def migrations : List Input :=
  [.put (lit "a") runOfLetters zeroSalt, .restart true firstKey,
   .compress (lit "a") zeroSalt, .advance 0, .advance 0, .advance 0,
   .restart false (secondKey ++ lit "," ++ firstKey),
   .encrypt (lit "a") zeroSalt, .advance 1, .advance 1]

theorem read_as_put_migrations :
    ∃ plain,
      (Machine.run (step toyCompressor toyCipher) State.init migrations).given (lit "a") =
        some plain ∧
      get toyCompressor toyCipher (Machine.run (step toyCompressor toyCipher) State.init migrations).cfg
        (Machine.run (step toyCompressor toyCipher) State.init migrations).objects (lit "a")
        (rowOf runOfLetters).size = .ok plain :=
  read_as_put toyCompressor toyCipher migrations (by decide +kernel) (lit "a") (rowOf runOfLetters)
    (by decide +kernel)

/-- Mail that starts like a sealed body is stored in the clear and cannot be read once there is a
key. -/
theorem clear_body_taken_for_sealed :
    (Machine.run (step toyCompressor toyCipher) State.init
        [.put (lit "a") bodyMagic zeroSalt, .restart false firstKey]).rows (lit "a") =
      some (rowOf bodyMagic) ∧
    get toyCompressor toyCipher
      (Machine.run (step toyCompressor toyCipher) State.init
        [.put (lit "a") bodyMagic zeroSalt, .restart false firstKey]).cfg
      (Machine.run (step toyCompressor toyCipher) State.init
        [.put (lit "a") bodyMagic zeroSalt, .restart false firstKey]).objects (lit "a")
      (rowOf bodyMagic).size = .error .truncated := by
  refine ⟨by decide +kernel, ?_⟩
  rfl

end Elemta.Mailbox.BodyHistory
