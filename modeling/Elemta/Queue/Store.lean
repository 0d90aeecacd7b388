import Elemta.Queue.Outcomes

/-!
# The message store

What a storage backend keeps (`storage_sqlite.go`): at most one metadata record,
one body and one tombstone for each id, changed by whole transactions. An
operation that the backend refuses or that fails returns `none` and changes
nothing.
-/

namespace Elemta.Queue

open Bytes

structure Tombstone where
  message : Message
  body : Bytes
  digest : Bytes
  consumedAt : Time
  deriving DecidableEq

def tombstoneDigest (content : Bytes) : Bytes :=
  Sha256.hex (Sha256.sum256 content)

/-- A tombstone without a digest was written before digests existed. -/
def sameTombstoneContent (t : Tombstone) (content : Bytes) : Bool :=
  if t.digest != [] then t.digest == tombstoneDigest content else t.body == content

def tombstoneRetentionHours : Nat := 24

def nanosPerHour : Nat := 3600 * 1000000000

/-- `before.Before(now - hours)`. -/
def olderThan (hours : Nat) (now before : Time) : Bool :=
  decide (nanosPerHour * hours + before < now)

structure Store where
  entries : Bytes → Option Message
  contents : Bytes → Option Bytes
  tombstones : Bytes → Option Tombstone

namespace Store

def empty : Store :=
  { entries := fun _ => none
    contents := fun _ => none
    tombstones := fun _ => none }

def recorded (msg : Message) : Message :=
  { msg.persisted with id := msg.id }

def putEntry (s : Store) (msg : Message) : Store :=
  { s with entries := Function.update s.entries msg.id (some (recorded msg)) }

def putContent (s : Store) (id content : Bytes) : Store :=
  { s with contents := Function.update s.contents id (some content) }

def dropEntry (s : Store) (id : Bytes) : Store :=
  { s with
    entries := Function.update s.entries id none
    contents := Function.update s.contents id none }

def retrieve (s : Store) (id : Bytes) : Option Message :=
  s.entries id

def retrieveContent (s : Store) (id : Bytes) : Option Bytes :=
  s.contents id

def update (s : Store) (msg : Message) : Option Store :=
  match s.entries msg.id with
  | none => none
  | some _ => some (s.putEntry msg)

def move (s : Store) (id : Bytes) (source target : QueueType) : Option Store :=
  match s.entries id with
  | none => none
  | some m =>
    if m.queueType = source then
      some { s with entries := Function.update s.entries id (some { m with queueType := target }) }
    else none

/-- `CreateMessageIfAbsent`: whether an entry was created, or `none` for a conflict. -/
def createMessageIfAbsent (s : Store) (msg : Message) (content : Bytes) : Option (Bool × Store) :=
  match s.tombstones msg.id with
  | some t =>
    if sameEnqueueMessage t.message msg && sameTombstoneContent t content then
      -- a live half that an interrupted consume left behind goes with it
      some (false, s.dropEntry msg.id)
    else none
  | none =>
    match s.entries msg.id, s.contents msg.id with
    | some e, some old =>
      if sameEnqueueMessage e.persisted msg && old == content then some (false, s) else none
    | some e, none =>
      if sameEnqueueMessage e.persisted msg then some (false, s.putContent msg.id content)
      else none
    | none, some old => if old == content then some (true, s.putEntry msg) else none
    | none, none => some (true, (s.putEntry msg).putContent msg.id content)

def newTombstone (retainBody : Bool) (msg : Message) (content : Bytes) (now : Time) : Tombstone :=
  { message := msg.persisted
    body := if retainBody then content else []
    digest := tombstoneDigest content
    consumedAt := now }

def bury (s : Store) (id : Bytes) (t : Tombstone) : Store :=
  { s.dropEntry id with tombstones := Function.update s.tombstones id (some t) }

/-- `DeleteMessageWithTombstone`; an earlier tombstone is never overwritten. -/
def deleteMessageWithTombstone (retainBody : Bool) (s : Store) (msg : Message)
    (content : Bytes) (now : Time) : Option Store :=
  let tomb := (s.tombstones msg.id).getD (newTombstone retainBody msg content now)
  if sameEnqueueMessage tomb.message msg && sameTombstoneContent tomb content then
    match s.entries msg.id, s.contents msg.id with
    | some live, some liveContent =>
      if sameEnqueueMessage live.persisted msg && liveContent == content then
        some (s.bury msg.id tomb)
      else none
    | _, _ => none
  else none

/-- `Delete` and `DeleteContent`, without a tombstone. -/
def discard (s : Store) (id : Bytes) : Store :=
  s.dropEntry id

/-- `Cleanup`: tombstones by their own age, then every queue's entries by creation time. -/
def cleanup (s : Store) (now : Time) (hours : Nat) : Store :=
  let expired := fun id => (s.entries id).any fun m => olderThan hours now m.createdAt
  { entries := fun id => if expired id then none else s.entries id
    contents := fun id => if expired id then none else s.contents id
    tombstones := fun id =>
      (s.tombstones id).filter fun t => !olderThan tombstoneRetentionHours now t.consumedAt }

theorem tombstoneDigest_ne_nil (content : Bytes) : tombstoneDigest content ≠ [] := by
  intro h
  have hlen : (tombstoneDigest content).length = 64 := by simp [tombstoneDigest]
  simp [h] at hlen

/-! ## Well-formed stores -/

@[simp] theorem recorded_id (m : Message) : (recorded m).id = m.id := rfl

@[simp] theorem recorded_recorded (m : Message) : recorded (recorded m) = recorded m := by
  simp [recorded, Message.persisted, Function.comp_def]

/-- What every reachable store satisfies: a record is filed under its own id and is what a
JSON round trip gives back; an entry has a body and no tombstone. -/
structure WF (s : Store) : Prop where
  id_eq : ∀ {id m}, s.entries id = some m → m.id = id
  recorded_eq : ∀ {id m}, s.entries id = some m → recorded m = m
  no_tombstone : ∀ {id m}, s.entries id = some m → s.tombstones id = none
  has_content : ∀ {id m}, s.entries id = some m → ∃ c, s.contents id = some c

theorem WF.empty : WF Store.empty := by
  constructor <;> intro id m h <;> simp [Store.empty] at h

variable {created : Bool} {id content : Bytes} {msg : Message} {s s' : Store}

theorem WF.putEntry (hs : WF s) (hcontent : ∃ c, s.contents msg.id = some c)
    (htomb : s.tombstones msg.id = none) : WF (s.putEntry msg) := by
  constructor
  all_goals
    intro id m h
    by_cases hid : id = msg.id
    · subst hid
      obtain rfl : recorded msg = m := by simpa [Store.putEntry] using h
      first
        | exact recorded_id msg
        | exact recorded_recorded msg
        | exact htomb
        | exact hcontent
    · have hold : s.entries id = some m := by simpa [Store.putEntry, hid] using h
      first
        | exact hs.id_eq hold
        | exact hs.recorded_eq hold
        | exact hs.no_tombstone hold
        | exact hs.has_content hold

theorem WF.update (hs : WF s) (h : s.update msg = some s') : WF s' := by
  unfold Store.update at h
  cases hentry : s.entries msg.id with
  | none => simp [hentry] at h
  | some m =>
    have hput : s.putEntry msg = s' := by simpa [hentry] using h
    exact hput ▸ hs.putEntry (hs.has_content hentry) (hs.no_tombstone hentry)

theorem WF.move (hs : WF s) {source target : QueueType} (h : s.move id source target = some s') :
    WF s' := by
  unfold Store.move at h
  cases hentry : s.entries id with
  | none => simp [hentry] at h
  | some m =>
    simp only [hentry] at h
    split at h
    · have heq := Option.some.inj h
      have hput : s' = s.putEntry { m with queueType := target } := by
        have hrec : recorded { m with queueType := target } = { m with queueType := target } := by
          have hm := hs.recorded_eq hentry
          calc
            recorded { m with queueType := target }
                = { recorded m with queueType := target } := rfl
            _ = { m with queueType := target } := by rw [hm]
        rw [← heq, Store.putEntry, hrec, hs.id_eq hentry]
      rw [hput]
      have hid : m.id = id := hs.id_eq hentry
      exact hs.putEntry (by simpa [hid] using hs.has_content hentry)
        (by simpa [hid] using hs.no_tombstone hentry)
    · simp at h

theorem WF.dropEntry (hs : WF s) (id : Bytes) : WF (s.dropEntry id) := by
  have hold : ∀ {other m}, (s.dropEntry id).entries other = some m →
      other ≠ id ∧ s.entries other = some m := by
    intro other m h
    by_cases hid : other = id
    · simp [Store.dropEntry, hid] at h
    · exact ⟨hid, by simpa [Store.dropEntry, hid] using h⟩
  constructor
  · intro other m h
    exact hs.id_eq (hold h).2
  · intro other m h
    exact hs.recorded_eq (hold h).2
  · intro other m h
    exact hs.no_tombstone (hold h).2
  · intro other m h
    obtain ⟨hne, hentry⟩ := hold h
    simpa [Store.dropEntry, hne] using hs.has_content hentry

theorem WF.entry_of_tombstone {t : Tombstone} (hs : WF s) (h : s.tombstones id = some t) :
    s.entries id = none := by
  cases hentry : s.entries id with
  | none => rfl
  | some m =>
    rw [hs.no_tombstone hentry] at h
    cases h

inductive Creates (s : Store) (msg : Message) (content : Bytes) : Bool → Store → Prop where
  | consumed (t : Tombstone) (tombstone : s.tombstones msg.id = some t)
    (same : sameEnqueueMessage t.message msg = true)
    (body : sameTombstoneContent t content = true) :
    Creates s msg content false (s.dropEntry msg.id)
  | known (e : Message) (entry : s.entries msg.id = some e)
    (same : sameEnqueueMessage e.persisted msg = true) (body : s.contents msg.id = some content) :
    Creates s msg content false s
  | refilled (e : Message) (entry : s.entries msg.id = some e) (body : s.contents msg.id = none) :
    Creates s msg content false (s.putContent msg.id content)
  | created (tombstone : s.tombstones msg.id = none) (entry : s.entries msg.id = none) :
    Creates s msg content true ((s.putEntry msg).putContent msg.id content)

theorem creates_of_createMessageIfAbsent
    (h : s.createMessageIfAbsent msg content = some (created, s')) :
    s.Creates msg content created s' := by
  revert h
  fun_cases createMessageIfAbsent s msg content with
  | case1 t htomb hsame =>
    rintro ⟨⟩
    obtain ⟨hmessage, hbody⟩ := Bool.and_eq_true_iff.1 hsame
    exact .consumed t htomb hmessage hbody
  | case3 _ e old hcontent hentry hsame =>
    rintro ⟨⟩
    obtain ⟨hmessage, hbody⟩ := Bool.and_eq_true_iff.1 hsame
    exact .known e hentry hmessage (by rw [hcontent, eq_of_beq hbody])
  | case5 _ e hcontent hentry =>
    rintro ⟨⟩
    exact .refilled e hentry hcontent
  | case7 htomb old hcontent hentry hsame =>
    rintro ⟨⟩
    -- the orphan body is the one that would have been written
    have hkeep : s.putEntry msg = (s.putEntry msg).putContent msg.id content := by
      rw [← eq_of_beq hsame, putContent, Function.update_eq_self_iff.2 hcontent.symm]
    rw [hkeep]
    exact .created htomb hentry
  | case9 htomb _ hentry =>
    rintro ⟨⟩
    exact .created htomb hentry
  | _ => nofun

theorem entries_of_createMessageIfAbsent (hs : WF s)
    (h : s.createMessageIfAbsent msg content = some (created, s')) :
    s'.entries =
      if created then Function.update s.entries msg.id (some (recorded msg)) else s.entries := by
  cases creates_of_createMessageIfAbsent h with
  | consumed t tombstone =>
    -- an id with a tombstone has no entry to drop
    exact Function.update_eq_self_iff.2 (hs.entry_of_tombstone tombstone).symm
  | known | refilled | created => rfl

structure Unused (s : Store) (id : Bytes) : Prop where
  entry : s.entries id = none
  content : s.contents id = none
  tombstone : s.tombstones id = none

theorem Unused.createMessageIfAbsent (h : s.Unused msg.id) (content : Bytes) :
    s.createMessageIfAbsent msg content = some (true, (s.putEntry msg).putContent msg.id content) := by
  simp [Store.createMessageIfAbsent, h.entry, h.content, h.tombstone]

theorem Unused.of_createMessageIfAbsent (h : s.Unused id) (hne : id ≠ msg.id)
    (hcreate : s.createMessageIfAbsent msg content = some (created, s')) : s'.Unused id := by
  cases creates_of_createMessageIfAbsent hcreate with
  | consumed =>
    exact ⟨by simp [dropEntry, hne, h.entry], by simp [dropEntry, hne, h.content],
      h.tombstone⟩
  | known => exact h
  | refilled => exact ⟨h.entry, by simp [putContent, hne, h.content], h.tombstone⟩
  | created =>
    exact ⟨by simp [putContent, putEntry, hne, h.entry],
      by simp [putContent, putEntry, hne, h.content], h.tombstone⟩

theorem WF.putContent (hs : WF s) (id content : Bytes) : WF (s.putContent id content) := by
  refine ⟨hs.id_eq, hs.recorded_eq, hs.no_tombstone, ?_⟩
  intro other m h
  by_cases hid : other = id
  · exact ⟨content, by simp [Store.putContent, hid]⟩
  · simpa [Store.putContent, hid] using hs.has_content h

theorem WF.createMessageIfAbsent (hs : WF s)
    (h : s.createMessageIfAbsent msg content = some (created, s')) : WF s' := by
  cases creates_of_createMessageIfAbsent h with
  | consumed => exact hs.dropEntry msg.id
  | known => exact hs
  | refilled => exact hs.putContent msg.id content
  | created tombstone =>
    exact (hs.putContent msg.id content).putEntry ⟨content, by simp [Store.putContent]⟩ tombstone

/-- What an accepted consume has done: a tombstone stands for the entry. -/
theorem deleteMessageWithTombstone_cases {retain : Bool} {now : Time}
    (h : s.deleteMessageWithTombstone retain msg content now = some s') :
    s' = s.bury msg.id ((s.tombstones msg.id).getD (newTombstone retain msg content now)) := by
  revert h
  fun_cases deleteMessageWithTombstone retain s msg content now with
  | case1 => exact fun h => (Option.some.inj h).symm
  | _ => nofun

theorem WF.bury (hs : WF s) (id : Bytes) (t : Tombstone) : WF (s.bury id t) := by
  have hdrop := hs.dropEntry id
  refine ⟨hdrop.id_eq, hdrop.recorded_eq, ?_, hdrop.has_content⟩
  intro other m hm
  have hne : other ≠ id := by
    rintro rfl
    simp [Store.bury, Store.dropEntry] at hm
  have htomb : s.tombstones other = none := hdrop.no_tombstone hm
  simpa [Store.bury, hne] using htomb

theorem cleanup_entries (now : Time) (hours : Nat) :
    (s.cleanup now hours).entries id =
      (s.entries id).filter fun m => !olderThan hours now m.createdAt := by
  cases hentry : s.entries id with
  | none => simp [cleanup, hentry]
  | some m =>
    by_cases hold : olderThan hours now m.createdAt = true
    · simp [cleanup, hentry, hold, Option.filter]
    · simp [cleanup, hentry, hold, Option.filter]

theorem cleanup_entries_eq_or (s : Store) (now : Time) (hours : Nat) (id : Bytes) :
    (s.cleanup now hours).entries id = s.entries id ∨ (s.cleanup now hours).entries id = none := by
  rw [cleanup_entries]
  cases s.entries id with
  | none => exact .inl rfl
  | some m =>
    by_cases hold : olderThan hours now m.createdAt = true
    · exact .inr (by simp [hold, Option.filter])
    · exact .inl (by simp [hold, Option.filter])

theorem olderThan_of_cleanup {now : Time} {hours : Nat} {m : Message}
    (hentry : s.entries id = some m) (hgone : (s.cleanup now hours).entries id = none) :
    olderThan hours now m.createdAt = true := by
  rw [cleanup_entries, hentry] at hgone
  by_contra hyoung
  simp [hyoung, Option.filter] at hgone

theorem WF.cleanup (hs : WF s) (now : Time) (hours : Nat) : WF (s.cleanup now hours) := by
  have hold : ∀ {id m}, (s.cleanup now hours).entries id = some m →
      (s.entries id).any (fun m => olderThan hours now m.createdAt) = false ∧
        s.entries id = some m := by
    intro id m h
    by_cases hexp : (s.entries id).any (fun m => olderThan hours now m.createdAt) = true
    · simp [Store.cleanup, hexp] at h
    · exact ⟨by simpa using hexp, by simpa [Store.cleanup, hexp] using h⟩
  constructor
  · intro id m h
    exact hs.id_eq (hold h).2
  · intro id m h
    exact hs.recorded_eq (hold h).2
  · intro id m h
    simp [Store.cleanup, hs.no_tombstone (hold h).2]
  · intro id m h
    obtain ⟨hexp, hentry⟩ := hold h
    obtain ⟨c, hc⟩ := hs.has_content hentry
    exact ⟨c, by simp [Store.cleanup, hexp, hc]⟩

/-! ## Remembered enqueues -/

/-- The store knows the enqueue of `msg` with this content: it still holds the entry that it made,
or a tombstone stands for it. -/
inductive Remembered (s : Store) (msg : Message) (content : Bytes) : Prop where
  | live (e : Message) (entry : s.entries msg.id = some e)
      (same : sameEnqueueMessage e.persisted msg = true)
      (body : s.contents msg.id = some content)
  | consumed (t : Tombstone) (tombstone : s.tombstones msg.id = some t)
      (same : sameEnqueueMessage t.message msg = true)
      (body : sameTombstoneContent t content = true)

theorem Remembered.congr (h : s.Remembered msg content)
    (hentries : s'.entries msg.id = s.entries msg.id)
    (hcontents : s'.contents msg.id = s.contents msg.id)
    (htombstones : s'.tombstones msg.id = s.tombstones msg.id) : s'.Remembered msg content := by
  cases h with
  | live e entry same body => exact .live e (hentries.trans entry) same (hcontents.trans body)
  | consumed t tombstone same body => exact .consumed t (htombstones.trans tombstone) same body

theorem Remembered.createMessageIfAbsent (hs : WF s) (h : s.Remembered msg content) :
    ∃ s', s.createMessageIfAbsent msg content = some (false, s') ∧ s'.entries = s.entries := by
  cases h with
  | live e entry same body =>
    simp [Store.createMessageIfAbsent, hs.no_tombstone entry, entry, body, same]
  | consumed t tombstone same body =>
    refine ⟨s.dropEntry msg.id, ?_, ?_⟩
    · simp [Store.createMessageIfAbsent, tombstone, same, body]
    · exact Function.update_eq_self_iff.2 (hs.entry_of_tombstone tombstone).symm

/-- What an accepted enqueue is remembered by, when its identity survives the JSON round trip. -/
theorem Remembered.of_created (hs : WF s) (hstable : sameEnqueueMessage msg.persisted msg = true)
    (h : s.createMessageIfAbsent msg content = some (created, s')) : s'.Remembered msg content := by
  have hrecorded : (recorded msg).persisted = msg.persisted := by
    simp [recorded, Message.persisted, Function.comp_def]
  cases creates_of_createMessageIfAbsent h with
  | consumed t tombstone same body => exact .consumed t tombstone same body
  | known e entry same body => exact .live e entry same body
  | refilled e entry body =>
    obtain ⟨old, hold⟩ := hs.has_content entry
    rw [hold] at body
    cases body
  | created =>
    exact .live (recorded msg) (by simp [putContent, putEntry])
      (by rw [hrecorded]; exact hstable) (by simp [putContent])

theorem Remembered.enqueue {s s' : Store} {msg other : Message} {content body : Bytes}
    (hs : WF s) (h : s.Remembered msg content)
    (hcreate : s.createMessageIfAbsent other body = some (created, s')) :
    s'.Remembered msg content := by
  by_cases hid : msg.id = other.id
  · -- the id is taken, so the store is left as it is up to what a tombstone replaces
    cases creates_of_createMessageIfAbsent hcreate with
    | consumed t htomb =>
      cases h with
      | live e entry same kept =>
        rw [hid, hs.entry_of_tombstone htomb] at entry
        cases entry
      | consumed t tombstone same kept => exact .consumed t tombstone same kept
    | known => exact h
    | refilled e entry body =>
      obtain ⟨c, hc⟩ := hs.has_content entry
      rw [hc] at body
      cases body
    | created htomb hentry =>
      cases h with
      | live e entry same kept =>
        rw [hid, hentry] at entry
        cases entry
      | consumed t tombstone same kept =>
        rw [hid, htomb] at tombstone
        cases tombstone
  · refine h.congr ?_ ?_ ?_ <;>
      cases creates_of_createMessageIfAbsent hcreate <;>
      simp [dropEntry, putContent, putEntry, hid]

/-- A consume passes what is remembered on to the tombstone. -/
theorem Remembered.consume {retain : Bool} {s s' : Store} {m msg : Message} {content body : Bytes}
    {now : Time} (hs : WF s) (h : s.Remembered msg content) (hid : m.id = msg.id)
    (hentry : s.entries m.id = some m) (hbody : s.contents m.id = some body)
    (hdelete : s.deleteMessageWithTombstone retain m body now = some s') :
    s'.Remembered msg content := by
  have hbury := deleteMessageWithTombstone_cases hdelete
  rw [hs.no_tombstone hentry] at hbury
  have htomb : s'.tombstones msg.id = some (newTombstone retain m body now) := by
    rw [hbury, ← hid]
    simp [bury]
  cases h with
  | consumed t tombstone same kept =>
    rw [← hid, hs.no_tombstone hentry] at tombstone
    cases tombstone
  | live e entry same kept =>
    obtain rfl : m = e := Option.some.inj (hentry.symm.trans (hid ▸ entry))
    obtain rfl : body = content := Option.some.inj (hbody.symm.trans (hid ▸ kept))
    refine .consumed _ htomb same ?_
    simp [sameTombstoneContent, newTombstone, tombstoneDigest_ne_nil]

end Store

end Elemta.Queue
