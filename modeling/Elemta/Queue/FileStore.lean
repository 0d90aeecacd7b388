import Elemta.Foundation.CrashProgram
import Elemta.Queue.Store

/-!
# The file backend

`createMessageIfAbsent` and `DeleteMessageWithTombstone` of the file backend
(`storage.go`), write by write. Body, metadata and tombstone of a message are
separate files, each published by a rename, and the process may die between any
two file operations. The per-id lock keeps other writers out while a call runs,
and the kernel releases it when the process dies, so it is left out here.
-/

namespace Elemta.Queue

open Bytes Crash

/-! ## Files -/

inductive Dir where
  | queue (q : QueueType)
  | data
  | tmp
  deriving DecidableEq

inductive Path where
  | message (q : QueueType) (id : Bytes)
  | body (id : Bytes)
  | tombstone (id : Bytes)
  | temp (dir : Dir) (name : Bytes)
  deriving DecidableEq

structure EnqueueTombstone where
  message : Message
  content : Bytes
  contentHash : Bytes
  deriving DecidableEq

/-- What a file holds. JSON files hold what decoding them gives back. -/
inductive File where
  | message (m : Message)
  | body (content : Bytes)
  | tombstone (t : EnqueueTombstone)
  /-- A temporary file whose copy is not complete. -/
  | unfinished
  deriving DecidableEq

abbrev Files := Disk Path File

namespace FileStore

/-! ## Identity -/

inductive EnqueueError where
  | emptyID
  | longID
  | invalidID
  | consumedConflict
  | metadataConflict
  | contentConflict
  | orphanConflict
  /-- The name chosen for a temporary file was taken. -/
  | tempExists
  deriving DecidableEq

def validateMessageID (id : Bytes) : Option EnqueueError :=
  if id = [] then some .emptyID
  else if id.length > 255 then some .longID
  else if id.any (fun b => b == 47 || b == 92) || contains id (lit "..") || id.any (· == 0) then
    some .invalidID
  else none

def contentHash (content : Bytes) : Bytes :=
  lit "sha256:" ++ Sha256.hex (Sha256.sum256 content)

def matchesContent (t : EnqueueTombstone) (content hash : Bytes) : Bool :=
  if t.contentHash != [] then t.contentHash == hash else t.content == content

def queueOrder : List QueueType :=
  [.active, .deferred, .hold, .failed]

/-- `suppressConsumed` refuses every message with a tombstone, whatever the tombstone says. -/
def suppressConsumed (d : Files) (id : Bytes) : Bool :=
  (d (.tombstone id)).isSome

/-- `Retrieve` from the first of the directories that has the file; `none` for every error. -/
def retrieveFrom (d : Files) (id : Bytes) : List QueueType → Option Message
  | [] => none
  | q :: rest =>
    match d (.message q id) with
    | none => retrieveFrom d id rest
    | some (.message m) =>
      if m.id = id ∧ m.queueType = q then if suppressConsumed d id then none else some m else none
    | some _ => none

def retrieve (d : Files) (id : Bytes) : Option Message :=
  if validateMessageID id = none then retrieveFrom d id queueOrder else none

def storedHash (d : Files) (id : Bytes) : Option Bytes :=
  match d (.body id) with
  | some (.body content) => some (contentHash content)
  | _ => none

/-! ## Enqueue -/

abbrev Answer := Except EnqueueError Bool

def publish (name : Bytes) (dir : Dir) (target : Path) (file : File)
    (next : Prog Files Answer) : Prog Files Answer :=
  (Disk.atomicWrite (.temp dir name) target .unfinished file).bind fun written =>
    if written then next else .done (.error .tempExists)

def storeContent (random : Dir → Bytes) (id content : Bytes)
    (next : Prog Files Answer) : Prog Files Answer :=
  publish (random .data) .data (.body id) (.body content) next

def storeMessage (random : Dir → Bytes) (msg : Message)
    (next : Prog Files Answer) : Prog Files Answer :=
  publish (random (.queue msg.queueType)) (.queue msg.queueType) (.message msg.queueType msg.id)
    (.message msg.persisted) next

/-- `createMessageIfAbsent`; `random` gives the names of its temporary files. -/
def createMessageIfAbsent (random : Dir → Bytes) (msg : Message) (content : Bytes) :
    Prog Files Answer :=
  match validateMessageID msg.id with
  | some invalid => .done (.error invalid)
  | none =>
    .read fun d =>
      match d (.tombstone msg.id) with
      | some (.tombstone t) =>
        if sameEnqueueMessage t.message msg && matchesContent t content (contentHash content) then
          .done (.ok false)
        else .done (.error .consumedConflict)
      | some _ => .done (.error .consumedConflict)
      | none =>
        match retrieve d msg.id, storedHash d msg.id with
        | some e, some hash =>
          if !sameEnqueueMessage e msg then .done (.error .metadataConflict)
          else if hash ≠ contentHash content then .done (.error .contentConflict)
          else .done (.ok false)
        | some e, none =>
          if !sameEnqueueMessage e msg then .done (.error .metadataConflict)
          else storeContent random msg.id content (.done (.ok false))
        | none, some hash =>
          if hash ≠ contentHash content then .done (.error .orphanConflict)
          else storeMessage random msg (.done (.ok true))
        | none, none =>
          storeContent random msg.id content (storeMessage random msg (.done (.ok true)))

/-! ## Consume -/

/-- `Delete`: the file in the first queue that has one; that none has it is not an error here. -/
def deleteMessage (id : Bytes) (next : Prog Files Answer) : Prog Files Answer :=
  .read fun d =>
    match queueOrder.find? fun q => (d (.message q id)).isSome with
    | some q => .write (·.unlink (.message q id)) next
    | none => next

def deleteContent (id : Bytes) (next : Prog Files Answer) : Prog Files Answer :=
  .read fun d =>
    if (d (.body id)).isSome then .write (·.unlink (.body id)) next else next

def newTombstone (retainBody : Bool) (msg : Message) (content : Bytes) : EnqueueTombstone :=
  { message := msg.persisted
    content := if retainBody then content else []
    contentHash := contentHash content }

/-- `DeleteMessageWithTombstone`: tombstone, then metadata, then body. -/
def deleteMessageWithTombstone (random : Dir → Bytes) (retainBody : Bool) (msg : Message)
    (content : Bytes) : Prog Files Answer :=
  publish (random .tmp) .tmp (.tombstone msg.id) (.tombstone (newTombstone retainBody msg content)) <|
    match validateMessageID msg.id with
    | some invalid => .done (.error invalid)
    | none => deleteMessage msg.id (deleteContent msg.id (.done (.ok true)))

/-! ## What the disk holds of one message -/

structure View where
  message : QueueType → Option File
  body : Option File
  tombstone : Option File

def view (d : Files) (id : Bytes) : View :=
  { message := fun q => d (.message q id)
    body := d (.body id)
    tombstone := d (.tombstone id) }

def NoMessage (v : View) : Prop :=
  ∀ q, v.message q = none

structure Absent (v : View) : Prop where
  message : NoMessage v
  body : v.body = none
  tombstone : v.tombstone = none

/-- A body without metadata, which is what a first enqueue leaves when it dies halfway. -/
structure Orphan (v : View) (content : Bytes) : Prop where
  message : NoMessage v
  body : v.body = some (.body content)
  tombstone : v.tombstone = none

structure Complete (v : View) (id : Bytes) (m : Message) (content : Bytes) : Prop where
  own : m.id = id
  message : v.message m.queueType = some (.message m)
  only : ∀ q, q ≠ m.queueType → v.message q = none
  body : v.body = some (.body content)
  tombstone : v.tombstone = none

def AtMostOne (v : View) : Prop :=
  ∀ q q', v.message q ≠ none → v.message q' ≠ none → q = q'

/-- A tombstone, next to what an interrupted consume may have left. -/
structure Buried (v : View) (t : EnqueueTombstone) : Prop where
  tombstone : v.tombstone = some (.tombstone t)
  atMostOne : AtMostOne v

structure Gone (v : View) (t : EnqueueTombstone) : Prop where
  tombstone : v.tombstone = some (.tombstone t)
  message : NoMessage v
  body : v.body = none

inductive Consistent (v : View) (id : Bytes) : Prop where
  | absent (h : Absent v)
  | orphan (content : Bytes) (h : Orphan v content)
  | complete (m : Message) (content : Bytes) (h : Complete v id m content)
  | buried (t : EnqueueTombstone) (h : Buried v t)

section

variable {d : Files} {id content : Bytes} {m : Message}

theorem Complete.atMostOne {v : View} (h : Complete v id m content) : AtMostOne v := by
  intro q q' hq hq'
  have hfirst : q = m.queueType := by
    by_contra hne
    exact hq (h.only q hne)
  have hsecond : q' = m.queueType := by
    by_contra hne
    exact hq' (h.only q' hne)
  rw [hfirst, hsecond]

theorem Consistent.atMostOne {v : View} (h : Consistent v id) : AtMostOne v := by
  cases h with
  | absent h => exact fun q _ hq => absurd (h.message q) hq
  | orphan content h => exact fun q _ hq => absurd (h.message q) hq
  | complete m content h => exact h.atMostOne
  | buried t h => exact h.atMostOne

@[simp] theorem view_put_body (f : File) :
    view (d.put (.body id) f) id = { view d id with body := some f } := by
  simp [view, Disk.put]

@[simp] theorem view_put_tombstone (f : File) :
    view (d.put (.tombstone id) f) id = { view d id with tombstone := some f } := by
  simp [view, Disk.put]

@[simp] theorem view_put_message (q : QueueType) (f : File) :
    view (d.put (.message q id) f) id =
      { view d id with message := Function.update (view d id).message q (some f) } := by
  have hmessage : (fun q' => d.put (.message q id) f (.message q' id)) =
      Function.update (fun q' => d (.message q' id)) q (some f) := by
    funext q'
    by_cases hq : q' = q
    · simp [Disk.put, hq]
    · simp [Disk.put, hq]
  unfold view
  rw [hmessage]
  simp [Disk.put]

@[simp] theorem view_unlink_message (q : QueueType) :
    view (d.unlink (.message q id)) id =
      { view d id with message := Function.update (view d id).message q none } := by
  have hmessage : (fun q' => d.unlink (.message q id) (.message q' id)) =
      Function.update (fun q' => d (.message q' id)) q none := by
    funext q'
    by_cases hq : q' = q
    · simp [Disk.unlink, hq]
    · simp [Disk.unlink, hq]
  unfold view
  rw [hmessage]
  simp [Disk.unlink]

@[simp] theorem view_unlink_body :
    view (d.unlink (.body id)) id = { view d id with body := none } := by
  simp [view, Disk.unlink]

/-! ## Retrieval -/

theorem retrieve_of_tombstone (h : (view d id).tombstone ≠ none) : retrieve d id = none := by
  have hsuppressed : suppressConsumed d id = true := Option.isSome_iff_ne_none.2 h
  have hfrom : ∀ qs, retrieveFrom d id qs = none := by
    intro qs
    induction qs with
    | nil => rfl
    | cons q rest ih =>
      simp only [retrieveFrom, hsuppressed, if_true, ite_self]
      split
      · exact ih
      · rfl
      · rfl
  simp [retrieve, hfrom]

theorem retrieve_of_noMessage (h : NoMessage (view d id)) : retrieve d id = none := by
  have hfrom : ∀ qs, retrieveFrom d id qs = none := by
    intro qs
    induction qs with
    | nil => rfl
    | cons q rest ih =>
      have hq : d (.message q id) = none := h q
      simp only [retrieveFrom, hq, ih]
  simp [retrieve, hfrom]

theorem retrieve_of_only (hid : validateMessageID id = none) (hown : m.id = id)
    (hhere : d (.message m.queueType id) = some (.message m))
    (hother : ∀ q, q ≠ m.queueType → d (.message q id) = none) (htomb : d (.tombstone id) = none) :
    retrieve d id = some m := by
  have hopen : suppressConsumed d id = false := by simp [suppressConsumed, htomb]
  have hfrom : ∀ qs, m.queueType ∈ qs → retrieveFrom d id qs = some m := by
    intro qs hmem
    induction qs with
    | nil => simp at hmem
    | cons q rest ih =>
      by_cases hq : q = m.queueType
      · subst hq
        simp [retrieveFrom, hhere, hown, hopen]
      · simp only [retrieveFrom, hother q hq]
        exact ih ((List.mem_cons.1 hmem).resolve_left (Ne.symm hq))
  have hall : m.queueType ∈ queueOrder := by
    cases m.queueType <;> decide
  simp [retrieve, hid, hfrom queueOrder hall]

theorem retrieve_of_complete (hid : validateMessageID id = none)
    (h : Complete (view d id) id m content) : retrieve d id = some m :=
  retrieve_of_only hid h.own h.message h.only h.tombstone

theorem storedHash_of_body (h : (view d id).body = some (.body content)) :
    storedHash d id = some (contentHash content) := by
  have hbody : d (.body id) = some (.body content) := h
  simp [storedHash, hbody]

theorem storedHash_of_none (h : (view d id).body = none) : storedHash d id = none := by
  have hbody : d (.body id) = none := h
  simp [storedHash, hbody]

end

/-! ## The same messages in both backends -/

structure Represents (d : Files) (s : Store) (id : Bytes) : Prop where
  entry : retrieve d id = s.entries id
  body : ∀ content, s.contents id = some content → d (.body id) = some (.body content)
  tombstone : ∀ t, s.tombstones id = some t →
    d (.tombstone id) = some (.tombstone
      { message := t.message
        content := t.body
        contentHash := if t.digest = [] then [] else lit "sha256:" ++ t.digest })
  noTombstone : s.tombstones id = none → d (.tombstone id) = none

/-- The file backend recognizes the enqueues that the store remembers, and writes nothing. -/
theorem Represents.recognizes {d : Files} {s : Store} (hs : s.WF) {msg : Message}
    {content : Bytes} (hd : Represents d s msg.id) (hid : validateMessageID msg.id = none)
    (hutf : Utf8.valid msg.id = true) (h : s.Remembered msg content) (random : Dir → Bytes) :
    (createMessageIfAbsent random msg content).run d = (.ok false, d) := by
  cases h with
  | live e entry same body =>
    have htomb := hd.noTombstone (hs.no_tombstone entry)
    have hretrieve : retrieve d msg.id = some e := hd.entry.trans entry
    have hhash : storedHash d msg.id = some (contentHash content) := by
      simp [storedHash, hd.body content body]
    -- a record with an id that survives JSON reads the same in both
    have hread : e.persisted = e := by
      have hown : Utf8.toValid e.id = e.id := by
        rw [hs.id_eq entry]
        exact Utf8.toValid_eq_self_iff.2 hutf
      calc
        e.persisted = { e.persisted with id := Utf8.toValid e.id } := rfl
        _ = Store.recorded e := by rw [hown]; rfl
        _ = e := hs.recorded_eq entry
    rw [hread] at same
    simp [createMessageIfAbsent, hid, Prog.run, htomb, hretrieve, hhash, same]
  | consumed t tombstone same body =>
    have htomb := hd.tombstone t tombstone
    have hmatches : matchesContent
        { message := t.message
          content := t.body
          contentHash := if t.digest = [] then [] else lit "sha256:" ++ t.digest } content
        (contentHash content) = true := by
      unfold sameTombstoneContent at body
      by_cases hdigest : t.digest = []
      · simpa [matchesContent, hdigest] using body
      have hsame : t.digest = tombstoneDigest content := by simpa [hdigest] using body
      have hhash : lit "sha256:" ++ t.digest = contentHash content := by
        rw [hsame]
        rfl
      have hsome : contentHash content ≠ [] := by
        simp [contentHash, show lit "sha256:" ≠ [] by decide]
      simp [matchesContent, hdigest, hhash, hsome]
    simp [createMessageIfAbsent, hid, Prog.run, htomb, same, hmatches]

end FileStore

end Elemta.Queue
