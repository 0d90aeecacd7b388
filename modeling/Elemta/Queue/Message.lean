import Elemta.Foundation.Utf8
import Elemta.Foundation.Sha256
import Mathlib.Data.List.Nodup

/-!
# Queue messages

The metadata record of a queued message (`manager.go`, `processor.go`) and what
the storage backends do with it: the JSON round trip every stored record makes,
the identity a repeated enqueue is compared by, and the ids of the recipient
occurrences.

Two annotations hold JSON of their own, the occurrence ids of a reduced envelope
and the record of a DSN handoff. They are fields here, so that a reader of the
record sees what a reader of the annotation decodes.
-/

namespace Elemta.Queue

open Bytes

/-- Nanoseconds since the zero time, which is what `IsZero` recognises. -/
abbrev Time := Nat

inductive QueueType where
  | active
  | deferred
  | hold
  | failed
  deriving DecidableEq

def QueueType.live : QueueType → Bool
  | .active => true
  | .deferred => true
  | .hold => true
  | .failed => false

inductive Priority where
  | low
  | normal
  | high
  | critical
  deriving DecidableEq

structure Attempt where
  time : Time
  result : Bytes
  error : Bytes
  deriving DecidableEq

structure DsnRecipient where
  occurrence : Bytes
  address : Bytes
  diagnostic : Bytes
  deriving DecidableEq

inductive HandoffState where
  | pending
  | complete
  | unknown (state : Bytes)
  deriving DecidableEq

/-- The durable record of permanent failures on their way into a DSN. -/
structure DsnHandoff where
  id : Bytes
  state : HandoffState
  permanent : List DsnRecipient
  temporary : List DsnRecipient
  delivered : List DsnRecipient
  deriving DecidableEq

inductive HandoffNote where
  | absent
  | malformed
  | recorded (h : DsnHandoff)
  deriving DecidableEq

structure Message where
  id : Bytes
  queueType : QueueType
  mailFrom : Bytes
  rcptTo : List Bytes
  domain : Bytes
  subject : Bytes
  size : Nat
  priority : Priority
  receivedAt : Time
  createdAt : Time
  updatedAt : Time
  nextRetry : Time
  retryCount : Nat
  lastError : Bytes
  holdReason : Bytes
  attempts : List Attempt
  annotations : List (Bytes × Bytes)
  /-- Decoded `recipient_occurrences_v1`; empty when absent or malformed. -/
  occurrenceIds : List Bytes
  /-- Decoded `recipient_dsn_handoff_v2`. -/
  handoff : HandoffNote
  deriving DecidableEq

/-! ## The JSON round trip -/

def DsnRecipient.persisted (r : DsnRecipient) : DsnRecipient :=
  { occurrence := Utf8.toValid r.occurrence
    address := Utf8.toValid r.address
    diagnostic := Utf8.toValid r.diagnostic }

def HandoffState.persisted : HandoffState → HandoffState
  | .unknown s => .unknown (Utf8.toValid s)
  | s => s

def DsnHandoff.persisted (h : DsnHandoff) : DsnHandoff :=
  { id := Utf8.toValid h.id
    state := h.state.persisted
    permanent := h.permanent.map DsnRecipient.persisted
    temporary := h.temporary.map DsnRecipient.persisted
    delivered := h.delivered.map DsnRecipient.persisted }

def HandoffNote.persisted : HandoffNote → HandoffNote
  | .recorded h => .recorded h.persisted
  | note => note

/-- The record that is read back after `json.Marshal` wrote it: strings come back as UTF-8. -/
def Message.persisted (m : Message) : Message :=
  { m with
    id := Utf8.toValid m.id
    mailFrom := Utf8.toValid m.mailFrom
    rcptTo := m.rcptTo.map Utf8.toValid
    domain := Utf8.toValid m.domain
    subject := Utf8.toValid m.subject
    lastError := Utf8.toValid m.lastError
    holdReason := Utf8.toValid m.holdReason
    attempts := m.attempts.map fun a =>
      { a with result := Utf8.toValid a.result, error := Utf8.toValid a.error }
    annotations := m.annotations.map fun kv => (Utf8.toValid kv.1, Utf8.toValid kv.2)
    occurrenceIds := m.occurrenceIds.map Utf8.toValid
    handoff := m.handoff.persisted }

@[simp] theorem DsnRecipient.persisted_persisted (r : DsnRecipient) :
    r.persisted.persisted = r.persisted := by
  simp [DsnRecipient.persisted]

@[simp] theorem DsnHandoff.persisted_persisted (h : DsnHandoff) :
    h.persisted.persisted = h.persisted := by
  have hstate : h.state.persisted.persisted = h.state.persisted := by
    cases h.state <;> simp [HandoffState.persisted]
  simp [DsnHandoff.persisted, hstate, Function.comp_def]

@[simp] theorem HandoffNote.persisted_persisted (n : HandoffNote) :
    n.persisted.persisted = n.persisted := by
  cases n <;> simp [HandoffNote.persisted]

@[simp] theorem Message.persisted_persisted (m : Message) :
    m.persisted.persisted = m.persisted := by
  simp [Message.persisted, Function.comp_def]

/-! ## Identity of an enqueue -/

/-- The immutable caller-supplied fields that a repeated enqueue is compared by. -/
def sameEnqueueMessage (a b : Message) : Bool :=
  a.id == b.id && a.mailFrom == b.mailFrom && a.domain == b.domain && a.subject == b.subject &&
    a.size == b.size && a.priority == b.priority && a.receivedAt == b.receivedAt && a.rcptTo == b.rcptTo

theorem sameEnqueueMessage_iff {a b : Message} :
    sameEnqueueMessage a b = true ↔
      a.id = b.id ∧ a.mailFrom = b.mailFrom ∧ a.domain = b.domain ∧ a.subject = b.subject ∧
        a.size = b.size ∧ a.priority = b.priority ∧ a.receivedAt = b.receivedAt ∧
        a.rcptTo = b.rcptTo := by
  simp [sameEnqueueMessage, and_assoc]

def extractDomain (addr : Bytes) : Bytes :=
  match addr.reverse.takeWhile (· != 64) with
  | [] => []
  | rest => if rest.length = addr.length then [] else toLower rest.reverse

def newEnqueueMessage (id mailFrom : Bytes) (rcptTo : List Bytes) (subject : Bytes)
    (size : Nat) (priority : Priority) (receivedAt now : Time) : Message :=
  { id := id
    queueType := .active
    mailFrom := mailFrom
    rcptTo := rcptTo
    domain := match rcptTo with
      | [] => []
      | first :: _ => extractDomain first
    subject := subject
    size := size
    priority := priority
    receivedAt := receivedAt
    createdAt := now
    updatedAt := now
    nextRetry := 0
    retryCount := 0
    lastError := []
    holdReason := []
    attempts := []
    annotations := []
    occurrenceIds := []
    handoff := .absent }

structure EnqueueCall where
  id : Bytes
  mailFrom : Bytes
  rcptTo : List Bytes
  subject : Bytes
  content : Bytes
  priority : Priority
  receivedAt : Time
  deriving DecidableEq

def EnqueueCall.message (call : EnqueueCall) (now : Time) : Message :=
  newEnqueueMessage call.id call.mailFrom call.rcptTo call.subject call.content.length
    call.priority call.receivedAt now

def EnqueueCall.Stable (call : EnqueueCall) : Prop :=
  sameEnqueueMessage (call.message 0).persisted (call.message 0) = true

/-! ## Recipient occurrences -/

/-- `<message id>:<index>`, the id of an occurrence of an unreduced envelope. -/
def occurrenceId (id : Bytes) (i : Nat) : Bytes :=
  id ++ lit ":" ++ itoa i

def recipientOccurrences (m : Message) : List Bytes :=
  if m.occurrenceIds.length = m.rcptTo.length then m.occurrenceIds
  else (List.range m.rcptTo.length).map (occurrenceId m.id)

@[simp] theorem length_recipientOccurrences (m : Message) :
    (recipientOccurrences m).length = m.rcptTo.length := by
  unfold recipientOccurrences
  split <;> simp_all

/-! ## The envelope -/

/-- The part of a record that only a partial delivery changes: what was enqueued, and who is
still to be served. -/
structure Envelope where
  id : Bytes
  mailFrom : Bytes
  rcptTo : List Bytes
  domain : Bytes
  subject : Bytes
  size : Nat
  priority : Priority
  receivedAt : Time
  createdAt : Time
  occurrenceIds : List Bytes
  handoff : HandoffNote
  deriving DecidableEq

def Message.envelope (m : Message) : Envelope :=
  { id := m.id
    mailFrom := m.mailFrom
    rcptTo := m.rcptTo
    domain := m.domain
    subject := m.subject
    size := m.size
    priority := m.priority
    receivedAt := m.receivedAt
    createdAt := m.createdAt
    occurrenceIds := m.occurrenceIds
    handoff := m.handoff }

/-- The occurrences of an envelope, as they read after a JSON round trip. -/
def Message.occurrences (m : Message) : List Bytes :=
  (recipientOccurrences m).map Utf8.toValid

variable {m : Message}

theorem occurrences_congr {m' : Message} (h : m.envelope = m'.envelope) :
    m.occurrences = m'.occurrences := by
  obtain ⟨hid, -, hto, -, -, -, -, -, -, hids, -⟩ := Envelope.mk.inj h
  simp [Message.occurrences, recipientOccurrences, hid, hto, hids]

theorem toValid_occurrenceId (id : Bytes) (i : Nat) :
    Utf8.toValid (occurrenceId id i) = Utf8.toValid id ++ 58 :: itoa i := by
  have hcolon : occurrenceId id i = id ++ 58 :: itoa i := by
    simp [occurrenceId, show lit ":" = [58] by decide]
  have hascii : ∀ b ∈ (58 : UInt8) :: itoa i, b ≤ 0x7F := by
    intro b hb
    rcases List.mem_cons.1 hb with rfl | hb
    · decide
    · exact UInt8.le_trans (le_of_mem_itoa hb) (by decide)
  rw [hcolon, Utf8.toValid_append_ascii (by decide), Utf8.toValid_of_ascii hascii]

theorem nodup_occurrences_of_nil (h : m.occurrenceIds = []) : m.occurrences.Nodup := by
  have hinj : Function.Injective fun i => Utf8.toValid (occurrenceId m.id i) := by
    intro i j hij
    simp only [toValid_occurrenceId, List.append_cancel_left_eq, List.cons.injEq,
      true_and] at hij
    exact itoa_injective hij
  by_cases hto : m.rcptTo = []
  · simp [Message.occurrences, recipientOccurrences, h, hto]
  have hlen : ([] : List Bytes).length ≠ m.rcptTo.length := by
    simpa [eq_comm] using hto
  simp only [Message.occurrences, recipientOccurrences, h, if_neg hlen, List.map_map]
  exact List.nodup_range.map hinj

end Elemta.Queue
