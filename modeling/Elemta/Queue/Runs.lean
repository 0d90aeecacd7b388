import Elemta.Foundation.Machine
import Elemta.Queue.Processor

/-!
# Runs of the queue

The queue as a machine: everything that changes it from outside is an input, and
a run is a list of inputs. Attempts, retries and cleanup ticks come from the
processor's timers, enqueues and annotations from SMTP sessions, and holds,
requeues, deletions and flushes from an operator. A restart changes nothing that is stored.
-/

namespace Elemta.Queue

open Bytes

inductive Input where
  | enqueue (id mailFrom : Bytes) (rcptTo : List Bytes) (subject content : Bytes)
      (priority : Priority) (receivedAt now : Time)
  /-- A DSN, REQUIRETLS or DKIM annotation of an accepted message. -/
  | annotate (id key value : Bytes) (ok : Call → Bool) (now : Time)
  | attempt (id : Bytes) (env : Env)
  | retryDue (id : Bytes) (ok : Call → Bool) (now : Time)
  | cleanup (now : Time)
  | hold (id reason : Bytes) (ok : Call → Bool) (now : Time)
  | requeue (id reason stamp : Bytes) (ok : Call → Bool) (now : Time)
  | delete (id : Bytes) (ok : Call → Bool) (now : Time)
  | flush (listed : List Bytes)

/-- The age the SMTP server configures for `processCleanup`. -/
def cleanupAgeHours : Nat := 24

/-- An attempt starts from a claim of an active entry. -/
def claim (w : World) (id : Bytes) : Option Message :=
  match w.store.retrieve id with
  | some msg => if msg.queueType = .active then some msg else none
  | none => none

/-- The test of `processDeferredMessages`. -/
def retryIsDue (now : Time) (msg : Message) : Bool :=
  msg.queueType == .deferred && msg.nextRetry != 0 && decide (msg.nextRetry < now)

def removalFacts (w : World) (after : Store) (ids : List Bytes) : List Fact :=
  (ids.filter fun id => (w.store.entries id).isSome && (after.entries id).isNone).map fun id =>
    .removed (w.serial id)

def step (cfg : Config) (w : World) : Input → World
  | .enqueue id mailFrom rcptTo subject content priority receivedAt now =>
    if trimSpace id = [] then w
    else
      (w.enqueue
        (newEnqueueMessage id mailFrom rcptTo subject content.length priority receivedAt now)
        content).getD w
  | .annotate id key value ok now =>
    { w with store := Manager.setAnnotationAt ok now w.store id key value }
  | .attempt id env =>
    match claim w id with
    | some msg => processMessage cfg env w msg
    | none => w
  | .retryDue id ok now =>
    if (w.store.retrieve id).any (retryIsDue now) then
      { w with
        store :=
          Manager.moveMessage cfg.manager ok now 0 w.store id .active (lit "Retry time reached") }
    else w
  | .cleanup now => { w with store := w.store.cleanup now cleanupAgeHours }
  | .hold id reason ok now =>
    let reason := if trimSpace reason = [] then lit "held by operator" else reason
    { w with store := Manager.moveMessage cfg.manager ok now 0 w.store id .hold reason }
  | .requeue id reason stamp ok now =>
    { w with store := Manager.requeueMessage ok now stamp w.store id reason }
  | .delete id ok now =>
    let store := Manager.deleteMessage cfg.manager ok now w.store id
    { w.record (removalFacts w store [id]) with store := store }
  | .flush listed =>
    let store := Manager.flushQueue w.store listed
    { w.record (removalFacts w store listed) with store := store }

/-- The configuration that the SMTP server builds from its default settings. -/
def Config.server (hostname : Bytes) : Config :=
  { manager :=
      { failedQueueRetentionHours := 0
        retrySchedule := [60, 300, 900, 3600, 10800, 21600, 43200]
        retainTombstoneBody := true }
    maxRetries := 10
    engine :=
      { host := { hostname := hostname, zone := fun _ => 0 }
        srs := none } }

/-- An attempt whose storage calls all succeed and whose clock stands still. -/
def Env.reliable (now : Time) (freshID : Bytes)
    (deliver : Message → Bytes → Option DeliveryResult × Option GoError) : Env :=
  { ok := fun _ _ => true
    now := fun _ => now
    deliver := deliver
    freshID := freshID
    readError := []
    jitter := 0 }

def answerAll (status : DeliveryStatus) (diagnostic : Bytes) (err : Option GoError)
    (msg : Message) (_content : Bytes) : Option DeliveryResult × Option GoError :=
  (some
    { success := err.isNone
      error := err
      recipientOutcomes := msg.rcptTo.map fun r =>
        { recipient := r
          status := status
          enhancedStatusCode := []
          diagnostic := diagnostic
          route := [] }
      deliveryMethod := lit "smtp" }, err)

def World.initial : World :=
  { store := .empty
    serial := fun _ => 0
    next := 0
    ledger := [] }

end Elemta.Queue
