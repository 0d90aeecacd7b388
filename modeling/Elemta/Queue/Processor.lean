import Elemta.Bounce.Engine
import Elemta.Queue.Manager

/-!
# The queue processor

One delivery attempt of `processor.go`, from the claimed message to the store it
leaves behind. Everything the attempt does not decide itself is in its
`Env`: the delivery handler's answer, the clock, the fresh id of a bounce, and
which storage calls succeed at which point of the code.

Beside the store the state carries a ledger that the code does not have. Every
created entry gets a serial number, so that an id that is used again names a new
message, and the ledger records by serial and occurrence what became of each
recipient. Occurrences go into it as they read after a JSON round trip.
-/

namespace Elemta.Queue

open Bytes Bounce

/-- What can happen to a recipient occurrence, and the operator's removal of a message. -/
inductive Fact where
  | accepted (id : Bytes) (serial : Nat) (occurrence : Bytes)
  | delivered (serial : Nat) (occurrence : Bytes)
  /-- Failed for good: refused, or given up with the whole message. -/
  | failed (serial : Nat) (occurrence : Bytes)
  /-- Failed for good, and nobody is to be told: null sender or NOTIFY. -/
  | exempt (serial : Nat) (occurrence : Bytes)
  /-- Failed for good, and the sender is an address that bounces come from. -/
  | unanswered (serial : Nat) (occurrence : Bytes)
  /-- Named as failed in the DSN with this id. -/
  | bounced (serial : Nat) (occurrence dsn : Bytes)
  | removed (serial : Nat)
  deriving DecidableEq

structure World where
  store : Store
  serial : Bytes → Nat
  next : Nat
  ledger : List Fact

inductive Site where
  | content
  | stillQueued
  | intent
  | handoff
  | complete
  | partialAttempt
  | finalize
  | reduce
  | deliveredAttempt
  | failedAttempt
  | giveUpBounce
  | giveUp
  | defer
  | quarantine
  deriving DecidableEq

structure Env where
  ok : Site → Call → Bool
  now : Site → Time
  deliver : Message → Bytes → Option DeliveryResult × Option GoError
  freshID : Bytes
  readError : Bytes
  jitter : Int

structure Config where
  manager : ManagerConfig
  maxRetries : Int
  engine : Engine

namespace World

def record (w : World) (facts : List Fact) : World :=
  { w with ledger := w.ledger ++ facts }

/-- `createMessageIfAbsent` with the bookkeeping of a new message. -/
def enqueue (w : World) (msg : Message) (content : Bytes) : Option World :=
  match w.store.createMessageIfAbsent msg content with
  | none => none
  | some (false, store) => some { w with store := store }
  | some (true, store) =>
    some
      { store := store
        serial := Function.update w.serial msg.id w.next
        next := w.next + 1
        ledger := w.ledger ++ msg.occurrences.map (.accepted msg.id w.next) }

end World

/-! ## Recipients of an envelope -/

def envelopeRecipients (msg : Message) : List DsnRecipient :=
  (recipientOccurrences msg).zipWith
    (fun occurrence address =>
      { occurrence := occurrence, address := address, diagnostic := [] })
    msg.rcptTo

/-- Nobody is told of this recipient's failure: null sender, or NOTIFY without FAILURE. -/
def exemptFromDsn (mailFrom : Bytes) (annotations : Annotations) (r : DsnRecipient) : Bool :=
  isNullSender mailFrom || notifyNeverForOccurrence annotations r ||
    !wantsFailureNotice annotations r.address

def failureFacts (host : Host) (serial : Nat) (msg : Message) (rs : List DsnRecipient) :
    List Fact :=
  rs.map (fun r => .failed serial (Utf8.toValid r.occurrence)) ++
    ((rs.filter (exemptFromDsn msg.mailFrom msg.annotations)).map fun r =>
      .exempt serial (Utf8.toValid r.occurrence)) ++
    if isBounceIdentity host (trimSpace msg.mailFrom) then
      rs.map fun r => .unanswered serial (Utf8.toValid r.occurrence)
    else []

def bounceFacts (serial : Nat) (req : Request) (rs : List DsnRecipient) : List Fact :=
  (rs.filter fun r => req.reported.contains r.address).map fun r =>
    .bounced serial (Utf8.toValid r.occurrence) req.id

/-! ## Bounces -/

inductive BounceResult where
  | skipped
  | generated
  | failed
  deriving DecidableEq

variable (cfg : Config) (env : Env)

def generateBounce (site : Site) (w : World) (msg : Message)
    (rs : List DsnRecipient) (reason : Bytes) (handoffID : Option Bytes) :
    BounceResult × World :=
  let w := w.record (failureFacts cfg.engine.host (w.serial msg.id) msg rs)
  let original := (Manager.getMessageContent (env.ok site) w.store msg.id).getD []
  match bounceRequest cfg.engine original msg reason handoffID env.freshID (env.now site) with
  | none => (.skipped, w)
  | some req =>
    match if env.ok site .create then w.enqueue (req.message (env.now site)) req.content
      else none with
    | none => (.failed, w)
    | some bounced => (.generated, bounced.record (bounceFacts (w.serial msg.id) req rs))

/-! ## Steps of an attempt -/

def addAttempt (env : Env) (site : Site) (w : World) (id result errorMsg : Bytes) : World :=
  { w with store := Manager.addAttempt (env.ok site) (env.now site) w.store id result errorMsg }

def moveMessage (cfg : Config) (env : Env) (site : Site) (w : World) (id : Bytes)
    (target : QueueType) (reason : Bytes) : World :=
  { w with
    store :=
      Manager.moveMessage cfg.manager (env.ok site) (env.now site) env.jitter w.store id target
        reason }

def deleteMessage (cfg : Config) (env : Env) (site : Site) (w : World) (id : Bytes) : World :=
  { w with store := Manager.deleteMessage cfg.manager (env.ok site) (env.now site) w.store id }

def updateMessage (site : Site) (w : World) (msg : Message) : Option World :=
  (Manager.tryUpdate (env.ok site) w.store msg).map fun store => { w with store := store }

/-- Gives the whole message up: bounce, then removal whatever became of the bounce. -/
def moveToFailed (w : World) (msg : Message) (reason : Bytes) : World :=
  let w := (generateBounce cfg env .giveUpBounce w msg (envelopeRecipients msg) reason none).2
  if cfg.manager.failedQueueRetentionHours = 0 then deleteMessage cfg env .giveUp w msg.id
  else moveMessage cfg env .giveUp w msg.id .failed reason

def handleDeliveryFailure (w : World) (msg : Message) (err : GoError) : World :=
  let w := addAttempt env .failedAttempt w msg.id (lit "failed") err.text
  if !isTemporaryFailure (some err) then
    moveToFailed cfg env w msg (lit "Permanent failure: " ++ err.text)
  else if cfg.maxRetries ≤ msg.retryCount then
    moveToFailed cfg env w msg (lit "Max retries exceeded: " ++ err.text)
  else moveMessage cfg env .defer w msg.id .deferred err.text

def handleDeliverySuccess (w : World) (msg : Message) : World :=
  let w := addAttempt env .deliveredAttempt w msg.id (lit "delivered") []
  deleteMessage cfg env .finalize w msg.id

def temporaryDeliveryFailure : GoError :=
  .plain (lit "temporary recipient delivery failure")

def observePartial (w : World) (msg : Message) (delivered : List Bytes)
    (temporary permanent : Nat) : World :=
  if delivered = [] then w
  else
    addAttempt env .partialAttempt w msg.id (lit "partial")
      (lit "delivered=" ++ itoa delivered.length ++ lit " temporary=" ++ itoa temporary ++
        lit " permanent=" ++ itoa permanent)

def finalizeNoTemporary (w : World) (msg : Message) : World :=
  deleteMessage cfg env .finalize w msg.id

/-! ## Handoff of permanent failures to a DSN -/

def occurrenceList (rs : List DsnRecipient) : Bytes :=
  [0].intercalate (rs.map DsnRecipient.occurrence)

/-- The id of a handoff, and of its DSN: a function of the message and the occurrences. -/
def handoffID (id : Bytes) (permanent : List DsnRecipient) : Bytes :=
  lit "dsn-" ++ Sha256.hex ((Sha256.sum256 (id ++ [0] ++ occurrenceList permanent)).take 16)

def defaultFailureReason : Bytes :=
  lit "permanent recipient delivery failure"

def outcomeReason (first : Option RecipientOutcome) (err : Option GoError) : Bytes :=
  match first with
  | some o =>
    if o.diagnostic != [] then o.diagnostic
    else if o.enhancedStatusCode != [] then o.enhancedStatusCode
    else (err.map GoError.text).getD defaultFailureReason
  | none => (err.map GoError.text).getD defaultFailureReason

/-- The reason of the bounce when it is rebuilt from the handoff record. -/
def recordedReason (permanent : List DsnRecipient) : Bytes :=
  match permanent with
  | r :: _ => if r.diagnostic != [] then r.diagnostic else defaultFailureReason
  | [] => defaultFailureReason

def failedPart (msg : Message) (permanent : List DsnRecipient) : Message :=
  { msg with
    rcptTo := permanent.map DsnRecipient.address
    annotations := dsnAnnotationsForRecipients msg.annotations permanent }

def withHandoff (msg : Message) (h : DsnHandoff) : Message :=
  { msg with handoff := .recorded h }

def reducedMessage (msg : Message) (temporary : List DsnRecipient) : Message :=
  { msg with
    rcptTo := temporary.map DsnRecipient.address
    occurrenceIds := temporary.map DsnRecipient.occurrence
    handoff := .absent }

def bounceAndComplete (w : World) (msg : Message) (h : DsnHandoff)
    (reason : Bytes) : World × Bool :=
  let answer := generateBounce cfg env .handoff w (failedPart msg h.permanent) h.permanent reason
    (some h.id)
  if answer.1 = .failed then (answer.2, false)
  else
    match updateMessage env .complete answer.2 (withHandoff msg { h with state := .complete }) with
    | none => (answer.2, false)
    | some w => (w, true)

/-- Intent, bounce, completion. The attempt goes on only when all three succeeded. -/
def handOff (w : World) (msg : Message) (h : DsnHandoff) (reason : Bytes) : World × Bool :=
  match updateMessage env .intent w (withHandoff msg h) with
  | none => (w, false)
  | some w => bounceAndComplete cfg env w msg h reason

def outcomeFacts (host : Host) (serial : Nat) (msg : Message)
    (ps : List (Bytes × RecipientOutcome)) : List Fact :=
  ((ps.filter fun p => p.2.status == .delivered).map fun p =>
      .delivered serial (Utf8.toValid p.1)) ++
    failureFacts host serial msg
      ((ps.filter fun p => p.2.status == .permanentFailure).map fun p =>
        outcomeRecipient p.1 p.2)

def handleRecipientOutcomes (w : World) (msg : Message)
    (outcomes : List RecipientOutcome) (deliveryErr : Option GoError) : World :=
  let ps := (recipientOccurrences msg).zip outcomes
  let d := classify msg.annotations ps
  let w := w.record (outcomeFacts cfg.engine.host (w.serial msg.id) msg ps)
  if d.temporaryR = [] ∧ d.permanentR = [] then handleDeliverySuccess cfg env w msg
  else
    let h : DsnHandoff :=
      { id := handoffID msg.id d.permanentR
        state := .pending
        permanent := d.permanentR
        temporary := d.temporaryR
        delivered := d.deliveredR }
    let (w, goOn) :=
      if d.permanentR ≠ [] ∧ isNullSender msg.mailFrom = false then
        handOff cfg env w msg h (outcomeReason d.firstPermanent deliveryErr)
      else (w, true)
    if !goOn then w
    else if d.temporaryR = [] then
      finalizeNoTemporary cfg env
        (observePartial env w msg d.delivered d.temporaryR.length d.permanentR.length) msg
    else
      let reduced := { reducedMessage msg d.temporaryR with updatedAt := env.now .reduce }
      match updateMessage env .reduce w reduced with
      | none => w
      | some w =>
        let err := deliveryErr.getD temporaryDeliveryFailure
        handleDeliveryFailure cfg env
          (observePartial env w reduced d.delivered d.temporaryR.length d.permanentR.length)
          reduced err

/-! ## Resuming a handoff -/

inductive HandoffDefect where
  | missingID
  | unknownState (state : Bytes)
  | emptyPermanent
  | malformedOccurrence
  | unboundOccurrence (occurrence : Bytes)
  | noPartition
  | mismatchedID
  deriving DecidableEq

def HandoffDefect.text : HandoffDefect → Bytes
  | missingID => lit "missing handoff ID"
  | unknownState s => lit "unknown handoff state " ++ quoted s
  | emptyPermanent => lit "empty permanent occurrence set"
  | malformedOccurrence => lit "malformed or duplicate recipient occurrence"
  | unboundOccurrence o =>
    lit "recipient occurrence " ++ quoted o ++ lit " is not bound to current envelope"
  | noPartition => lit "handoff sets do not partition current envelope"
  | mismatchedID => lit "handoff ID does not match permanent occurrence set"

/-- Goes through the recipients of a record; `seen` are the occurrences met before. -/
def checkOccurrences (expected : List (Bytes × Bytes)) :
    List Bytes → List DsnRecipient → Except HandoffDefect (List Bytes)
  | seen, [] => .ok seen
  | seen, r :: rest =>
    if trimSpace r.occurrence = [] ∨ trimSpace r.address = [] ∨ r.occurrence ∈ seen then
      .error .malformedOccurrence
    else if expected.reverse.lookup r.occurrence ≠ some r.address then
      .error (.unboundOccurrence r.occurrence)
    else checkOccurrences expected (r.occurrence :: seen) rest

def validateDSNHandoff (msg : Message) (h : DsnHandoff) : Option HandoffDefect :=
  if trimSpace h.id = [] then some .missingID
  else
    match h.state with
    | .unknown s => some (.unknownState s)
    | _ =>
      if h.permanent = [] then some .emptyPermanent
      else
        let ids := recipientOccurrences msg
        match checkOccurrences (ids.zip msg.rcptTo) []
          (h.permanent ++ h.temporary ++ h.delivered) with
        | .error defect => some defect
        | .ok seen =>
          if seen.length ≠ ids.dedup.length then some .noPartition
          else if h.id ≠ handoffID msg.id h.permanent then some .mismatchedID
          else none

def quarantineInvalidDSNHandoff (w : World) (msg : Message) (defect : Bytes) : World :=
  moveMessage cfg env .quarantine w msg.id .hold (lit "invalid DSN handoff: " ++ defect)

def resumeBounce (w : World) (msg : Message) (h : DsnHandoff) : World × Bool :=
  if h.state = .pending then bounceAndComplete cfg env w msg h (recordedReason h.permanent)
  else (w, true)

def resumeRecorded (w : World) (msg : Message) (h : DsnHandoff) : World :=
  let (w, goOn) := resumeBounce cfg env w msg h
  if !goOn then w
  else
    let delivered := h.delivered.map DsnRecipient.address
    let w := observePartial env w msg delivered h.temporary.length h.permanent.length
    if h.temporary = [] then finalizeNoTemporary cfg env w msg
    else
      let reduced := reducedMessage msg h.temporary
      match updateMessage env .reduce w reduced with
      | none => w
      | some w =>
        handleDeliveryFailure cfg env w reduced temporaryDeliveryFailure

/-- `none` when there is no handoff to resume. -/
def resumeDSNHandoff (w : World) (msg : Message) : Option World :=
  match msg.handoff with
  | .absent => none
  | .malformed => some (quarantineInvalidDSNHandoff cfg env w msg (lit "invalid JSON"))
  | .recorded h =>
    match validateDSNHandoff msg h with
    | some defect => some (quarantineInvalidDSNHandoff cfg env w msg defect.text)
    | none => some (resumeRecorded cfg env w msg h)

/-! ## The attempt -/

def processMessage (w : World) (msg : Message) : World :=
  match resumeDSNHandoff cfg env w msg with
  | some w => w
  | none =>
    match Manager.getMessageContent (env.ok .content) w.store msg.id with
    | none =>
      match Manager.getMessage (env.ok .stillQueued) w.store msg.id with
      | none => w
      | some _ => moveToFailed cfg env w msg (lit "Failed to read content: " ++ env.readError)
    | some content =>
      let answer := env.deliver msg content
      let (result, err) := normalizeDeliveryResult msg.rcptTo answer.1 answer.2
      handleRecipientOutcomes cfg env w msg result.recipientOutcomes err

/-- What the attempt on a claimed message passes to the delivery handler, if it calls it. -/
def offered (w : World) (msg : Message) : Option (Message × Bytes) :=
  match msg.handoff with
  | .absent =>
    (Manager.getMessageContent (env.ok .content) w.store msg.id).map fun content => (msg, content)
  | _ => none

end Elemta.Queue
