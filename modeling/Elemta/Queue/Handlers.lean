import Elemta.Queue.Outcomes

/-!
# Delivery handlers

What the LMTP and SMTP handlers report to the processor (`lmtp_handler.go`,
`delivery_handler.go`). The remote side is an input: the replies of an LMTP server,
and the outcome of an SMTP transaction with each domain.
-/

namespace Elemta.Queue

open Bytes

abbrev HandlerAnswer := Option DeliveryResult × Option GoError

/-- `%v` of a list of strings. -/
def listText (items : List Bytes) : Bytes :=
  lit "[" ++ [32].intercalate items ++ lit "]"

def allDigits (s : Bytes) : Bool :=
  s != [] && s.all isDigit

def enhancedStatus (response : Bytes) : Bytes :=
  let isStatus : Bytes → Bool := fun field =>
    match field.splitOn 46 with
    | [cls, subject, detail] =>
      (cls == lit "2" || cls == lit "4" || cls == lit "5") && allDigits subject && allDigits detail
    | _ => false
  (((fields response).drop 1).find? isStatus).getD []

def statusForResponse (response : Bytes) : DeliveryStatus :=
  if hasPrefix (trimSpace response) (lit "5") then .permanentFailure else .temporaryFailure

/-! ## LMTP -/

/-- A reply line without its end, or the error of reading it. -/
abbrev Reply := Except Bytes Bytes

structure LmtpPeer where
  address : Bytes
  overLimit : Bool
  /-- Why no session could be had; the flag marks `errLMTPSetup`. -/
  setup : Option (Bool × GoError)
  mail : Reply
  rcpt : Nat → Reply
  data : Reply
  sendError : Option GoError
  /-- The reply for the accepted recipient at this position. -/
  final : Nat → Reply

/-- Status of a recipient whose reply is still to come. -/
def unresolved : DeliveryStatus := .other []

def lmtpOutcome (route recipient : Bytes) (status : DeliveryStatus)
    (enhanced diagnostic : Bytes) : RecipientOutcome :=
  { recipient := recipient
    status := status
    enhancedStatusCode := enhanced
    diagnostic := diagnostic
    route := route }

def rcptOutcome (route recipient : Bytes) : Reply → RecipientOutcome
  | .error e => lmtpOutcome route recipient .temporaryFailure [] e
  | .ok resp =>
    if hasPrefix resp (lit "250 ") then lmtpOutcome route recipient unresolved [] []
    else if hasPrefix resp (lit "5") then
      lmtpOutcome route recipient .permanentFailure (enhancedStatus resp) resp
    else lmtpOutcome route recipient .temporaryFailure (enhancedStatus resp) resp

def finalOutcome (o : RecipientOutcome) : Reply → RecipientOutcome
  | .error e => { o with status := .temporaryFailure, diagnostic := e }
  | .ok line =>
    let resp := trimSpace line
    { o with
      status :=
        if hasPrefix resp (lit "2") then .delivered
        else if hasPrefix resp (lit "5") then .permanentFailure
        else .temporaryFailure
      enhancedStatusCode := enhancedStatus resp
      diagnostic := resp }

def resolveFinal (final : Nat → Reply) : Nat → List RecipientOutcome → List RecipientOutcome
  | _, [] => []
  | position, o :: rest =>
    if o.status = unresolved then
      finalOutcome o (final position) :: resolveFinal final (position + 1) rest
    else o :: resolveFinal final position rest

/-- The recipients an error text names: rejected at RCPT, or failed with a final reply. -/
def lmtpFailedRecipients (final : Nat → Reply) (prior : List RecipientOutcome) : List Bytes :=
  let rejected := prior.filter fun o => o.status != unresolved
  let answered := ((prior.filter fun o => o.status == unresolved).zipIdx.filter fun (_, i) =>
    match final i with
    | .error _ => false
    | .ok line => !hasPrefix (trimSpace line) (lit "2")).map Prod.fst
  (rejected ++ answered).map RecipientOutcome.recipient

/-- A failure that settles every recipient whose reply is still to come. -/
def lmtpOutcomesFailure (route : Bytes) (prior : List RecipientOutcome)
    (pending : List Bytes) (diagnostic : Bytes) (status : DeliveryStatus) :
    HandlerAnswer :=
  let settled := fun recipient =>
    lmtpOutcome route recipient status (enhancedStatus diagnostic) diagnostic
  let outcomes :=
    if prior = [] then pending.map settled
    else prior.map fun o => if o.status = unresolved then settled o.recipient else o
  let err := GoError.plain diagnostic
  (some { DeliveryResult.empty with error := some err, recipientOutcomes := outcomes }, some err)

def lmtpPreFinalFailure (msg : Message) (route diagnostic : Bytes)
    (status : DeliveryStatus) : HandlerAnswer :=
  lmtpOutcomesFailure route [] msg.rcptTo diagnostic status

def lmtpFinish (peer : LmtpPeer) (msg : Message) (prior : List RecipientOutcome) : HandlerAnswer :=
  let outcomes := resolveFinal peer.final 0 prior
  let delivered := (outcomes.filter fun o => o.status == .delivered).length
  let failed := lmtpFailedRecipients peer.final prior
  if delivered = 0 then
    let err := GoError.plain (lit "delivery failed for all accepted recipients")
    (some { DeliveryResult.empty with error := some err, recipientOutcomes := outcomes }, some err)
  else if failed ≠ [] then
    let err := GoError.plain (lit "partial delivery: " ++ itoa delivered ++ lit "/" ++
      itoa msg.rcptTo.length ++ lit " recipients delivered, failed: " ++ listText failed)
    (some { DeliveryResult.empty with
      success := true
      error := some err
      recipientOutcomes := outcomes }, some err)
  else
    (some { DeliveryResult.empty with success := true, recipientOutcomes := outcomes }, none)

def lmtpDeliver (peer : LmtpPeer) (msg : Message) : HandlerAnswer :=
  if peer.overLimit then
    (none, some (.plain (lit "temporary failure: domain " ++ msg.domain ++
      lit " is over concurrent delivery limit")))
  else
    match peer.setup with
    | some (true, e) => lmtpPreFinalFailure msg peer.address e.text .temporaryFailure
    | some (false, e) => (some DeliveryResult.empty, some e)
    | none =>
      match peer.mail with
      | .error e =>
        lmtpPreFinalFailure msg peer.address (lit "MAIL FROM failed: " ++ e) .temporaryFailure
      | .ok resp =>
        if !hasPrefix resp (lit "250 ") then
          lmtpPreFinalFailure msg peer.address resp (statusForResponse resp)
        else
          let prior := msg.rcptTo.zipIdx.map fun (r, i) => rcptOutcome peer.address r (peer.rcpt i)
          let accepted := (prior.filter fun o => o.status == unresolved).map
            RecipientOutcome.recipient
          if accepted = [] then
            let err := GoError.plain
              (lit "all recipients rejected: " ++
                listText (prior.map RecipientOutcome.recipient))
            (some { DeliveryResult.empty with error := some err, recipientOutcomes := prior },
              some err)
          else
            match peer.data with
            | .error e =>
              lmtpOutcomesFailure peer.address prior accepted e .temporaryFailure
            | .ok resp =>
              if !hasPrefix resp (lit "354 ") then
                lmtpOutcomesFailure peer.address prior accepted resp (statusForResponse resp)
              else
                match peer.sendError with
                | some e => (some DeliveryResult.empty, some e)
                | none => lmtpFinish peer msg prior

def stamped (method : Bytes) (answer : HandlerAnswer) : HandlerAnswer :=
  let result := answer.1.getD { DeliveryResult.empty with error := answer.2 }
  (some { result with
    deliveryMethod := if result.deliveryMethod = [] then method else result.deliveryMethod },
    answer.2)

def lmtpHandler (peer : LmtpPeer) (msg : Message) : HandlerAnswer :=
  stamped (lit "lmtp") (lmtpDeliver peer msg)

/-! ## SMTP -/

structure DomainAnswer where
  host : Bytes
  outcomes : List RecipientOutcome
  err : Option GoError

/-- The domain of an address with a single `@`, in lower case. -/
def smtpDomain (recipient : Bytes) : Option Bytes :=
  match recipient.splitOn 64 with
  | [_, domain] => some (toLower domain)
  | _ => none

def leBytes : Bytes → Bytes → Bool
  | [], _ => true
  | _ :: _, [] => false
  | a :: as, b :: bs => a < b || (a == b && leBytes as bs)

def groupRecipientsByDomain (recipients : List Bytes) : List (Bytes × List Bytes) :=
  ((recipients.filterMap smtpDomain).dedup.mergeSort leBytes).map fun domain =>
    (domain, recipients.filter fun r => smtpDomain r == some domain)

/-- The outcomes of one domain: those reported, and the rest by the error or its absence. -/
def domainOutcomes (domain : Bytes) (recipients : List Bytes) (answer : DomainAnswer) :
    List RecipientOutcome :=
  let rest := recipients.drop answer.outcomes.length
  let filled :=
    match answer.err with
    | some e =>
      let status := if isTemporaryFailure (some e) then .temporaryFailure else .permanentFailure
      rest.map fun r => lmtpOutcome domain r status [] e.text
    | none => rest.map fun r => lmtpOutcome answer.host r .delivered [] []
  answer.outcomes ++ filled

def domainDelivered (recipients : List Bytes) (answer : DomainAnswer) : Nat :=
  let reported := (answer.outcomes.filter fun o => o.status == .delivered).length
  if answer.err.isNone && answer.outcomes.isEmpty then recipients.length else reported

def aggregateDomainFailures (failures : List (Bytes × GoError)) : Option GoError :=
  if failures = [] then none
  else
    some (.domainFailures
      (lit "delivery failures: " ++
        (lit "; ").intercalate (failures.map fun (domain, e) => domain ++ lit ": " ++ e.text))
      (failures.all fun (_, e) => !isTemporaryFailure (some e)))

def buildDeliveryResult (recipients delivered : Nat) (outcomes : List RecipientOutcome)
    (lastError : Option GoError) : HandlerAnswer :=
  let result := { DeliveryResult.empty with
    success := decide (0 < delivered)
    recipientOutcomes := outcomes }
  let counted := itoa delivered ++ lit "/" ++ itoa recipients
  if 0 < delivered ∧ delivered < recipients then
    let text := lit "partial delivery: " ++ counted ++ lit " recipients delivered: "
    let err := match lastError with
      | some e => GoError.wrapped (text ++ e.text) e
      | none => GoError.plain (text ++ lit "%!w(<nil>)")
    (some { result with error := some err }, some err)
  else if delivered = 0 then
    let err := lastError.getD (.plain (lit "delivery failed for all recipients"))
    (some { result with error := some err }, some err)
  else (some result, none)

/-- `transact` is the delivery to one domain, and `prepare` the error of signing or sealing. -/
def smtpDeliver (prepare : Option GoError)
    (transact : Bytes → List Bytes → DomainAnswer) (msg : Message) : HandlerAnswer :=
  match prepare with
  | some e => (none, some e)
  | none =>
    let groups := groupRecipientsByDomain msg.rcptTo
    let outcomes := groups.flatMap fun (domain, rs) => domainOutcomes domain rs (transact domain rs)
    let delivered := (groups.map fun (domain, rs) =>
      domainDelivered rs (transact domain rs)).sum
    let failures := groups.filterMap fun (domain, rs) =>
      (transact domain rs).err.map fun e => (domain, e)
    buildDeliveryResult msg.rcptTo.length delivered outcomes (aggregateDomainFailures failures)

def smtpHandler (prepare : Option GoError)
    (transact : Bytes → List Bytes → DomainAnswer) (msg : Message) : HandlerAnswer :=
  stamped (lit "smtp") (smtpDeliver prepare transact msg)

end Elemta.Queue
