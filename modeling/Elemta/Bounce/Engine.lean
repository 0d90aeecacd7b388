import Elemta.Bounce.Dsn

/-!
# The bounce engine

`generateBounce` (`bounce.go`) up to the enqueue: whether a failed message is
answered at all, about which of its recipients, and the request that goes to the
queue. A request under a handoff id is built from stored times, so that repeating
it repeats the same enqueue; a request without one gets a fresh id and the clock.
-/

namespace Elemta.Bounce

open Bytes Queue

/-- `srs` undoes a forwarder's sender rewriting at an instant, when it is configured. -/
structure Engine where
  host : Host
  srs : Option (Time → Bytes → Option Bytes)

def cutAt (address : Bytes) : Bytes × Option Bytes :=
  match address.span (· != 64) with
  | (loc, []) => (loc, none)
  | (loc, _ :: domain) => (loc, some domain)

def trimAngles (s : Bytes) : Bytes :=
  let bracket : UInt8 → Bool := fun b => b == 60 || b == 62
  ((s.dropWhile bracket).reverse.dropWhile bracket).reverse

def isNullSender (mailFrom : Bytes) : Bool :=
  trimSpace mailFrom == [] || trimSpace mailFrom == lit "<>"

def isBounceIdentity (host : Host) (address : Bytes) : Bool :=
  match cutAt (trimAngles address) with
  | (loc, none) => equalFold loc (lit "mailer-daemon")
  | (loc, some domain) =>
    equalFold loc (lit "mailer-daemon") ||
      (equalFold loc (lit "postmaster") && equalFold domain host.hostname)

/-- NOTIFY of an address: absent and blank mean the default, which includes FAILURE. -/
def wantsFailureNotice (annotations : Annotations) (address : Bytes) : Bool :=
  match annotations.lookup (lit "dsn_notify:" ++ address) with
  | none => true
  | some notify => trimSpace notify == [] || contains (toUpper notify) (lit "FAILURE")

def recipientsToNotify (msg : Message) : List Bytes :=
  msg.rcptTo.filter (wantsFailureNotice msg.annotations)

/-- `srs.Is`. -/
def isSRS (address : Bytes) : Bool :=
  let domain := address.reverse.takeWhile (· != 64)
  let loc := address.take (address.length - domain.length - 1)
  domain.length < address.length && domain != [] && decide (5 ≤ loc.length) &&
    (toUpper (loc.take 5) == lit "SRS0=" || toUpper (loc.take 5) == lit "SRS1=")

/-- Who is told: the sender, or whom a rewritten sender stands for. -/
def bounceAddress (eng : Engine) (now : Time) (mailFrom : Bytes) : Bytes :=
  match eng.srs with
  | some reverse => if isSRS mailFrom then (reverse now mailFrom).getD mailFrom else mailFrom
  | none => mailFrom

structure Request where
  id : Bytes
  recipient : Bytes
  reported : List Bytes
  reason : Bytes
  time : Time
  content : Bytes
  deriving DecidableEq

def handoffTime (msg : Message) : Time :=
  if msg.updatedAt = 0 then msg.createdAt else msg.updatedAt

/-- The request `generateBounce` makes, or `none` when no bounce is due. Without a handoff id
the bounce gets the id and the time that the run supplies. -/
def bounceRequest (eng : Engine) (original : Bytes) (msg : Message) (reason : Bytes)
    (handoffID : Option Bytes) (freshID : Bytes) (now : Time) : Option Request :=
  let reported := recipientsToNotify msg
  if isNullSender msg.mailFrom then none
  else if isBounceIdentity eng.host (trimSpace msg.mailFrom) then none
  else if reported = [] then none
  else
    let told := bounceAddress eng now msg.mailFrom
    let time := if handoffID.isSome then handoffTime msg else now
    some
      { id := handoffID.getD freshID
        recipient := told
        reported := reported
        reason := reason
        time := time
        content := buildDSNBounceAt eng.host original
          { msg with rcptTo := reported, mailFrom := told } reason time }

def dsnSubject : Bytes :=
  lit "Delivery Status Notification (Failure)"

def Request.message (r : Request) (now : Time) : Message :=
  newEnqueueMessage r.id [] [r.recipient] dsnSubject r.content.length .high r.time now

end Elemta.Bounce
