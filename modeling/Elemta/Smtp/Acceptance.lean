import Elemta.Queue.Manager
import Elemta.Smtp.MessageHeaders
import Elemta.Smtp.Paths
import Elemta.Srs

/-!
# From a received message to a queue entry

`processMessage` and `saveMessage` of `session_data.go`: the checks a complete
message passes in order, and the enqueue with the annotations that follow it. A
stage that refuses the message answers with the text of its error. What outside
services say (scanners, policies, DNS, the signer, the storage) is part of the
input; a storage call that fails has changed nothing.
-/

namespace Elemta.Smtp

open Bytes

structure Config where
  hostname : Bytes
  maxSize : Int
  strictLineEndings : Bool
  devMode : Bool
  authEnabled : Bool
  authRequired : Bool
  allowPlaintextAuth : Bool
  localDomains : List Bytes
  srs : Option Srs.Rewriter
  tlsAvailable : Bool
  submission : Bool
  senderPolicies : Bool
  checks : MessageChecks
  rejectOnSpam : Bool
  quarantine : Bool
  /-- What `net.ParseIP` says. -/
  parseIP : Bytes → Option IpFamily
  /-- The peer's address is among `allowed_relays`. -/
  relayAllowed : Bool
  isInternal : Bool
  isLoopback : Bool

/-- `inLocalDomains`: an address with exactly one `@` and a domain of this server. -/
def inLocalDomains (domains : List Bytes) (recipient : Bytes) : Bool :=
  match split (lit "@") recipient with
  | [_, domain] => domains.any fun d => toLower d == toLower domain
  | _ => false

inductive Signing where
  /-- No signer, or no key for the sender's domain. -/
  | off
  | failed
  | signed (signature domain : Bytes)
  deriving DecidableEq

structure DeliveryEnv where
  memoryOk : Bool
  connectionMemoryOk : Bool
  /-- The refusal of the sender's class of service. -/
  checkContent : Option Bytes
  validators : Validators
  virus : ScannerAnswer VirusReport
  spam : ScannerAnswer SpamReport
  /-- The sending domain's DMARC policy asks for rejection and is enforced. -/
  dmarcRejects : Bool
  /-- `buildServerHeaders`: the header block of this hop. -/
  serverHeaders : SessionState → SecurityScanResult → Bytes
  signing : Signing
  bodyReads : Bool
  /-- The id that `generateUniqueID` makes. -/
  id : Bytes
  receivedAt : Queue.Time
  now : Queue.Time
  /-- Which storage calls of the enqueue and of each annotation succeed. -/
  ok : Nat → Queue.Call → Bool

/-! ## Saving -/

def recipientAnnotations (p : Bytes × DSNRecipientParams) : List (Bytes × Bytes) :=
  (if p.2.notify = [] then []
    else [(lit "dsn_notify:" ++ p.1, join (lit ",") (p.2.notify.map DSNNotify.text))]) ++
  (if p.2.orcpt = [] then [] else [(lit "dsn_orcpt:" ++ p.1, p.2.orcpt)])

variable (cfg : Config) (env : DeliveryEnv) (st : SessionState)

def dsnAnnotations : List (Bytes × Bytes) :=
  (match st.dsnParams with
    | none => []
    | some p =>
      (match p.ret with
        | none => []
        | some ret => [(lit "dsn_return", ret.text)]) ++
      (if p.envID = [] then [] else [(lit "dsn_envid", p.envID)])) ++
    st.dsnRecipientParams.flatMap recipientAnnotations ++
    (if st.requireTLS then [(lit "require_tls", lit "true")] else [])

/-- One `SetAnnotation` after another; a failure is logged and the next one is tried. -/
def annotateAll (ok : Nat → Queue.Call → Bool) (now : Queue.Time) (id : Bytes) :
    Nat → List (Bytes × Bytes) → Queue.Store → Queue.Store
  | _, [], s => s
  | i, (key, value) :: rest, s =>
    annotateAll ok now id (i + 1) rest (Queue.Manager.setAnnotationAt (ok i) now s id key value)

/-- The header block and the domain it was signed for. Only a signed-in sender's mail is signed. -/
def signSubmission (prefix_ : Bytes) : Option (Bytes × Bytes) :=
  if st.authenticated then
    match env.signing with
    | .off => some (prefix_, [])
    | .failed => none
    | .signed signature domain => some (signature ++ prefix_, domain)
  else some (prefix_, [])

/-- `saveMessage`; `none` for every failure. -/
def saveMessage (subject prefix_ body : Bytes) (s : Queue.Store) : Option Queue.Store :=
  match signSubmission env st prefix_ with
  | none => none
  | some (prefix_, signedFor) =>
    let msg := Queue.newEnqueueMessage env.id st.mailFrom st.rcptTo subject
      (prefix_.length + st.dataSize) .normal env.receivedAt env.now
    if env.bodyReads && env.ok 0 .create then
      match s.createMessageIfAbsent msg (prefix_ ++ body) with
      | none => none
      | some (_, s) =>
        let signedNote := if signedFor = [] then [] else [(lit "dkim_signed", signedFor)]
        some (annotateAll env.ok env.now env.id 1 (dsnAnnotations st ++ signedNote) s)
    else none

/-! ## Processing -/

def defaultHeadSize : Nat := 256 * 1024

/-- `canQuarantine`: every recipient has a mailbox here and the sender is not signed in. -/
def canQuarantine : Bool :=
  cfg.quarantine && !st.authenticated && st.rcptTo.all (inLocalDomains cfg.localDomains) &&
    st.rcptTo != []

/-- `performSecurityScan`; `none` when an engine panicked. -/
def performSecurityScan (head : Bytes) : Option SecurityScanResult :=
  match performAntivirusScan env.virus,
      performSpamScan cfg.rejectOnSpam (canQuarantine cfg st) env.spam with
  | some virus, some spam =>
    some (performContentAnalysis cfg.isInternal cfg.checks env.validators.headerParameter head
      ((SecurityScanResult.fresh.merge virus).merge spam))
  | _, _ => none

def sendingUser : Bytes :=
  if cfg.senderPolicies && st.authenticated then st.username else []

def checkBeforeScan (head : Bytes) : Option Bytes :=
  if env.memoryOk = false then some (lit "552 5.3.4 Server memory limit exceeded")
  else if env.connectionMemoryOk = false then some (lit "552 5.3.4 Session memory limit exceeded")
  else
    ((if sendingUser cfg st = [] then none else env.checkContent)).or <|
      (validateMessageHeaders cfg.checks cfg.isInternal (cfg.authEnabled && !cfg.authRequired)
        env.validators (extractHeaders head)).map fun e =>
          lit "554 5.7.1 Message rejected: " ++ e

/-- `verifyAuthenticationContent`: submissions of signed-in users are not judged by DMARC. -/
def verifyAuthentication : Option Bytes :=
  if !st.authenticated && env.dmarcRejects then
    some (lit "550 5.7.1 Message rejected by the sending domain's DMARC policy (p=reject)")
  else none

/-- What is stored of the received octets: forged Authentication-Results names are replaced. -/
def storedBody (content : Bytes) : Bytes :=
  neutralizeForgedAuthResults (content.take defaultHeadSize) cfg.hostname ++
    content.drop defaultHeadSize

def subjectOf (content : Bytes) : Bytes :=
  ((extractHeaders (content.take defaultHeadSize)).get (lit "subject")).getD []

/-- `processMessage` on a message that passed its scan. -/
def acceptScanned (content : Bytes) (scan : SecurityScanResult) (s : Queue.Store) :
    Option Bytes × SessionState × Queue.Store :=
  match verifyAuthentication env st with
  | some e => (some e, st, s)
  | none =>
    match saveMessage env st (subjectOf content) (env.serverHeaders st scan)
        (storedBody cfg content) s with
    | none => (some (lit "451 4.3.0 Message processing failed"), st, s)
    | some s' => (none, { st.reset with messageCount := st.messageCount + 1 }, s')

/-- `processMessage`: the text of its error, and the session and the store after it. -/
def processMessage (content : Bytes)
    (s : Queue.Store) : Option Bytes × SessionState × Queue.Store :=
  match checkBeforeScan cfg env st (content.take defaultHeadSize) with
  | some e => (some e, st, s)
  | none =>
    match performSecurityScan cfg env st (content.take defaultHeadSize) with
    | none => (some (lit "451 4.3.0 Security scan failed"), st, s)
    | some scan =>
      if scan.passed then acceptScanned cfg env st content scan s
      else (handleSecurityThreat scan, st, s)

end Elemta.Smtp
