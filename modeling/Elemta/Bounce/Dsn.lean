import Elemta.Foundation.Calendar
import Elemta.Queue.Outcomes

/-!
# The text of a delivery status notification

`buildDSNBounceAt` and its helpers (`bounce.go`): the RFC 3462 report that tells
a sender which recipients of a message failed. Remote reply text is arbitrary,
so it is cut, stripped of control characters and folded before it is written.
-/

namespace Elemta.Bounce

open Bytes Queue

/-- What the report says about the host that writes it. `zone` is the offset from UTC, in
seconds, of the host's clock at an instant. -/
structure Host where
  hostname : Bytes
  zone : Time → Int

def crlf : Bytes := [13, 10]

/-! ## Header text -/

def sanitizeEmailForHeader (email : Bytes) : Bytes :=
  email.filter fun b => b != 13 && b != 10

/-- One character at a time, from inside a character of which `k` octets are left. -/
def sanitizeRunes : Nat → Bytes → Bytes
  | _, [] => []
  | k + 1, _ :: r => sanitizeRunes k r
  | 0, b :: r =>
    match Utf8.runeTail (b :: r) with
    | some 0 =>
      if b = 13 ∨ b = 10 ∨ b = 9 then 32 :: sanitizeRunes 0 r
      else if b < 0x20 ∨ b = 0x7f then sanitizeRunes 0 r
      else b :: sanitizeRunes 0 r
    | some (n + 1) => 63 :: sanitizeRunes (n + 1) r
    | none => 63 :: sanitizeRunes 0 r

def sanitizeDiagnosticCode (reason : Bytes) : Bytes :=
  sanitizeRunes 0 (reason.take 1024)

def maxDSNLine : Nat := 78

/-- Breaks a run that is too long for any line; gives the lines written, the line begun and
the rest of the run. -/
def hardBreak : Nat → Bytes → Bytes → Bytes → Bytes × Bytes × Bytes
  | 0, out, line, word => (out, line, word)
  | fuel + 1, out, line, word =>
    if word.length > 900 then
      hardBreak fuel (out ++ line ++ crlf) (32 :: word.take 900) (word.drop 900)
    else (out, line, word)

def foldWords (nameLen : Nat) : Bytes → Bytes → List Bytes → Bytes
  | out, line, [] => out ++ line ++ crlf
  | out, line, word :: rest =>
    let (out, line, word) := hardBreak word.length out line word
    if line.length > nameLen + 1 && line.length + 1 + word.length > maxDSNLine then
      foldWords nameLen (out ++ line ++ crlf) (32 :: word) rest
    else foldWords nameLen out (line ++ 32 :: word) rest

def foldField (name value : Bytes) : Bytes :=
  foldWords name.length [] (name ++ lit ":") (fields value)

def isHex (b : UInt8) : Bool :=
  (48 ≤ b && b ≤ 57) || (97 ≤ b && b ≤ 102) || (65 ≤ b && b ≤ 70)

def hexValue (b : UInt8) : UInt8 :=
  if 48 ≤ b && b ≤ 57 then b - 48 else if 97 ≤ b && b ≤ 102 then b - 87 else b - 55

/-- RFC 3461 xtext; malformed escapes stay as they are. -/
def decodeXText : Bytes → Bytes
  | 43 :: h :: l :: r =>
    if isHex h && isHex l then (16 * hexValue h + hexValue l) :: decodeXText r
    else 43 :: decodeXText (h :: l :: r)
  | b :: r => b :: decodeXText r
  | [] => []

/-! ## Status codes -/

def inStatusClass (b : UInt8) : Bool :=
  isDigit b || b == 46

/-- What may follow a status code: a full stop or nothing, then neither digit nor full stop. -/
def endsStatus (s : Bytes) : Bool :=
  match s with
  | 46 :: r => r.head?.all fun b => !inStatusClass b
  | _ => s.head?.all fun b => !inStatusClass b

def statusAt (s : Bytes) : Option Bytes :=
  match s with
  | 53 :: 46 :: cls :: 46 :: r =>
    let detail := r.takeWhile isDigit
    if 48 ≤ cls && cls ≤ 55 && decide (1 ≤ detail.length) && decide (detail.length ≤ 3) &&
        endsStatus (r.drop detail.length) then
      some (53 :: 46 :: cls :: 46 :: detail)
    else none
  | _ => none

/-- `enhancedStatusPattern`: the first status that follows neither digit nor full stop. -/
def findStatus : Bool → Bytes → Option Bytes
  | _, [] => none
  | true, b :: r => (statusAt (b :: r)).or (findStatus (!inStatusClass b) r)
  | false, b :: r => findStatus (!inStatusClass b) r

/-- `smtpReplyPattern`. -/
def startsWithReplyCode (s : Bytes) : Bool :=
  match s with
  | a :: b :: c :: r =>
    (a == 50 || a == 52 || a == 53) && isDigit b && isDigit c &&
      r.head?.all fun d => d == 32 || d == 45
  | _ => false

def statusKeywords : List (Bytes × List Bytes) :=
  [(lit "5.4.2", [lit "connection refused", lit "connection reset", lit "network unreachable"]),
    (lit "5.2.0", [lit "mailbox unavailable", lit "mailbox full", lit "quota exceeded",
      lit "insufficient storage"]),
    (lit "5.1.1", [lit "user unknown", lit "no such user", lit "recipient address rejected"]),
    (lit "5.3.0", [lit "host not found", lit "name resolution", lit "dns lookup failed",
      lit "no mx records"])]

def mapFailureToDSNStatus (reason : Bytes) : Bytes :=
  match findStatus true reason with
  | some status => status
  | none =>
    match statusKeywords.find? fun kw => kw.2.any (contains (toLower reason)) with
    | some kw => kw.1
    -- a bare permanent code and the default are the same status
    | none => lit "5.0.0"

/-! ## The report -/

def maxReturnedMessage : Nat := 2 ^ 20

def maxReturnedHeaders : Nat := 64 * 2 ^ 10

def indexPast (sub : Bytes) : Bytes → Option Nat
  | [] => if sub = [] then some 0 else none
  | b :: r =>
    if sub.isPrefixOf (b :: r) then some sub.length
    else (indexPast sub r).map (· + 1)

def headerBlock (original : Bytes) : Bytes :=
  let headers :=
    match indexPast (crlf ++ crlf) original with
    | some n => original.take (n - 2)
    | none =>
      match indexPast [10, 10] original with
      | some n => original.take (n - 1)
      | none => original
  if headers.length > maxReturnedHeaders then
    let cut := headers.take maxReturnedHeaders
    if cut.contains 10 then (cut.reverse.dropWhile (· != 10)).reverse else cut
  else headers

def unixNanoText (t : Time) : Bytes :=
  if t < Calendar.unixEpoch then lit "-" ++ itoa (Calendar.unixEpoch - t)
  else itoa (t - Calendar.unixEpoch)

def recipientBlock (annotations : Annotations) (reason date : Bytes) (recipient : Bytes) : Bytes :=
  let kind :=
    if startsWithReplyCode (trimSpace reason) then lit "smtp" else lit "X-Elemta"
  let orcpt := (annotations.lookup (lit "dsn_orcpt:" ++ recipient)).getD []
  crlf ++
    (if orcpt != [] then
      lit "Original-Recipient: " ++ sanitizeDiagnosticCode (decodeXText orcpt) ++ crlf
    else []) ++
    lit "Final-Recipient: rfc822; " ++ sanitizeEmailForHeader recipient ++ crlf ++
    lit "Action: failed" ++ crlf ++
    lit "Status: " ++ mapFailureToDSNStatus reason ++ crlf ++
    foldField (lit "Diagnostic-Code") (kind ++ lit "; " ++ sanitizeDiagnosticCode reason) ++
    lit "Last-Attempt-Date: " ++ date ++ crlf ++
    match annotations.lookup (lit "dsn_notify:" ++ recipient) with
    | some notify => lit "Original-Notify: " ++ notify ++ crlf
    | none => []

def originalPart (boundary : Bytes) (annotations : Annotations) (original : Bytes) : Bytes :=
  if original = [] then []
  else
    let full := toUpper ((annotations.lookup (lit "dsn_return")).getD []) == lit "FULL" &&
      decide (original.length ≤ maxReturnedMessage)
    let part := lit "--" ++ boundary ++ crlf ++
      if full then lit "Content-Type: message/rfc822" ++ crlf ++ crlf ++ original
      else lit "Content-Type: text/rfc822-headers" ++ crlf ++ crlf ++ headerBlock original
    if crlf.isSuffixOf part then part else part ++ crlf

/-- `buildDSNBounceAt`; `original` is the failed message, empty when it cannot be read. -/
def buildDSNBounceAt (host : Host) (original : Bytes) (msg : Message)
    (reason : Bytes) (now : Time) : Bytes :=
  let at' := if now = 0 then Calendar.unixEpoch else now
  let date := if now = 0 then Calendar.rfc1123z 0 at' else Calendar.rfc1123z (host.zone now) now
  let stamp := unixNanoText at'
  let boundary := lit "elemta-boundary-" ++ stamp
  let envid := (msg.annotations.lookup (lit "dsn_envid")).getD []
  lit "Content-Type: multipart/report; report-type=delivery-status;" ++ crlf ++
    lit "\tboundary=\"" ++ boundary ++ lit "\"" ++ crlf ++
    lit "MIME-Version: 1.0" ++ crlf ++
    lit "Message-ID: <bounce-" ++ msg.id ++ lit "." ++ stamp ++ lit "@" ++ host.hostname ++
    lit ">" ++ crlf ++
    lit "Date: " ++ date ++ crlf ++
    lit "From: <postmaster@" ++ host.hostname ++ lit ">" ++ crlf ++
    lit "To: <" ++ sanitizeEmailForHeader msg.mailFrom ++ lit ">" ++ crlf ++
    lit "Subject: Delivery Status Notification (Failure)" ++ crlf ++
    lit "Auto-Submitted: auto-replied" ++ crlf ++ crlf ++
    -- the part for a human reader
    lit "--" ++ boundary ++ crlf ++
    lit "Content-Type: text/plain; charset=\"utf-8\"" ++ crlf ++
    lit "Content-Transfer-Encoding: 7bit" ++ crlf ++ crlf ++
    lit "This is a MIME-formatted message containing a Delivery Status Notification." ++
    crlf ++ crlf ++
    lit "Your message to the following recipients could not be delivered:" ++ crlf ++
    (msg.rcptTo.flatMap fun r => lit "  - " ++ sanitizeEmailForHeader r ++ crlf) ++ crlf ++
    foldField (lit "Reason") (sanitizeDiagnosticCode reason) ++ crlf ++
    lit "Original message ID: " ++ msg.id ++ crlf ++
    lit "Original subject: " ++ sanitizeDiagnosticCode msg.subject ++ crlf ++
    lit "Original sender: " ++ sanitizeEmailForHeader msg.mailFrom ++ crlf ++
    lit "Failed at: " ++ date ++ crlf ++ crlf ++
    lit "If you believe this is an error, please contact your mail administrator." ++
    crlf ++ crlf ++
    -- the part for a parser
    lit "--" ++ boundary ++ crlf ++
    lit "Content-Type: message/delivery-status" ++ crlf ++ crlf ++
    lit "Reporting-MTA: dns; " ++ host.hostname ++ crlf ++
    (if envid != [] then
      lit "Original-Envelope-Id: " ++ sanitizeDiagnosticCode (decodeXText envid) ++ crlf
    else []) ++
    (if msg.receivedAt ≠ 0 then
      lit "Arrival-Date: " ++ Calendar.rfc1123z (host.zone msg.receivedAt) msg.receivedAt ++ crlf
    else []) ++
    (msg.rcptTo.flatMap fun r => recipientBlock msg.annotations reason date r) ++ crlf ++
    originalPart boundary msg.annotations original ++
    lit "--" ++ boundary ++ lit "--" ++ crlf

end Elemta.Bounce
