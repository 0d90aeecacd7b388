import Elemta.Smtp.Auth
import Elemta.Smtp.DataPhase

/-!
# Commands

The handlers of `session_commands.go` for everything but chunks and AUTH.
-/

namespace Elemta.Smtp

open Bytes BufferedReader

/-! ## Arguments -/

/-- `validateAddressLiteral`, on the text between the brackets. -/
def validAddressLiteral (parseIP : Bytes → Option IpFamily) (content : Bytes) : Bool :=
  if content = [] then false
  else if toUpper (content.take 5) = lit "IPV6:" then
    parseIP (content.drop 5) == some .v6
  else if contains content (lit ":") then true
  else parseIP content == some .v4

/-- `validateHostname` of the command handler. -/
def validHostname (parseIP : Bytes → Option IpFamily) (hostname : Bytes) : Bool :=
  hostname != [] && decide (hostname.length ≤ 255) &&
    if 2 ≤ hostname.length ∧ hostname.head? = some 91 ∧ hostname.getLast? = some 93 then
      validAddressLiteral parseIP (hostname.drop 1).dropLast
    else (split (lit ".") hostname).all Validator.hostLabel

/-- `validateEmailAddress` of the command handler; the null sender passes. -/
def validEmailAddress (addr : Bytes) : Bool :=
  addr == [] ||
    (decide (addr.length ≤ 320) &&
      match cut (lit "@") addr with
      | none => false
      | some (before, after) => before != [] && after != [])

def containsNonASCII (s : Bytes) : Bool :=
  s.any fun b => 128 ≤ b

def sanitizeEmailForHeader (addr : Bytes) : Bytes :=
  addr.filter fun b => b != 13 && b != 10

def badSequence : Bytes :=
  lit "503 5.5.1 Bad sequence of commands"

namespace Session

variable (cfg : Config) (s : Session) (a : Answers)

def writeAll (lines : List Bytes) : Session :=
  { s with replies := s.replies ++ lines }

/-! ## Greetings -/

def greet (name : Bytes) : Session :=
  { s with state := { s.state with heloName := name, greeted := true }.reset }

def ehloExtensions : List Bytes :=
  [lit "250-SIZE " ++ itoaInt cfg.maxSize, lit "250-8BITMIME", lit "250-SMTPUTF8",
    lit "250-ENHANCEDSTATUSCODES", lit "250-CHUNKING", lit "250-DSN", lit "250-PIPELINING"] ++
  (if cfg.tlsAvailable && !s.state.tlsActive then [lit "250-STARTTLS"] else []) ++
  (if s.state.tlsActive then [lit "250-REQUIRETLS"] else []) ++
  (if cfg.authEnabled && s.plaintextAuthAllowed cfg then [lit "250-AUTH PLAIN LOGIN"] else []) ++
  (if cfg.devMode then [lit "250-XDEBUG"] else [])

def handleGreeting (name args : Bytes) (answer : Session → Session) : Outcome :=
  if args = [] then s.refuse (lit "501 5.0.0 " ++ name ++ lit " requires domain address")
  else if validHostname cfg.parseIP args = false then
    s.refuse (lit "501 5.0.0 Invalid hostname: " ++ args)
  else (answer (s.greet args), none)

def handleHELO (args : Bytes) : Outcome :=
  s.handleGreeting cfg (lit "HELO") args fun s =>
    s.write (lit "250 " ++ cfg.hostname ++ lit " Hello " ++ args)

def handleEHLO (args : Bytes) : Outcome :=
  s.handleGreeting cfg (lit "EHLO") args fun s =>
    s.writeAll ([lit "250-" ++ cfg.hostname ++ lit " Hello " ++ args] ++ s.ehloExtensions cfg ++
      [lit "250 HELP"])

/-! ## The envelope -/

def authenticationRequired : Bytes :=
  lit "530 5.7.0 Authentication required"

def needsLogin : Bool :=
  !s.state.authenticated &&
    ((cfg.authEnabled && cfg.authRequired) || (cfg.submission && !cfg.relayAllowed))

def checkMail (s : Session) (p : MailFromParams) : Option Bytes :=
  (a.senderRefusal s.state p.addr).or <|
    if validEmailAddress p.addr = false then
      some (lit "553 5.1.3 Invalid sender address: " ++ p.addr)
    else if containsNonASCII p.addr && !p.smtpUTF8 then
      some (lit "553 5.6.7 SMTPUTF8 is required for non-ASCII sender address")
    else if 0 < p.size ∧ cfg.maxSize < p.size then
      some (lit "552 5.3.4 Message size exceeds fixed maximum message size (" ++ itoaInt p.size ++
        lit " bytes declared, " ++ itoaInt cfg.maxSize ++ lit " bytes maximum)")
    else if sendingUser cfg s.state = [] then none
    else a.mailLimits s.state p.size

def handleMAIL (s : Session) (args : Bytes) : Outcome :=
  if s.needsLogin cfg then s.refuse authenticationRequired
  else
    match parseMailFromParams cfg.parseIP cfg.maxSize s.state.tlsActive args with
    | .error e => s.refuse e
    | .ok p =>
      match s.checkMail cfg a p with
      | some e => s.refuse e
      | none =>
        match s.state.acceptMail p.addr p.size p.smtpUTF8
            (if p.hasDSN then some p.dsn else none) p.requireTLS with
        | none => s.refuse badSequence
        | some st => (({ s with state := st }).write (lit "250 2.1.0 Sender OK"), none)

/-- `reverseSRS`: the sender that a bounce goes back to, empty for other recipients. -/
def reverseSRS (now : Nat) (st : SessionState) (recipient : Bytes) : Except Bytes Bytes :=
  match cfg.srs with
  | none => .ok []
  | some rewriter =>
    if Srs.isSRS recipient = false || inLocalDomains cfg.localDomains recipient = false then .ok []
    else if st.mailFrom ≠ [] then
      .error (lit "550 5.7.1 This address accepts delivery notifications only")
    else
      match rewriter.reverse now recipient with
      | none => .error (lit "550 5.1.1 <" ++ sanitizeEmailForHeader recipient ++
          lit ">: Recipient address rejected: User unknown")
      | some sender => .ok sender

/-- `checkRelayPermissions`. -/
def relayPermitted (st : SessionState) (recipient : Bytes) : Bool :=
  st.authenticated || inLocalDomains cfg.localDomains recipient || cfg.relayAllowed

def resolveRecipient (now : Nat) (st : SessionState) (rcptTo : Bytes) :
    Except Bytes (Bytes × Bool) :=
  match reverseSRS cfg now st rcptTo with
  | .error e => .error e
  | .ok bounceFor =>
    if bounceFor ≠ [] then .ok (bounceFor, true)
    else if relayPermitted cfg st rcptTo then .ok (rcptTo, false)
    else .error (lit "554 5.7.1 Relay access denied")

def checkRecipientAddress (rcptTo : Bytes) : Option Bytes :=
  if validEmailAddress rcptTo = false then
    some (lit "553 5.1.3 Invalid recipient address: " ++ rcptTo)
  else if containsNonASCII rcptTo && !s.state.smtputf8 then
    some (lit "553 5.6.7 SMTPUTF8 is required for non-ASCII recipient address")
  else none

def acceptRecipient (rcptTo : Bytes) (p : RcptToParams) : Outcome :=
  match s.state.addRecipient rcptTo with
  | none => s.refuse badSequence
  | some st =>
    let st := if p.hasDSN then st.setDSNRecipientParams rcptTo p.dsn else st
    (({ s with state := st }).write (lit "250 2.1.5 Recipient OK"), none)

def handleRCPT (s : Session) (args : Bytes) : Outcome :=
  match parseRCPTEnvelope cfg.parseIP args with
  | .error e => s.refuse e
  | .ok p =>
    match s.checkRecipientAddress p.addr with
    | some e => s.refuse e
    | none =>
      match resolveRecipient cfg a.now s.state p.addr with
      | .error e => s.refuse e
      | .ok (rcptTo, isBounce) =>
        match a.recipientRefusal s.state isBounce rcptTo with
        | some e => s.refuse e
        | none => s.acceptRecipient rcptTo p

/-! ## The data phase, resets and the rest -/

def handleDATA (s : Session) : Outcome :=
  if s.state.rcptTo = [] then s.refuse (lit "503 5.5.1 RCPT first")
  else if s.state.canAcceptDataCommand .data = false then s.refuse badSequence
  else
    match (s.state.setDataTransferMode .data).bind fun st => st.setPhase .data with
    | none => s.refuse badSequence
    | some st =>
      (({ s with state := st }).write (lit "354 Start mail input; end with <CRLF>.<CRLF>"),
        if a.prompts 0 then none else some (lit "failed to flush data prompt"))

def handleRSET : Outcome :=
  ((({ s with state := s.state.reset }).resetBDAT).write (lit "250 2.0.0 Reset OK"), none)

def handleNOOP : Outcome :=
  (s.write (lit "250 2.0.0 OK"), none)

def handleQUIT (s : Session) : Outcome :=
  (({ s with state := (s.state.setPhase .quit).getD s.state }).write
      (lit "221 2.0.0 " ++ cfg.hostname ++ lit " closing connection"),
    if a.prompts 0 then none else some (lit "failed to flush"))

/-- The session on its TLS connection: plaintext that was read ahead is gone. -/
def upgradeToTLS (conn : List (Arrival Fault)) : Session :=
  { s with
    reader := { buffer := [], conn := conn }
    state := { s.state with tlsActive := true, greeted := false }.reset }

def handleSTARTTLS (s : Session) : Outcome :=
  if s.state.tlsActive then s.refuse (lit "454 4.7.0 TLS already active")
  else if cfg.tlsAvailable = false then s.refuse (lit "454 4.7.0 TLS not available")
  else
    let s := s.write (lit "220 2.0.0 Ready to start TLS")
    if a.prompts 0 = false then s.refuse (lit "failed to flush TLS ready response")
    else
      match a.handshake with
      | none => ({ s with dataSyncLost := true }).refuse (lit "454 4.7.0 TLS handshake failed")
      | some conn => (s.upgradeToTLS conn, none)

def helpText : List Bytes :=
  [lit "214-Commands supported:", lit "214-HELO EHLO MAIL RCPT DATA RSET NOOP QUIT",
    lit "214-AUTH STARTTLS HELP VRFY EXPN", lit "214 For more info use \"HELP <topic>\""]

def handleHELP : Outcome :=
  (s.writeAll helpText, none)

def handleVRFY : Outcome :=
  (s.write (lit "252 2.5.2 Cannot VRFY user, but will accept message"), none)

def handleEXPN : Outcome :=
  (s.write (lit "502 5.5.1 EXPN not supported"), none)

def notRecognized : Bytes :=
  lit "502 5.5.1 Command not recognized"

def handleXDEBUG (s : Session) (line : Bytes) : Outcome :=
  if cfg.devMode = false then s.refuse notRecognized
  else (s.writeAll (a.debugDump s.state line), none)

end Session

end Elemta.Smtp
