import Elemta.Foundation.Machine
import Elemta.Smtp.Commands

/-!
# The command loop

`processCommands` of `session.go` as a machine: one turn reads one command line and
handles it, or takes the message of the data phase. The answers of the outside world
drive the machine; everything the client sends is on the reader's tape.
-/

namespace Elemta.Smtp

open Bytes BufferedReader

def commandLineLimit : Nat := 512

/-- `parseCommand` of the command handler: words end at a space, and at a space only. -/
def splitCommand (line : Bytes) : Bytes × Bytes :=
  match splitN (lit " ") 2 (trimSpace line) with
  | [cmd, args] => (toUpper cmd, trimSpace args)
  | parts => (toUpper parts.flatten, [])

namespace Session

variable (cfg : Config) (a : Answers) (s : Session)

def dispatch (line cmd args : Bytes) : Outcome :=
  if cmd = lit "HELO" then s.handleHELO cfg args
  else if cmd = lit "EHLO" then s.handleEHLO cfg args
  else if cmd = lit "MAIL" then s.handleMAIL cfg a args
  else if cmd = lit "RCPT" then s.handleRCPT cfg a args
  else if cmd = lit "DATA" then s.handleDATA a
  else if cmd = lit "BDAT" then s.handleBDAT cfg a args
  else if cmd = lit "RSET" then s.handleRSET
  else if cmd = lit "NOOP" then s.handleNOOP
  else if cmd = lit "QUIT" then s.handleQUIT cfg a
  else if cmd = lit "AUTH" then s.handleAUTH cfg a line
  else if cmd = lit "STARTTLS" then s.handleSTARTTLS cfg a
  else if cmd = lit "HELP" then s.handleHELP
  else if cmd = lit "VRFY" then s.handleVRFY
  else if cmd = lit "EXPN" then s.handleEXPN
  else if cmd = lit "XDEBUG" then s.handleXDEBUG cfg a line
  else s.refuse notRecognized

/-- What holds of every handler's outcome holds of the dispatch. -/
theorem dispatch_cases {cfg : Config} {a : Answers} {s : Session} {line cmd args : Bytes}
    {P : Outcome → Prop} (helo : cmd = lit "HELO" → P (s.handleHELO cfg args))
    (ehlo : cmd = lit "EHLO" → P (s.handleEHLO cfg args))
    (mail : cmd = lit "MAIL" → P (s.handleMAIL cfg a args))
    (rcpt : cmd = lit "RCPT" → P (s.handleRCPT cfg a args))
    (data : P (s.handleDATA a)) (bdat : cmd = lit "BDAT" → P (s.handleBDAT cfg a args))
    (rset : P s.handleRSET) (noop : P s.handleNOOP) (quit : P (s.handleQUIT cfg a))
    (auth : cmd = lit "AUTH" → P (s.handleAUTH cfg a line))
    (starttls : cmd = lit "STARTTLS" → P (s.handleSTARTTLS cfg a))
    (help : P s.handleHELP) (vrfy : P s.handleVRFY) (expn : P s.handleEXPN)
    (xdebug : P (s.handleXDEBUG cfg a line)) (unknown : P (s.refuse notRecognized)) :
    P (s.dispatch cfg a line cmd args) := by
  apply iteInduction helo; intro _
  apply iteInduction ehlo; intro _
  apply iteInduction mail; intro _
  apply iteInduction rcpt; intro _
  apply iteInduction (fun _ => data); intro _
  apply iteInduction bdat; intro _
  apply iteInduction (fun _ => rset); intro _
  apply iteInduction (fun _ => noop); intro _
  apply iteInduction (fun _ => quit); intro _
  apply iteInduction auth; intro _
  apply iteInduction starttls; intro _
  apply iteInduction (fun _ => help); intro _
  apply iteInduction (fun _ => vrfy); intro _
  apply iteInduction (fun _ => expn); intro _
  exact iteInduction (fun _ => xdebug) (fun _ => unknown)

theorem dispatch_named (line args : Bytes) :
    s.dispatch cfg a line (lit "MAIL") args = s.handleMAIL cfg a args ∧
    s.dispatch cfg a line (lit "RCPT") args = s.handleRCPT cfg a args ∧
    s.dispatch cfg a line (lit "BDAT") args = s.handleBDAT cfg a args ∧
    s.dispatch cfg a line (lit "AUTH") args = s.handleAUTH cfg a line := by
  unfold dispatch
  refine ⟨?_, ?_, ?_, ?_⟩
  all_goals simp +decide only [if_true, if_false]

/-- `ProcessCommand` after the validator: a command out of place is refused. -/
def processParsed (line cmd args : Bytes) : Outcome :=
  if s.state.canAcceptCommand cmd = false then
    (if equalFold cmd (lit "BDAT") then s.discardRefusedBDAT a args else s).refuse badSequence
  else s.dispatch cfg a line cmd args

def processCommand (line : Bytes) : Outcome :=
  match Validator.validateCommand cfg.parseIP a.commandMemoryOk line with
  | some e => s.refuse e
  | none => s.processParsed cfg a line (splitCommand line).1 (splitCommand line).2

/-- The end of a turn: replies go out when no further command has been read ahead. -/
def endTurn : Session :=
  if s.state.phase = .quit then s.close
  else if s.reader.buffer = [] && !a.flushes then s.close
  else s

/-- What the loop does after a command. A handler that panicked has closed the session. -/
def finish : Outcome → Session
  | (s, none) => if s.live then s.endTurn a else s
  | (s, some e) =>
    let s := s.write (errorReply e)
    if s.dataSyncLost then s.close else s.endTurn a

theorem endTurn_keeps {α : Type*} (f : Session → α) (hclose : ∀ s : Session, f s.close = f s)
    (a : Answers) (s : Session) : f (s.endTurn a) = f s := by
  unfold endTurn
  split
  · exact hclose s
  · split
    · exact hclose s
    · rfl

/-- What replies and closing do not touch is as the command left it. -/
theorem finish_keeps {α : Type*} (f : Session → α) (hclose : ∀ s : Session, f s.close = f s)
    (hwrite : ∀ (s : Session) (reply : Bytes), f (s.write reply) = f s) (a : Answers)
    (o : Outcome) : f (finish a o) = f o.1 := by
  fun_cases finish a o with
  | case1 s => exact endTurn_keeps f hclose a s
  | case2 => rfl
  | case3 s => exact (hclose _).trans (hwrite s _)
  | case4 s => exact (endTurn_keeps f hclose a _).trans (hwrite s _)

def heard : Option (Bytes × Tape Fault) :=
  match s.reader.boundedLine readerSize commandLineLimit with
  | (.text line none, r) => some (line, r.tape)
  | _ => none

def commandTurn : Session :=
  match s.reader.boundedLine readerSize commandLineLimit with
  | (.tooLong, r) =>
    (({ s with reader := r }).write (lit "500 5.5.2 Command line too long")).close
  | (.text _ (some (.fault .timeout)), r) =>
    (({ s with reader := r }).write (lit "421 4.4.2 Timeout")).close
  | (.text _ (some _), r) => ({ s with reader := r }).close
  | (.text line none, r) => finish a (processCommand cfg a { s with reader := r } line)

/-- One turn of `processCommands`. -/
def turn (a : Answers) : Session :=
  if s.live = false then s
  else if a.stop then s.close
  else if s.state.phase = .data then
    if a.flushes then s.dataTurn cfg a else s.close
  else s.commandTurn cfg a

def attends : Bool :=
  s.live && !a.stop && decide (s.state.phase ≠ .data)

section

variable {cfg : Config} {a : Answers} {s : Session}

theorem turn_of_attends (h : s.attends a = true) : s.turn cfg a = s.commandTurn cfg a := by
  simp only [attends, Bool.and_eq_true, Bool.not_eq_true', decide_eq_true_eq] at h
  unfold turn
  rw [if_neg (by simp [h.1.1]), if_neg (by simp [h.1.2]), if_neg h.2]

theorem live_of_attends (h : s.attends a = true) : s.live = true := by
  simp only [attends, Bool.and_eq_true] at h
  exact h.1.1

theorem turn_of_heard (cfg : Config) {line : Bytes} {rest : Tape Fault}
    (hattends : s.attends a = true) (h : s.heard = some (line, rest)) :
    ∃ r : Reader Fault, r.tape = rest ∧
      s.turn cfg a = finish a (processCommand cfg a { s with reader := r } line) := by
  rw [turn_of_attends hattends]
  unfold heard at h
  unfold commandTurn
  rcases hline : s.reader.boundedLine readerSize commandLineLimit with
    ⟨_ | ⟨text, _ | stop⟩, r⟩ <;> rw [hline] at h
  · simp at h
  · cases h
    exact ⟨r, rfl, rfl⟩
  · simp at h

/-- What holds of every way through a turn. -/
theorem turn_cases {P : Session → Prop} (same : P s)
    (closed : ∀ reader replies, P { s with reader := reader, replies := replies, live := false })
    (data : s.state.phase = .data → P (s.dataTurn cfg a))
    (command : ∀ line reader, s.attends a = true → s.heard = some (line, reader.tape) →
      P (finish a (processCommand cfg a { s with reader := reader } line))) :
    P (s.turn cfg a) := by
  fun_cases turn cfg s a with
  | case1 => exact same
  | case2 | case4 => exact closed s.reader s.replies
  | case3 _ _ hphase => exact data hphase
  | case5 hlive hstop hphase =>
    have hattends : s.attends a = true := by simp [attends, hlive, hstop, hphase]
    unfold commandTurn
    rcases hline : s.reader.boundedLine readerSize commandLineLimit with
      ⟨_ | ⟨line, _ | _ | _ | _⟩, r⟩
    · exact closed r _
    · exact command line r hattends (by rw [heard, hline])
    · exact closed r _
    · exact closed r _
    · exact closed r _

end

/-- The session after the turns of `processCommands` with these answers. -/
def run (cfg : Config) (s : Session) (answers : List Answers) : Session :=
  Machine.run (turn cfg) s answers

def start (now : Nat) (conn : List (Arrival Fault)) (store : Queue.Store) : Session :=
  { state := .new
    auth := .new now
    bdatSpool := none
    bdatBytesReceived := 0
    bdatChunkCount := 0
    dataSyncLost := false
    reader := { buffer := [], conn := conn }
    store := store
    replies := [lit "220 " ++ cfg.hostname ++ lit " ESMTP Elemta MTA ready"]
    live := true }

end Session

/-! ## A server on a calm day

Settings and answers for runs on fixed inputs: every outside call succeeds, no scanner
is installed and nothing is refused by policy. -/

def Validators.passing : Validators :=
  { emailHeaders := fun _ => none
    headerParameter := fun _ => none
    addressList := fun address => .ok [address]
    address := fun _ => none
    contentType := fun _ => none
    dataLine := fun _ => none
    headerLine := fun _ => none }

def DeliveryEnv.calm (id : Bytes) : DeliveryEnv :=
  { memoryOk := true
    connectionMemoryOk := true
    checkContent := none
    validators := .passing
    virus := .absent
    spam := .absent
    dmarcRejects := false
    serverHeaders := fun _ _ => lit "Received: by mx.example\r\n"
    signing := .off
    bodyReads := true
    id := id
    receivedAt := 0
    now := 0
    ok := fun _ _ => true }

def Answers.calm (now : Nat) (id : Bytes) : Answers :=
  { stop := false
    flushes := true
    prompts := fun _ => true
    debugDump := fun _ _ => []
    readDeadline := true
    drainDeadline := true
    commandMemoryOk := true
    allocates := fun _ => true
    spills := true
    lineMemoryOk := fun _ => true
    spoolWrites := fun _ => true
    headReads := true
    delivery := .calm id
    handshake := none
    senderRefusal := fun _ _ => none
    mailLimits := fun _ _ => none
    recipientRefusal := fun _ _ _ => none
    now := now
    authRefusal := none
    accountLocked := fun _ => false
    authenticate := fun _ _ => true }

def Config.plain (srs : Option Srs.Rewriter) : Config :=
  { hostname := lit "mx.example"
    maxSize := 1000000
    strictLineEndings := true
    devMode := false
    authEnabled := true
    authRequired := false
    allowPlaintextAuth := false
    localDomains := [lit "here.example"]
    srs := srs
    tlsAvailable := true
    submission := false
    senderPolicies := false
    checks :=
      { headerModeText := lit "reject"
        bodyModeText := lit "reject"
        strictAddressHeaders := false
        rejectInvalidUTF8 := false }
    rejectOnSpam := false
    quarantine := false
    parseIP := fun _ => none
    relayAllowed := false
    isInternal := false
    isLoopback := false }

def arrives : Bytes → List (Arrival Fault)
  | [] => []
  | b :: r => [.data b r]

end Elemta.Smtp
