import Elemta.Foundation.Bytes

/-!
# The state of an SMTP session

`session_state.go`: the phase of the session, the envelope that is being built
and the data transfer mode, with the checks that say which command a state takes.
Times, traffic counters and the list of errors are only logged and are left out.
-/

namespace Elemta.Smtp

open Bytes

inductive Phase where
  | init
  | mail
  | rcpt
  | data
  | auth
  | tls
  | quit
  deriving DecidableEq

/-- BURL is declared in the source and no command sets it. -/
inductive DataTransferMode where
  | none
  | data
  | bdat
  | burl
  deriving DecidableEq

inductive DSNReturn where
  | full
  | headers
  deriving DecidableEq

inductive DSNNotify where
  | never
  | success
  | failure
  | delay
  deriving DecidableEq

def DSNReturn.text : DSNReturn → Bytes
  | .full => lit "FULL"
  | .headers => lit "HDRS"

def DSNNotify.text : DSNNotify → Bytes
  | .never => lit "NEVER"
  | .success => lit "SUCCESS"
  | .failure => lit "FAILURE"
  | .delay => lit "DELAY"

/-- What MAIL FROM asked for; an absent RET or ENVID is empty. -/
structure DSNParams where
  ret : Option DSNReturn
  envID : Bytes
  deriving DecidableEq

structure DSNRecipientParams where
  notify : List DSNNotify
  orcpt : Bytes
  deriving DecidableEq

structure SessionState where
  phase : Phase
  heloName : Bytes
  greeted : Bool
  authenticated : Bool
  username : Bytes
  mailFrom : Bytes
  rcptTo : List Bytes
  dataSize : Nat
  declaredSize : Int
  tlsActive : Bool
  smtputf8 : Bool
  authAttempts : Nat
  messageCount : Nat
  dataTransferMode : DataTransferMode
  dsnParams : Option DSNParams
  dsnRecipientParams : List (Bytes × DSNRecipientParams)
  requireTLS : Bool
  deriving DecidableEq

namespace SessionState

def new : SessionState :=
  { phase := .init
    heloName := []
    greeted := false
    authenticated := false
    username := []
    mailFrom := []
    rcptTo := []
    dataSize := 0
    declaredSize := 0
    tlsActive := false
    smtputf8 := false
    authAttempts := 0
    messageCount := 0
    dataTransferMode := .none
    dsnParams := none
    dsnRecipientParams := []
    requireTLS := false }

def validTransitions : Phase → List Phase
  | .init => [.mail, .auth, .tls, .quit, .init]
  | .mail => [.rcpt, .mail, .init, .quit]
  | .rcpt => [.rcpt, .data, .mail, .init, .quit]
  | .data => [.mail, .init, .quit]
  | .auth => [.init, .mail, .quit]
  | .tls => [.init, .auth, .mail, .quit]
  | .quit => []

def setPhase (s : SessionState) (phase : Phase) : Option SessionState :=
  if (validTransitions s.phase).contains phase then some { s with phase := phase } else none

/-- `AcceptMail`: the whole envelope is replaced at once. -/
def acceptMail (s : SessionState) (mailFrom : Bytes) (declaredSize : Int) (smtpUTF8 : Bool)
    (dsn : Option DSNParams) (requireTLS : Bool) : Option SessionState :=
  if s.phase = .init ∨ s.phase = .mail ∨ s.phase = .rcpt then
    some { s with
      mailFrom := mailFrom
      phase := .rcpt
      rcptTo := []
      declaredSize := declaredSize
      smtputf8 := smtpUTF8
      dsnParams := dsn
      dsnRecipientParams := []
      requireTLS := requireTLS }
  else none

def addRecipient (s : SessionState) (recipient : Bytes) : Option SessionState :=
  if s.phase = .mail ∨ s.phase = .rcpt then
    some { s with rcptTo := s.rcptTo ++ [recipient], phase := .rcpt }
  else none

/-- `SetDSNRecipientParams`: one entry for each address, the last one given. -/
def setDSNRecipientParams (s : SessionState) (addr : Bytes) (params : DSNRecipientParams) :
    SessionState :=
  { s with
    dsnRecipientParams := (addr, params) :: s.dsnRecipientParams.filter fun p => p.1 != addr }

/-- `Reset`: the transaction ends, a greeted client is ready for the next MAIL. -/
def reset (s : SessionState) : SessionState :=
  { s with
    phase := if s.greeted then .mail else .init
    mailFrom := []
    rcptTo := []
    dataSize := 0
    declaredSize := 0
    smtputf8 := false
    dataTransferMode := .none
    dsnParams := none
    dsnRecipientParams := []
    requireTLS := false }

def allowedCommands : Phase → List Bytes
  | .init => [lit "HELO", lit "EHLO", lit "QUIT", lit "RSET", lit "NOOP", lit "HELP", lit "AUTH",
      lit "STARTTLS", lit "VRFY", lit "EXPN", lit "XDEBUG"]
  | .mail => [lit "HELO", lit "EHLO", lit "MAIL", lit "AUTH", lit "STARTTLS", lit "QUIT",
      lit "RSET", lit "NOOP", lit "HELP", lit "VRFY", lit "EXPN", lit "XDEBUG"]
  | .rcpt => [lit "HELO", lit "EHLO", lit "RCPT", lit "QUIT", lit "RSET", lit "NOOP", lit "HELP",
      lit "DATA", lit "BDAT", lit "VRFY", lit "EXPN", lit "XDEBUG"]
  | .data => [lit "QUIT", lit "RSET", lit "NOOP", lit "HELP", lit "XDEBUG"]
  | .auth => [lit "AUTH", lit "QUIT", lit "RSET", lit "NOOP", lit "HELP", lit "XDEBUG"]
  | .tls => [lit "HELO", lit "EHLO", lit "QUIT", lit "RSET", lit "NOOP", lit "HELP", lit "AUTH",
      lit "MAIL", lit "VRFY", lit "EXPN", lit "XDEBUG"]
  | .quit => []

def bdatCommands : List Bytes :=
  [lit "BDAT", lit "RSET", lit "QUIT", lit "NOOP"]

def canAcceptCommand (s : SessionState) (command : Bytes) : Bool :=
  let command := toUpper (trimSpace command)
  if s.dataTransferMode = .bdat then bdatCommands.contains command
  else (allowedCommands s.phase).contains command

def setDataTransferMode (s : SessionState) (mode : DataTransferMode) : Option SessionState :=
  if s.dataTransferMode ≠ .none ∧ s.dataTransferMode ≠ mode then none
  else some { s with dataTransferMode := mode }

/-- `CanAcceptDataCommand`, for the mode that the command asks for. -/
def canAcceptDataCommand (s : SessionState) (mode : DataTransferMode) : Bool :=
  (s.dataTransferMode == .none || s.dataTransferMode == mode) && s.phase == .rcpt

def clearDataTransferMode (s : SessionState) : SessionState :=
  { s with dataTransferMode := .none }

variable {st st' s : SessionState} {mode : DataTransferMode} {command : Bytes}

theorem setPhase_eq {phase : Phase} (h : st.setPhase phase = some st') :
    st' = { st with phase := phase } := by
  unfold setPhase at h
  split at h
  · exact (Option.some.inj h).symm
  · simp at h

theorem setDataTransferMode_eq (h : st.setDataTransferMode mode = some st') :
    (st.dataTransferMode = .none ∨ st.dataTransferMode = mode) ∧
      st' = { st with dataTransferMode := mode } := by
  unfold setDataTransferMode at h
  split at h
  · simp at h
  rename_i hfree
  refine ⟨?_, (Option.some.inj h).symm⟩
  by_contra hne
  rw [not_or] at hne
  exact hfree hne

theorem acceptMail_eq {mailFrom : Bytes} {size : Int} {utf8 tls : Bool}
    {dsn : Option DSNParams} (h : st.acceptMail mailFrom size utf8 dsn tls = some st') :
    st' = { st with
      mailFrom := mailFrom
      phase := .rcpt
      rcptTo := []
      declaredSize := size
      smtputf8 := utf8
      dsnParams := dsn
      dsnRecipientParams := []
      requireTLS := tls } := by
  unfold acceptMail at h
  split at h
  · exact (Option.some.inj h).symm
  · simp at h

theorem addRecipient_eq {recipient : Bytes} (h : st.addRecipient recipient = some st') :
    st' = { st with rcptTo := st.rcptTo ++ [recipient], phase := .rcpt } := by
  unfold addRecipient at h
  split at h
  · exact (Option.some.inj h).symm
  · simp at h

section

variable (h : s.canAcceptCommand command = true)
  (hname : bdatCommands.contains (toUpper (trimSpace command)) = false)

include h hname

/-- While chunks are being sent, only the commands of the transfer are taken. -/
theorem mode_ne_bdat_of_canAcceptCommand : s.dataTransferMode ≠ .bdat := by
  intro hmode
  simp only [canAcceptCommand, hmode, if_true] at h
  rw [h] at hname
  simp at hname

theorem mem_allowedCommands_of_canAcceptCommand :
    (allowedCommands s.phase).contains (toUpper (trimSpace command)) = true := by
  have hmode := mode_ne_bdat_of_canAcceptCommand h hname
  simpa only [canAcceptCommand, hmode, if_false] using h

end

theorem phase_of_mail (h : st.canAcceptCommand (lit "MAIL") = true) :
    st.phase = .mail ∨ st.phase = .tls := by
  have hplace := mem_allowedCommands_of_canAcceptCommand h (by decide +kernel)
  have hphases : ∀ phase, (allowedCommands phase).contains (toUpper (trimSpace (lit "MAIL"))) = true →
      phase = .mail ∨ phase = .tls := by
    intro phase
    cases phase <;> decide +kernel
  exact hphases _ hplace

theorem phase_of_rcpt (h : st.canAcceptCommand (lit "RCPT") = true) : st.phase = .rcpt := by
  have hplace := mem_allowedCommands_of_canAcceptCommand h (by decide +kernel)
  have hphases : ∀ phase, (allowedCommands phase).contains (toUpper (trimSpace (lit "RCPT"))) = true →
      phase = .rcpt := by
    intro phase
    cases phase <;> decide +kernel
  exact hphases _ hplace

theorem phase_of_canAcceptDataCommand (h : s.canAcceptDataCommand mode = true) :
    s.phase = .rcpt := by
  simp only [canAcceptDataCommand, Bool.and_eq_true, beq_iff_eq] at h
  exact h.2

theorem reset_phase_ne : s.reset.phase ≠ .rcpt := by
  cases h : s.greeted <;> simp [reset, h]

@[simp] theorem reset_mode : s.reset.dataTransferMode = .none := rfl

@[simp] theorem reset_rcptTo : s.reset.rcptTo = [] := rfl

@[simp] theorem clearDataTransferMode_mode :
    s.clearDataTransferMode.dataTransferMode = .none := rfl

end SessionState

end Elemta.Smtp
