import Elemta.Smtp.CommandLines
import Elemta.Smtp.Chunks

/-!
# Exchanges of AUTH

AUTH moves a state machine of its own: it goes to `authenticating` when the command
arrives, and the authenticator's answer moves it on. Every other way out of the handler
leaves it where it is, and from there AUTH is refused for the rest of the connection. The
answers to the prompts are read by a call that gives back no more than its buffer holds.
For exchanges that reach the authenticator, or are refused for the connection, with lines
that fit the buffer, neither happens.
-/

namespace Elemta.Smtp

open Bytes BufferedReader

/-! ## Reading the answers -/

namespace Session

def answerLine (tape : Tape Fault) : Bytes × Tape Fault :=
  (dropLineEnd tape.line.1, tape.line.2.2)

def lineFits (tape : Tape Fault) : Bool :=
  match tape.line with
  | (line, none, _) => decide (line.length ≤ readerSize)
  | _ => false

def plainCredentials (data : Bytes) : Option (Bytes × Bytes) :=
  match (decodeResponse data).map (split [0]) with
  | some [_, username, password] => some (username, password)
  | _ => none

def loginCredentials (user : Bytes) (tape : Tape Fault) : Option (Bytes × Bytes) × Tape Fault :=
  match decodeResponse user with
  | none => (none, tape)
  | some username =>
    ((decodeResponse (answerLine tape).1).map fun password => (username, password),
      (answerLine tape).2)

def exchange (method : Bytes) (parts : List Bytes) (tape : Tape Fault) :
    Option (Bytes × Bytes) × Tape Fault :=
  if method = lit "PLAIN" then
    match parts with
    | [_, _, data] => (plainCredentials data, tape)
    | [_, _] => (plainCredentials (answerLine tape).1, (answerLine tape).2)
    | _ => (none, tape)
  else
    match parts[2]? with
    | some user =>
      if user = lit "=" then loginCredentials (answerLine tape).1 (answerLine tape).2
      else loginCredentials user tape
    | none => loginCredentials (answerLine tape).1 (answerLine tape).2

def loginFits (user : Bytes) (tape : Tape Fault) : Bool :=
  (decodeResponse user).isNone || lineFits tape

def exchangeFits (method : Bytes) (parts : List Bytes) (tape : Tape Fault) : Bool :=
  if method = lit "PLAIN" then
    match parts with
    | [_, _] => lineFits tape
    | _ => true
  else
    match parts[2]? with
    | some user =>
      if user = lit "=" then lineFits tape && loginFits (answerLine tape).1 (answerLine tape).2
      else loginFits user tape
    | none => lineFits tape && loginFits (answerLine tape).1 (answerLine tape).2

variable {a : Answers} {s : Session}

theorem promptLine_of_fits (hfits : lineFits s.reader.tape = true) {i : Nat}
    (hprompt : a.prompts i = true) (prompt sending reading : Bytes) :
    ∃ r : Reader Fault, r.tape = (answerLine s.reader.tape).2 ∧
      s.promptLine a i prompt sending reading =
        (.ok (answerLine s.reader.tape).1, { s.write prompt with reader := r }) := by
  unfold lineFits at hfits
  split at hfits
  · rename_i line rest hline
    obtain ⟨r, hread, hrest⟩ := Reader.readLine_of_line hline (of_decide_eq_true hfits)
    have hread' : (s.write prompt).reader.readLine readerSize = (some (dropLineEnd line), r) := hread
    refine ⟨r, by rw [answerLine, hline, hrest], ?_⟩
    unfold promptLine
    simp only [hprompt, hread', Bool.true_eq_false, if_false]
    rw [answerLine, hline]
  · cases hfits

/-- The outcome of an exchange: the credentials are tried, or the exchange is refused, with the
reader behind the last answer. -/
inductive Exchanged (a : Answers) (s : Session) (tape : Tape Fault) :
    Option (Bytes × Bytes) → Outcome → Prop where
  | tried (username password : Bytes) (reader : Reader Fault) (replies : List Bytes)
    (behind : reader.tape = tape) :
    Exchanged a s tape (some (username, password))
      (({ s with reader := reader, replies := replies }).performAuthentication a username password)
  | refused (e : Bytes) (reader : Reader Fault) (replies : List Bytes)
    (behind : reader.tape = tape) :
    Exchanged a s tape none ({ s with reader := reader, replies := replies }, some e)

variable {reader : Reader Fault} {replies : List Bytes}

theorem exchanged_authPlainWith (data : Bytes) {tape : Tape Fault} (hbehind : reader.tape = tape) :
    Exchanged a s tape (plainCredentials data)
      (({ s with reader := reader, replies := replies }).authPlainWith a data) := by
  unfold plainCredentials authPlainWith
  rcases (decodeResponse data).map (split [0]) with
    _ | _ | ⟨identity, _ | ⟨username, _ | ⟨password, _ | ⟨more, parts⟩⟩⟩⟩
  · exact .refused _ reader replies hbehind
  · exact .refused _ reader replies hbehind
  · exact .refused _ reader replies hbehind
  · exact .refused _ reader replies hbehind
  · exact .tried username password reader replies hbehind
  · exact .refused _ reader replies hbehind

theorem handleAuthPlain_of_undecoded {t : Session} {name mechanism data : Bytes}
    (hread : s.promptLine a 0 (lit "334 ") (lit "auth") (lit "authentication data") = (.ok data, t))
    (hdata : decodeResponse data = none) :
    s.handleAuthPlain a [name, mechanism] = (t, some credentialsInvalid) := by
  simp only [handleAuthPlain, hread, authPlainWith, hdata, Option.map_none]
  rfl

theorem exchanged_authLoginWith {user : Bytes}
    (hfits : loginFits user reader.tape = true) (hprompt : a.prompts 1 = true) :
    Exchanged a s (loginCredentials user reader.tape).2 (loginCredentials user reader.tape).1
      (({ s with reader := reader, replies := replies }).authLoginWith a user) := by
  unfold loginCredentials authLoginWith
  cases huser : decodeResponse user with
  | none => exact .refused _ reader replies rfl
  | some username =>
    have hline : lineFits reader.tape = true := by
      simpa [loginFits, huser] using hfits
    obtain ⟨r, hrest, hread⟩ := promptLine_of_fits
      (s := { s with reader := reader, replies := replies }) hline hprompt (lit "334 UGFzc3dvcmQ6")
      (lit "password") (lit "password")
    rw [hread]
    dsimp only
    cases hpass : decodeResponse (answerLine reader.tape).1 with
    | none => exact .refused _ r _ hrest
    | some password => exact .tried username password r _ hrest

theorem exchanged_authLoginPrompt (hline : lineFits s.reader.tape = true)
    (hfits : loginFits (answerLine s.reader.tape).1 (answerLine s.reader.tape).2 = true)
    (hprompts : a.prompts 0 = true ∧ a.prompts 1 = true) :
    Exchanged a s
      (loginCredentials (answerLine s.reader.tape).1 (answerLine s.reader.tape).2).2
      (loginCredentials (answerLine s.reader.tape).1 (answerLine s.reader.tape).2).1
      (s.authLoginPrompt a) := by
  obtain ⟨r, hrest, hread⟩ := promptLine_of_fits hline hprompts.1 (lit "334 VXNlcm5hbWU6")
    (lit "username") (lit "username")
  rw [← hrest] at hfits ⊢
  unfold authLoginPrompt
  rw [hread]
  exact exchanged_authLoginWith hfits hprompts.2

/-- The mechanism does what the lines of the exchange say. -/
theorem exchanged_mechanism (s : Session) (method : Bytes) (parts : List Bytes)
    (hfits : exchangeFits method parts s.reader.tape = true)
    (hprompts : a.prompts 0 = true ∧ a.prompts 1 = true) :
    Exchanged a s (exchange method parts s.reader.tape).2 (exchange method parts s.reader.tape).1
      (if method = lit "PLAIN" then s.handleAuthPlain a parts else s.handleAuthLogin a parts) := by
  unfold exchange
  unfold exchangeFits at hfits
  by_cases hplain : method = lit "PLAIN"
  · rw [if_pos hplain] at hfits
    rw [if_pos hplain, if_pos hplain]
    rcases parts with _ | ⟨name, _ | ⟨mechanism, _ | ⟨data, _ | ⟨more, parts⟩⟩⟩⟩
    · exact .refused _ s.reader s.replies rfl
    · exact .refused _ s.reader s.replies rfl
    · obtain ⟨r, hrest, hread⟩ := promptLine_of_fits hfits hprompts.1 (lit "334 ") (lit "auth")
        (lit "authentication data")
      simp only [handleAuthPlain, hread]
      exact exchanged_authPlainWith _ hrest
    · exact exchanged_authPlainWith data rfl
    · exact .refused _ s.reader s.replies rfl
  · rw [if_neg hplain] at hfits
    rw [if_neg hplain, if_neg hplain, handleAuthLogin]
    cases huser : parts[2]? with
    | none =>
      simp only [huser, Bool.and_eq_true] at hfits
      exact exchanged_authLoginPrompt hfits.1 hfits.2 hprompts
    | some user =>
      simp only [huser] at hfits
      dsimp only
      by_cases hempty : user = lit "="
      · rw [if_pos hempty, Bool.and_eq_true] at hfits
        rw [if_pos hempty, if_pos hempty]
        exact exchanged_authLoginPrompt hfits.1 hfits.2 hprompts
      · rw [if_neg hempty] at hfits
        rw [if_neg hempty, if_neg hempty]
        exact exchanged_authLoginWith hfits hprompts.2

end Session

/-! ## The state machine -/

namespace AuthMachine

/-- No exchange is under way, and only failures lock the machine. -/
structure Settled (m : AuthMachine) : Prop where
  current : m.current ≠ .authenticating
  lockout : m.lockoutUntil ≠ none → maxFailures ≤ m.failureCount

variable {m m' : AuthMachine} {now : Nat}

theorem transitionTo_authenticating (h : m.transitionTo now .authenticating = some m') :
    m' = { m with current := .authenticating } ∧ m.isExpired now = false ∧
      m.isLockedOut now = false := by
  unfold transitionTo at h
  split at h
  · cases h
  · rename_i hallowed
    simp only [Bool.or_eq_true, not_or, Bool.not_eq_true] at hallowed
    exact ⟨(Option.some.inj h).symm, hallowed.1.1, hallowed.2⟩

/-- An exchange that the machine has begun can be ended. -/
theorem moved_of_begun (h : m.transitionTo now .authenticating = some m') :
    m'.moved now .failed = { m with
      current := .failed
      failureCount := m.failureCount + 1
      lockoutUntil :=
        if maxFailures ≤ m.failureCount + 1 then some (now + lockoutSeconds) else m.lockoutUntil } ∧
    m'.moved now .authenticated = { m with
      current := .authenticated, failureCount := 0, lockoutUntil := none } := by
  obtain ⟨rfl, hage, hlocked⟩ := transitionTo_authenticating h
  have hage' : ({ m with current := .authenticating } : AuthMachine).isExpired now = false := hage
  have hlocked' : ({ m with current := .authenticating } : AuthMachine).isLockedOut now = false :=
    hlocked
  constructor
  · simp [moved, transitionTo, hage', hlocked', validTransition]
  · simp [moved, transitionTo, hage', hlocked', validTransition]

theorem Settled.ended (hm : m.Settled) (h : m.transitionTo now .authenticating = some m') :
    (m'.moved now .failed).Settled ∧ (m'.moved now .authenticated).Settled := by
  obtain ⟨hfailed, hdone⟩ := moved_of_begun h
  rw [hfailed, hdone]
  refine ⟨⟨by simp, fun hlocked => ?_⟩, ⟨by simp, fun hlocked => absurd rfl hlocked⟩⟩
  split at hlocked
  · assumption
  · exact Nat.le_succ_of_le (hm.lockout hlocked)

/-- A settled machine takes another exchange while it is young and not locked. -/
theorem Settled.begins (hm : m.Settled) (hcurrent : m.current ≠ .authenticated)
    (hage : m.isExpired now = false) (hfailures : m.failureCount < maxFailures) :
    m.transitionTo now .authenticating = some { m with current := .authenticating } := by
  have hnone : m.lockoutUntil = none := by
    by_contra hlocked
    have hmany := hm.lockout hlocked
    omega
  have hlocked : m.isLockedOut now = false := by
    rw [isLockedOut, hnone]
    rfl
  have hvalid : validTransition m.current .authenticating = true := by
    have hbusy := hm.current
    cases hstate : m.current with
    | initial => rfl
    | failed => rfl
    | authenticating => exact absurd hstate hbusy
    | authenticated => exact absurd hstate hcurrent
  simp [transitionTo, hage, hvalid, hlocked]

end AuthMachine

namespace Session

variable {cfg : Config} {a : Answers} {s : Session}

/-! ## What the other commands leave alone -/

theorem auth_finish (o : Outcome) : (finish a o).auth = o.1.auth :=
  finish_keeps auth (fun _ => rfl) (fun _ _ => rfl) a o

theorem auth_handleBDAT (hlive : s.live = true) (args : Bytes) :
    (s.handleBDAT cfg a args).1.auth = s.auth := by
  unfold handleBDAT
  split
  · rfl
  rename_i size isLast hparse
  have h := transferred cfg a hlive size isLast
  generalize s.transferChunk cfg a size isLast = o at h ⊢
  cases h <;> rfl

theorem auth_handleMAIL (args : Bytes) : (s.handleMAIL cfg a args).1.auth = s.auth := by
  obtain ⟨e, h⟩ | ⟨p, st, -, -, h⟩ := handleMAIL_cases cfg a s args
  · rw [h]
  · rw [h]
    rfl

theorem auth_handleRCPT (args : Bytes) : (s.handleRCPT cfg a args).1.auth = s.auth := by
  fun_cases handleRCPT cfg a s args with
  | case5 => unfold acceptRecipient; split <;> rfl
  | _ => rfl

theorem auth_handleGreeting (name args : Bytes)
    {answer : Session → Session} (hanswer : ∀ t, (answer t).auth = t.auth) :
    (s.handleGreeting cfg name args answer).1.auth = s.auth := by
  unfold handleGreeting
  split
  · rfl
  split
  · rfl
  · exact hanswer _

theorem auth_dispatch (cfg : Config) (a : Answers) (hlive : s.live = true) (line : Bytes)
    {cmd : Bytes} (hcmd : cmd ≠ lit "AUTH") (args : Bytes) :
    (s.dispatch cfg a line cmd args).1.auth = s.auth := by
  apply dispatch_cases (P := fun o => o.1.auth = s.auth)
  case helo => exact fun _ => auth_handleGreeting _ args fun _ => rfl
  case ehlo => exact fun _ => auth_handleGreeting _ args fun _ => rfl
  case mail => exact fun _ => auth_handleMAIL args
  case rcpt => exact fun _ => auth_handleRCPT args
  case data => fun_cases handleDATA a s <;> rfl
  case bdat => exact fun _ => auth_handleBDAT hlive args
  case rset => rfl
  case noop => rfl
  case quit => rfl
  case auth => exact fun h => absurd h hcmd
  case starttls =>
    intro _
    fun_cases handleSTARTTLS cfg a s <;> rfl
  case help => rfl
  case vrfy => rfl
  case expn => rfl
  case xdebug =>
    unfold handleXDEBUG
    split <;> rfl
  case unknown => rfl

theorem auth_dataTurn : (s.dataTurn cfg a).auth = s.auth := by
  unfold dataTurn handleDataPhase
  obtain ⟨content, reader, hread⟩ | ⟨e, reader, lost, hread⟩ := readMessage_cases cfg a s
  · rw [hread]
    dsimp only
    obtain ⟨e, hspool⟩ | ⟨st, store, -, hdone⟩ := processSpool_cases cfg a
      { s with reader := reader, state := { s.state with dataSize := content.length } } content
    · rw [hspool]
      dsimp only
      split <;> rfl
    · rw [hdone]
      rfl
  · rw [hread]
    dsimp only [refuse]
    split <;> rfl

/-! ## The turn of an AUTH command -/

def authLine (cfg : Config) (a : Answers) (s : Session) : Option (Bytes × Tape Fault) :=
  if s.attends a then
    s.heard.filter fun heard => (splitCommand heard.1).1 == lit "AUTH" &&
      (Validator.validateCommand cfg.parseIP a.commandMemoryOk heard.1).isNone &&
      s.state.canAcceptCommand (lit "AUTH")
  else none

variable {line password username method : Bytes} {rest : Tape Fault} {parts : List Bytes}

theorem authLine_eq_some :
    s.authLine cfg a = some (line, rest) ↔ s.attends a = true ∧ s.heard = some (line, rest) ∧
      (splitCommand line).1 = lit "AUTH" ∧
      Validator.validateCommand cfg.parseIP a.commandMemoryOk line = none ∧
      s.state.canAcceptCommand (lit "AUTH") = true := by
  unfold authLine
  by_cases hattends : s.attends a = true
  · simp [hattends, Option.filter_eq_some_iff, and_assoc]
  · simp [hattends]

theorem turn_of_authLine (h : s.authLine cfg a = some (line, rest)) :
    ∃ r : Reader Fault, r.tape = rest ∧
      s.turn cfg a = finish a (handleAUTH cfg a { s with reader := r } line) := by
  obtain ⟨hattends, hheard, hname, hvalid, hplace⟩ := authLine_eq_some.1 h
  obtain ⟨r, hrest, hturn⟩ := turn_of_heard cfg hattends hheard
  refine ⟨r, hrest, ?_⟩
  rw [hturn]
  simp only [processCommand, hvalid, processParsed, hname, hplace, dispatch_named]
  rfl

theorem auth_of_no_authLine (h : s.authLine cfg a = none) : (s.turn cfg a).auth = s.auth := by
  apply turn_cases (P := fun t => t.auth = s.auth)
  case same => rfl
  case closed => exact fun _ _ => rfl
  case data => exact fun _ => auth_dataTurn
  case command =>
    intro line r hattends hheard
    rw [auth_finish]
    obtain ⟨e, reader, lost, hres⟩ | ⟨hvalid, hplace, hres⟩ :=
      processCommand_cases cfg a { s with reader := r } line
    · rw [hres]
    rw [hres]
    refine auth_dispatch (s := { s with reader := r }) cfg a (live_of_attends hattends) line
      (fun hname => ?_) _
    -- the line would be one for the handler of AUTH
    rw [hname] at hplace
    have hsome := authLine_eq_some.2 ⟨hattends, hheard, hname, hvalid, hplace⟩
    rw [h] at hsome
    cases hsome

/-! ## Exchanges that end -/

def mechanisms : List Bytes :=
  [lit "PLAIN", lit "LOGIN"]

def reachesAuthenticator (a : Answers) (s : Session) (method : Bytes)
    (parts : List Bytes) (tape : Tape Fault) : Bool :=
  decide (s.state.authAttempts < maxAuthAttempts) && a.prompts 0 && a.prompts 1 &&
    exchangeFits method parts tape &&
    (exchange method parts tape).1.any fun credentials =>
      validateAuthenticationData credentials.1 credentials.2 && !a.accountLocked credentials.1

/-- The exchange is refused for the connection, or it comes as far as the authenticator. -/
def settles (cfg : Config) (a : Answers) (s : Session) (line : Bytes) (tape : Tape Fault) : Bool :=
  match fields line with
  | _ :: mechanism :: rest =>
    mechanisms.contains (toUpper mechanism) &&
      (!s.plaintextAuthAllowed cfg || a.authRefusal.isSome ||
        s.reachesAuthenticator a (toUpper mechanism) (lit "AUTH" :: mechanism :: rest) tape)
  | _ => false

def SettlesAuth (cfg : Config) (s : Session) (a : Answers) : Prop :=
  ∀ heard ∈ s.authLine cfg a, s.settles cfg a heard.1 heard.2 = true

instance (cfg : Config) (s : Session) (a : Answers) : Decidable (SettlesAuth cfg s a) :=
  inferInstanceAs (Decidable (∀ heard ∈ s.authLine cfg a, s.settles cfg a heard.1 heard.2 = true))

theorem performAuthentication_eq (hvalid : validateAuthenticationData username password = true)
    (hopen : a.accountLocked username = false) :
    s.performAuthentication a username password =
      if a.authenticate username password then
        (({ s with
          state := { s.state with authenticated := true, username := username }
          auth := s.auth.moved a.now .authenticated }).write
            (lit "235 2.7.0 Authentication successful"),
          if a.prompts 2 then none else some (lit "451 4.3.0 Internal server error"))
      else ({ s with auth := s.auth.moved a.now .failed }, some credentialsInvalid) := by
  rw [performAuthentication, if_neg (by simp [hvalid]), if_neg (by simp [hopen])]
  rfl

theorem runMechanism_of_reaches (h : s.reachesAuthenticator a method parts s.reader.tape = true) :
    ∃ username password reader replies,
      (exchange method parts s.reader.tape).1 = some (username, password) ∧
      validateAuthenticationData username password = true ∧ a.accountLocked username = false ∧
      reader.tape = (exchange method parts s.reader.tape).2 ∧
      s.runMechanism a method parts = performAuthentication a { s with
        state := { s.state with authAttempts := s.state.authAttempts + 1 }
        reader := reader
        replies := replies } username password := by
  simp only [reachesAuthenticator, Bool.and_eq_true, decide_eq_true_eq, Option.any_eq_true] at h
  obtain ⟨⟨⟨⟨hattempts, hfirst⟩, hsecond⟩, hfits⟩, ⟨username, password⟩, hsome, hvalid, hopen⟩ := h
  have hexchanged := exchanged_mechanism
    { s with state := { s.state with authAttempts := s.state.authAttempts + 1 } } method parts hfits
    ⟨hfirst, hsecond⟩
  unfold runMechanism
  rw [if_neg (Nat.not_lt.2 hattempts)]
  rw [hsome] at hexchanged
  generalize hout : (if method = lit "PLAIN" then _ else _ : Outcome) = o at hexchanged ⊢
  cases hexchanged with
  | tried _ _ reader replies behind =>
    exact ⟨username, password, reader, replies, hsome, hvalid, by simpa using hopen, behind, rfl⟩

theorem handleAUTH_of_admitted {word mechanism : Bytes} {rest : List Bytes}
    {machine : AuthMachine} (hfresh : s.auth.isAuthenticated a.now = false)
    (hbegun : s.auth.transitionTo a.now .authenticating = some machine)
    (hfields : fields line = word :: mechanism :: rest) (hmethod : toUpper mechanism ∈ mechanisms)
    (hplain : s.plaintextAuthAllowed cfg = true) (hrefusal : a.authRefusal = none) :
    s.handleAUTH cfg a line = runMechanism a { s with auth := machine } (toUpper mechanism)
      (lit "AUTH" :: mechanism :: rest) := by
  have henabled : [lit "PLAIN", lit "LOGIN"].contains (toUpper mechanism) = true :=
    List.contains_iff_mem.2 hmethod
  have hclear : plaintextAuthAllowed cfg { s with auth := machine } = true := hplain
  simp only [handleAUTH, hfresh, hbegun, hfields, henabled, hclear, hrefusal, Bool.true_eq_false,
    Bool.false_eq_true, if_false]

/-- An exchange that ends leaves the machine ready for the next one. -/
theorem settled_handleAUTH (hs : s.auth.Settled) (h : s.settles cfg a line s.reader.tape = true) :
    (s.handleAUTH cfg a line).1.auth.Settled := by
  unfold handleAUTH
  split
  · exact hs
  split
  · exact hs
  rename_i machine hbegun
  obtain ⟨hfailed, hdone⟩ := hs.ended hbegun
  unfold settles at h
  split
  · rename_i word mechanism rest hfields
    rw [hfields] at h
    simp only [Bool.and_eq_true, Bool.or_eq_true, Bool.not_eq_true'] at h
    obtain ⟨hmethod, hends⟩ := h
    have henabled : ¬ [lit "PLAIN", lit "LOGIN"].contains (toUpper mechanism) = false := by
      rw [show [lit "PLAIN", lit "LOGIN"] = mechanisms from rfl, hmethod]
      decide
    rw [if_neg henabled]
    split
    · exact hfailed
    rename_i hplain
    split
    · exact hfailed
    rename_i hrefusal
    have hreaches : reachesAuthenticator a { s with auth := machine } (toUpper mechanism)
        (lit "AUTH" :: mechanism :: rest) s.reader.tape = true := by
      rcases hends with (hclear | hsome) | hreaches
      · exact absurd hclear hplain
      · rw [hrefusal] at hsome
        cases hsome
      · exact hreaches
    obtain ⟨username, password, reader, replies, -, hvalid, hopen, -, hrun⟩ :=
      runMechanism_of_reaches hreaches
    rw [hrun, performAuthentication_eq hvalid hopen]
    split
    · exact hdone
    · exact hfailed
  · rename_i hshort
    split at h
    · rename_i word mechanism rest hfields
      exact absurd hfields (hshort word mechanism rest)
    · cases h

theorem settled_turn (hs : s.auth.Settled) (h : SettlesAuth cfg s a) :
    (s.turn cfg a).auth.Settled := by
  cases hline : s.authLine cfg a with
  | none =>
    rw [auth_of_no_authLine hline]
    exact hs
  | some heard =>
    obtain ⟨line, rest⟩ := heard
    obtain ⟨r, rfl, hturn⟩ := turn_of_authLine hline
    rw [hturn, auth_finish]
    exact settled_handleAUTH hs (h (line, r.tape) hline)

/-! ## Later exchanges -/

/-- A well-formed AUTH with correct credentials is next, of a client that may still try. -/
structure OffersLogin (cfg : Config) (a : Answers) (s : Session) (username password : Bytes) :
    Prop where
  command : ∃ line tape word mechanism rest, s.authLine cfg a = some (line, tape) ∧
    fields line = word :: mechanism :: rest ∧ toUpper mechanism ∈ mechanisms ∧
    exchangeFits (toUpper mechanism) (lit "AUTH" :: mechanism :: rest) tape = true ∧
    (exchange (toUpper mechanism) (lit "AUTH" :: mechanism :: rest) tape).1 =
      some (username, password)
  valid : validateAuthenticationData username password = true
  correct : a.authenticate username password = true
  admitted : s.plaintextAuthAllowed cfg = true ∧ a.authRefusal = none ∧
    a.accountLocked username = false
  connected : ∀ i, a.prompts i = true
  attempts : s.state.authAttempts < maxAuthAttempts
  failures : s.auth.failureCount < AuthMachine.maxFailures
  young : s.auth.isExpired a.now = false
  fresh : s.auth.current ≠ .authenticated

def loggedIn : Bytes :=
  lit "235 2.7.0 Authentication successful"

theorem OffersLogin.accepted (h : s.OffersLogin cfg a username password) (hs : s.auth.Settled) :
    (s.turn cfg a).state.authenticated = true ∧ (s.turn cfg a).state.username = username ∧
      (s.turn cfg a).replies.getLast? = some loggedIn := by
  obtain ⟨line, tape, word, mechanism, rest, hline, hfields, hmethod, hfits, hsent⟩ := h.command
  obtain ⟨hplain, hrefusal, hopen⟩ := h.admitted
  obtain ⟨r, rfl, hturn⟩ := turn_of_authLine hline
  have hfresh : s.auth.isAuthenticated a.now = false := by
    simp [AuthMachine.isAuthenticated, h.fresh]
  have hbegins := hs.begins h.fresh h.young h.failures
  have hreaches : reachesAuthenticator a
      { s with auth := { s.auth with current := .authenticating }, reader := r } (toUpper mechanism)
      (lit "AUTH" :: mechanism :: rest) r.tape = true := by
    have hattempts : decide (s.state.authAttempts < maxAuthAttempts) = true :=
      decide_eq_true h.attempts
    simp [reachesAuthenticator, hattempts, h.connected, hfits, hsent, h.valid, hopen]
  obtain ⟨username', password', reader, replies, hsent', -, -, -, hrun⟩ :=
    runMechanism_of_reaches hreaches
  rw [hsent] at hsent'
  cases hsent'
  have hhandle := handleAUTH_of_admitted (s := { s with reader := r }) hfresh hbegins
    hfields hmethod hplain hrefusal
  rw [hturn, hhandle, hrun, performAuthentication_eq h.valid hopen, if_pos h.correct,
    if_pos (h.connected 2)]
  refine ⟨?_, ?_, ?_⟩
  · exact congrArg (fun c => c.state.authenticated) (core_finish a _)
  · exact congrArg (fun c => c.state.username) (core_finish a _)
  · rw [replies_finish_none]
    exact List.getLast?_concat ..

structure RunsExchange (cfg : Config) (a : Answers) (s : Session) (method : Bytes)
    (parts : List Bytes) (tape : Tape Fault) : Prop where
  command : ∃ line word mechanism rest machine, s.authLine cfg a = some (line, tape) ∧
    fields line = word :: mechanism :: rest ∧ toUpper mechanism ∈ mechanisms ∧
    method = toUpper mechanism ∧ parts = lit "AUTH" :: mechanism :: rest ∧
    s.auth.isAuthenticated a.now = false ∧
    s.auth.transitionTo a.now .authenticating = some machine
  admitted : s.plaintextAuthAllowed cfg = true ∧ a.authRefusal = none ∧
    s.state.authAttempts < maxAuthAttempts
  connected : ∀ i, a.prompts i = true
  fits : exchangeFits method parts tape = true

theorem reader_finish (o : Outcome) : (finish a o).reader = o.1.reader :=
  finish_keeps reader (fun _ => rfl) (fun _ _ => rfl) a o

theorem reader_performAuthentication (username password : Bytes) :
    (s.performAuthentication a username password).1.reader = s.reader := by
  fun_cases performAuthentication a s username password <;> rfl

theorem RunsExchange.behind {tape : Tape Fault} (h : s.RunsExchange cfg a method parts tape) :
    (s.turn cfg a).reader.tape = (exchange method parts tape).2 := by
  obtain ⟨line, word, mechanism, rest, machine, hline, hfields, hmethod, rfl, rfl, hfresh, hbegun⟩ :=
    h.command
  obtain ⟨hplain, hrefusal, hattempts⟩ := h.admitted
  obtain ⟨r, rfl, hturn⟩ := turn_of_authLine hline
  have hhandle := handleAUTH_of_admitted (s := { s with reader := r }) hfresh hbegun
    hfields hmethod hplain hrefusal
  have hexchanged := exchanged_mechanism
    { s with
      auth := machine
      reader := r
      state := { s.state with authAttempts := s.state.authAttempts + 1 } }
    (toUpper mechanism) (lit "AUTH" :: mechanism :: rest) h.fits ⟨h.connected 0, h.connected 1⟩
  rw [hturn, reader_finish, hhandle, runMechanism, if_neg (Nat.not_lt.2 hattempts)]
  generalize hout : (if toUpper mechanism = lit "PLAIN" then _ else _ : Outcome) = o
    at hexchanged ⊢
  generalize (exchange (toUpper mechanism) (lit "AUTH" :: mechanism :: rest) r.tape).1 = credentials
    at hexchanged
  cases hexchanged with
  | tried username password reader replies behind =>
    rw [reader_performAuthentication]
    exact behind
  | refused e reader replies behind => exact behind

/-- Whatever exchanges a connection has had, as long as each of them ended: a later AUTH with
correct credentials is accepted; and every line that answers a prompt is taken as a whole. -/
theorem auth_recovers (cfg : Config) (now : Nat) (conn : List (Arrival Fault))
    (store : Queue.Store) (answers : List Answers)
    (h : Machine.Along (Session.turn cfg) (SettlesAuth cfg) (start cfg now conn store) answers) :
    (∀ a username password,
      (run cfg (start cfg now conn store) answers).OffersLogin cfg a username password →
      ((run cfg (start cfg now conn store) answers).turn cfg a).state.authenticated = true ∧
        ((run cfg (start cfg now conn store) answers).turn cfg a).state.username = username ∧
        ((run cfg (start cfg now conn store) answers).turn cfg a).replies.getLast? =
          some loggedIn) ∧
    ∀ a method parts tape,
      (run cfg (start cfg now conn store) answers).RunsExchange cfg a method parts tape →
      ((run cfg (start cfg now conn store) answers).turn cfg a).reader.tape =
        (exchange method parts tape).2 := by
  have hsettled : (run cfg (start cfg now conn store) answers).auth.Settled := by
    refine h.run_invariant (fun s => s.auth.Settled) (fun s a hs hinv => settled_turn hinv hs) ?_
    exact ⟨fun hbusy => (by cases hbusy), fun hlocked => absurd rfl hlocked⟩
  exact ⟨fun a username password hoffers => hoffers.accepted hsettled,
    fun a method parts tape hruns => hruns.behind⟩

end Session

def loginServer : Config :=
  { Config.plain none with allowPlaintextAuth := true }

def oneUser : Answers :=
  { Answers.calm 0 (lit "m1") with
    authenticate := fun username password => username == lit "u" && password == lit "p" }

def loginSession (lines : Bytes) (turns : Nat) : Session :=
  Session.run loginServer
    (Session.start loginServer 0 (arrives (lit "EHLO c.example\r\n" ++ lines)) .empty)
    (List.replicate turns oneUser)

theorem auth_recovers_login :
    ((loginSession (lit "AUTH PLAIN AHUAeA==\r\nAUTH LOGIN\r\ndQ==\r\ncA==\r\nNOOP\r\n") 2).turn
        loginServer oneUser).state.username = lit "u" ∧
      ((loginSession (lit "AUTH PLAIN AHUAeA==\r\nAUTH LOGIN\r\ndQ==\r\ncA==\r\nNOOP\r\n") 2).turn
        loginServer oneUser).reader.tape = Tape.ofBytes (lit "NOOP\r\n") := by
  obtain ⟨haccepted, hbehind⟩ := Session.auth_recovers loginServer 0
    (arrives (lit "EHLO c.example\r\n" ++
      lit "AUTH PLAIN AHUAeA==\r\nAUTH LOGIN\r\ndQ==\r\ncA==\r\nNOOP\r\n")) .empty
    (List.replicate 2 oneUser) (by decide +kernel)
  refine ⟨(haccepted oneUser (lit "u") (lit "p") ⟨⟨lit "AUTH LOGIN\r\n",
    Tape.ofBytes (lit "dQ==\r\ncA==\r\nNOOP\r\n"), lit "AUTH", lit "LOGIN", [],
    by decide +kernel, by decide +kernel, by decide +kernel, by decide +kernel, by decide +kernel⟩,
    by decide +kernel, by decide +kernel, by decide +kernel, fun _ => rfl, by decide +kernel,
    by decide +kernel, by decide +kernel, by decide +kernel⟩).2.1, ?_⟩
  refine (hbehind oneUser (lit "LOGIN") [lit "AUTH", lit "LOGIN"]
    (Tape.ofBytes (lit "dQ==\r\ncA==\r\nNOOP\r\n")) ⟨⟨lit "AUTH LOGIN\r\n", lit "AUTH", lit "LOGIN", [],
      { AuthMachine.new 0 with current := .authenticating, failureCount := 1 },
      by decide +kernel, by decide +kernel, by decide +kernel, by decide +kernel, rfl,
      by decide +kernel, by decide +kernel⟩, by decide +kernel, fun _ => rfl, by decide +kernel⟩).trans ?_
  decide +kernel

/-- A session whose client answers the prompt with a bufferful of text and `NOOP` behind it, on one
line. -/
def longAnswer : Session :=
  { Session.start loginServer 0 [] .empty with
    reader := ⟨[], .data 65 (List.replicate 4095 65) :: arrives (lit "NOOP\r\n")⟩ }

theorem longAnswer_prompt :
    longAnswer.promptLine oneUser 0 (lit "334 ") (lit "auth") (lit "authentication data") =
      (.ok (List.replicate 4096 65), { longAnswer.write (lit "334 ") with
        reader := ⟨[], arrives (lit "NOOP\r\n")⟩ }) := by
  have htext : (65 :: List.replicate 4095 65 : Bytes) = List.replicate 4096 65 := rfl
  have hread : longAnswer.reader.readLine readerSize =
      (some (65 :: List.replicate 4095 65), ⟨[], arrives (lit "NOOP\r\n")⟩) := by
    refine Reader.readLine_of_full (by decide) ?_ (cutLine_of_notMem ?_) ?_ _
    · rw [List.length_cons, List.length_replicate]
      rfl
    · rw [htext, List.mem_replicate]
      exact fun h => absurd h.2 (by decide)
    · rw [htext, List.getLast?_replicate]
      decide
  have hprompt : oneUser.prompts 0 = true := rfl
  have hread' : (longAnswer.write (lit "334 ")).reader.readLine readerSize = _ := hread
  simp only [Session.promptLine, hprompt, hread', Bool.true_eq_false, if_false, htext]

/-- After a cancelled exchange the right password is refused; and of an answer longer than the
buffer the end is heard as a command. -/
theorem exchanges_left_open :
    ((loginSession (lit "AUTH PLAIN AHUAcA==\r\n") 2).replies.getLast? =
        some (lit "235 2.7.0 Authentication successful") ∧
      (loginSession (lit "AUTH PLAIN\r\n*\r\nAUTH PLAIN AHUAcA==\r\n") 3).replies.getLast? =
        some (lit "421 4.7.0 Authentication system error")) ∧
    ∃ t e, longAnswer.handleAuthPlain oneUser [lit "AUTH", lit "PLAIN"] = (t, some e) ∧
      t.heard = some (lit "NOOP\r\n", []) := by
  refine ⟨by decide +kernel, { longAnswer.write (lit "334 ") with
    reader := ⟨[], arrives (lit "NOOP\r\n")⟩ }, Session.credentialsInvalid, ?_, ?_⟩
  · have hlong : Session.decodeResponse (List.replicate 4096 65) = none := by
      have hlength : decide ((List.replicate 4096 (65 : UInt8)).length ≤ 1000) = false := by
        rw [List.length_replicate]
        decide
      rw [Session.decodeResponse, validateBase64Input, hlength]
      rfl
    exact Session.handleAuthPlain_of_undecoded longAnswer_prompt hlong
  · have hheard : ({ Session.start loginServer 0 [] .empty with
        reader := ⟨[], arrives (lit "NOOP\r\n")⟩ } : Session).heard = some (lit "NOOP\r\n", []) := by
      decide +kernel
    exact hheard

end Elemta.Smtp
