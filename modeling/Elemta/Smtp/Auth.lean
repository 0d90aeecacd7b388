import Elemta.Foundation.Base64
import Elemta.Smtp.Session

/-!
# Authentication

The AUTH command (`session_auth.go`) and the state machine of `internal/auth`
that stands beside the session's own flag. Failures are also counted per address
and per account in a manager that all sessions share; what it answers is part of
the input.
-/

namespace Elemta.Smtp

open Bytes BufferedReader

/-! ## The state machine -/

namespace AuthMachine

def maxAgeSeconds : Nat := 30 * 60

def maxFailures : Nat := 5

def lockoutSeconds : Nat := 30 * 60

def new (now : Nat) : AuthMachine :=
  { current := .initial, failureCount := 0, lockoutUntil := none, expiresAt := now + maxAgeSeconds }

def isExpired (m : AuthMachine) (now : Nat) : Bool :=
  decide (m.expiresAt < now)

def isLockedOut (m : AuthMachine) (now : Nat) : Bool :=
  m.lockoutUntil.any fun until_ => decide (now < until_)

def isAuthenticated (m : AuthMachine) (now : Nat) : Bool :=
  m.current == .authenticated && !m.isExpired now && !m.isLockedOut now

def validTransition : AuthState → AuthState → Bool
  | .initial, .authenticating => true
  | .authenticating, .authenticated => true
  | .authenticating, .failed => true
  | .failed, .authenticating => true
  | _, _ => false

/-- `TransitionTo`; `none` when the transition is refused. -/
def transitionTo (m : AuthMachine) (now : Nat) (target : AuthState) : Option AuthMachine :=
  if m.isExpired now || !validTransition m.current target || m.isLockedOut now then none
  else
    match target with
    | .failed =>
      let failures := m.failureCount + 1
      some { m with
        current := .failed
        failureCount := failures
        lockoutUntil := if maxFailures ≤ failures then some (now + lockoutSeconds)
          else m.lockoutUntil }
    | .authenticated =>
      some { m with current := .authenticated, failureCount := 0, lockoutUntil := none }
    | _ => some { m with current := target }

/-- A transition whose refusal is only logged. -/
def moved (m : AuthMachine) (now : Nat) (target : AuthState) : AuthMachine :=
  (m.transitionTo now target).getD m

end AuthMachine

/-! ## Credentials -/

def maxAuthAttempts : Nat := 5

def validateBase64Input (input : Bytes) : Bool :=
  input != [] && decide (input.length ≤ 1000) &&
    input.all fun b => isAlnum b || b == 43 || b == 47 || b == 61

def suspiciousUsernamePatterns : List Bytes :=
  [lit "'", lit "\"", lit ";", lit "--", lit "/*", lit "*/", lit "XP_", lit "SP_", lit "UNION",
    lit "SELECT", lit "INSERT", lit "DELETE", lit "UPDATE", lit "DROP", [0], [13], [10]]

def validateAuthenticationData (username password : Bytes) : Bool :=
  username != [] && decide (username.length ≤ 255) &&
    (suspiciousUsernamePatterns.all fun p => !contains (toUpper username) p) &&
    password != [] && decide (password.length ≤ 1000)

namespace Session

def credentialsInvalid : Bytes :=
  lit "535 5.7.8 Authentication credentials invalid"

def plaintextAuthAllowed (cfg : Config) (s : Session) : Bool :=
  cfg.allowPlaintextAuth || s.state.tlsActive || cfg.isLoopback

variable (a : Answers) (s : Session)

/-- `performAuthentication`. Only an answer of the authenticator moves the state machine on. -/
def performAuthentication (username password : Bytes) : Outcome :=
  if validateAuthenticationData username password = false then s.refuse credentialsInvalid
  else if a.accountLocked username then s.refuse (lit "535 5.7.8 Account temporarily locked")
  else if a.authenticate username password then
    (({ s with
        state := { s.state with authenticated := true, username := username }
        auth := s.auth.moved a.now .authenticated }).write
      (lit "235 2.7.0 Authentication successful"),
      if a.prompts 2 then none else some (lit "451 4.3.0 Internal server error"))
  else ({ s with auth := s.auth.moved a.now .failed }).refuse credentialsInvalid

def promptLine (i : Nat) (prompt : Bytes)
    (sending reading : Bytes) : Except Bytes Bytes × Session :=
  let s := s.write prompt
  if a.prompts i = false then (.error (lit "failed to flush " ++ sending ++ lit " prompt"), s)
  else
    match s.reader.readLine readerSize with
    | (some line, r) => (.ok line, { s with reader := r })
    | (none, r) => (.error (lit "failed to read " ++ reading), { s with reader := r })

def decodeResponse (text : Bytes) : Option Bytes :=
  if validateBase64Input text then Base64.decode text else none

/-- `handleAuthPlain` with the response of the client. -/
def authPlainWith (data : Bytes) : Outcome :=
  match (decodeResponse data).map (split [0]) with
  | some [_, username, password] => s.performAuthentication a username password
  | _ => s.refuse credentialsInvalid

def handleAuthPlain (parts : List Bytes) : Outcome :=
  match parts with
  | [_, _, data] => s.authPlainWith a data
  | [_, _] =>
    match s.promptLine a 0 (lit "334 ") (lit "auth") (lit "authentication data") with
    | (.ok data, s) => s.authPlainWith a data
    | (.error e, s) => s.refuse e
  | _ => s.refuse (lit "501 5.5.4 Syntax: AUTH PLAIN [<base64-data>]")

/-- `handleAuthLogin` once the user name is there. -/
def authLoginWith (user : Bytes) : Outcome :=
  match decodeResponse user with
  | none => s.refuse credentialsInvalid
  | some username =>
    match s.promptLine a 1 (lit "334 UGFzc3dvcmQ6") (lit "password") (lit "password") with
    | (.error e, s) => s.refuse e
    | (.ok pass, s) =>
      match decodeResponse pass with
      | none => s.refuse credentialsInvalid
      | some password => s.performAuthentication a username password

def authLoginPrompt : Outcome :=
  match s.promptLine a 0 (lit "334 VXNlcm5hbWU6") (lit "username") (lit "username") with
  | (.ok user, s) => s.authLoginWith a user
  | (.error e, s) => s.refuse e

def handleAuthLogin (parts : List Bytes) : Outcome :=
  match parts[2]? with
  | some user => if user = lit "=" then s.authLoginPrompt a else s.authLoginWith a user
  | none => s.authLoginPrompt a

def runMechanism (method : Bytes) (parts : List Bytes) : Outcome :=
  let s := { s with state := { s.state with authAttempts := s.state.authAttempts + 1 } }
  if maxAuthAttempts < s.state.authAttempts then
    s.refuse (lit "421 4.7.0 Too many authentication attempts")
  else if method = lit "PLAIN" then s.handleAuthPlain a parts
  else s.handleAuthLogin a parts

def handleAUTH (cfg : Config) (a : Answers) (s : Session) (line : Bytes) : Outcome :=
  if s.auth.isAuthenticated a.now then s.refuse (lit "503 5.5.1 Already authenticated")
  else
    match s.auth.transitionTo a.now .authenticating with
    | none => s.refuse (lit "421 4.7.0 Authentication system error")
    | some machine =>
      let s := { s with auth := machine }
      match fields line with
      | _ :: mechanism :: rest =>
        let method := toUpper mechanism
        if [lit "PLAIN", lit "LOGIN"].contains method = false then
          s.refuse (lit "504 5.7.4 Authentication mechanism not supported")
        else if s.plaintextAuthAllowed cfg = false then
          ({ s with auth := s.auth.moved a.now .failed }).refuse
            (lit "538 5.7.11 Encryption required for requested authentication mechanism")
        else
          match a.authRefusal with
          | some e => ({ s with auth := s.auth.moved a.now .failed }).refuse e
          | none => s.runMechanism a method (lit "AUTH" :: mechanism :: rest)
      | _ => s.refuse (lit "501 5.5.4 Syntax: AUTH mechanism")

end Session

end Elemta.Smtp
