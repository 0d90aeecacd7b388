import Elemta.Foundation.BufferedReader
import Elemta.Smtp.Acceptance
import Elemta.Smtp.Validator

/-!
# Sessions and chunks

A session with its connection (`session.go`), and the part of the data handler
that reads chunks (`session_data.go`). The answers of the outside world during
one turn of the command loop are one record, so a turn is a function.

Replies are collected in the order they are written. A write that fails leaves
the buffered writer failing and shows at the next flush, which ends the session.
-/

namespace Elemta.Smtp

open Bytes BufferedReader

/-- Errors of a read other than the end of the connection. -/
inductive Fault where
  | timeout
  | broken
  deriving DecidableEq

def readerSize : Nat := 4096

/-! ## The authentication state machine -/

/-- The states of `auth.SessionStateMachine` that a session can get into. -/
inductive AuthState where
  | initial
  | authenticating
  | authenticated
  | failed
  deriving DecidableEq

structure AuthMachine where
  current : AuthState
  failureCount : Nat
  lockoutUntil : Option Nat
  expiresAt : Nat
  deriving DecidableEq

/-! ## Answers -/

/-- What is decided outside of the session while it takes one turn. -/
structure Answers where
  stop : Bool
  /-- The flush of the loop. -/
  flushes : Bool
  /-- The flushes inside of a handler, in their order. -/
  prompts : Nat → Bool
  /-- What XDEBUG shows of a session: its state, counters and times. -/
  debugDump : SessionState → Bytes → List Bytes
  /-- The deadlines of reading and of draining or discarding can be set. -/
  readDeadline : Bool
  drainDeadline : Bool
  commandMemoryOk : Bool
  /-- A buffer of this many octets can be allocated. -/
  allocates : Nat → Bool
  /-- The spool of a large message can be prepared on disk. -/
  spills : Bool
  /-- The memory check after the given line of a message. -/
  lineMemoryOk : Nat → Bool
  /-- The write of the given line, or of the current chunk, to the spool. -/
  spoolWrites : Nat → Bool
  headReads : Bool
  delivery : DeliveryEnv
  /-- The connection after a TLS handshake, or its failure. -/
  handshake : Option (List (Arrival Fault))
  /-- Refusals of a sender: binding, access control, abuse limits, block lists. -/
  senderRefusal : SessionState → Bytes → Option Bytes
  /-- Refusals of the sender's class of service at MAIL. -/
  mailLimits : SessionState → Int → Option Bytes
  /-- Refusals of an accepted relay decision: policy, unknown mailbox, class of service. The flag
  marks a bounce on its way home. -/
  recipientRefusal : SessionState → Bool → Bytes → Option Bytes
  /-- Unix time. -/
  now : Nat
  /-- The address is blocked or over its limit of failures. -/
  authRefusal : Option Bytes
  accountLocked : Bytes → Bool
  /-- The authenticator's answer to a user name and a password. -/
  authenticate : Bytes → Bytes → Bool

/-! ## Sessions -/

structure Session where
  state : SessionState
  auth : AuthMachine
  bdatSpool : Option Bytes
  bdatBytesReceived : Int
  bdatChunkCount : Nat
  dataSyncLost : Bool
  reader : Reader Fault
  store : Queue.Store
  replies : List Bytes
  live : Bool

namespace Session

variable (cfg : Config) (a : Answers) (s : Session)

def write (reply : Bytes) : Session :=
  { s with replies := s.replies ++ [reply] }

def close : Session :=
  { s with live := false }

/-- The text that `writeError` sends: an error with a code of its own, or a general one. -/
def errorReply (e : Bytes) : Bytes :=
  if 3 ≤ e.length ∧ e.head?.any fun b => 52 ≤ b && b ≤ 53 then e
  else lit "451 4.3.0 Internal server error"

def accepted : Bytes :=
  lit "250 2.0.0 Message accepted for delivery"

/-- Handlers give the session after the command and the text of their error. -/
abbrev Outcome := Session × Option Bytes

def refuse (e : Bytes) : Outcome :=
  (s, some e)

/-! ## Chunks -/

def maxDrainBytes : Nat := 32 * 1024 * 1024

def wrap64 (n : Int) : Int :=
  n.bmod (2 ^ 64)

/-- `DiscardBDATChunk`: the chunk is consumed, or the session is given up. -/
def discardBDATChunk (size : Int) : Session :=
  if size ≤ 0 then s
  else if (maxDrainBytes : Int) < size then { s with dataSyncLost := true }
  else if a.drainDeadline = false then { s with dataSyncLost := true }
  else
    match s.reader.readFull readerSize size.toNat with
    | (_, none, reader) => { s with reader := reader }
    | (_, some _, reader) => { s with reader := reader, dataSyncLost := true }

def resetBDAT : Session :=
  { s with bdatSpool := none, bdatBytesReceived := 0, bdatChunkCount := 0 }

def spoolChunk (size : Int) (chunk : Bytes) : Outcome :=
  let spool := s.bdatSpool.getD []
  if a.spoolWrites 0 then
    ({ s with
        bdatSpool := some (spool ++ chunk)
        bdatBytesReceived := wrap64 (s.bdatBytesReceived + size)
        bdatChunkCount := s.bdatChunkCount + 1 }, none)
  else ({ s with bdatSpool := some spool }).refuse (lit "451 4.3.0 Unable to buffer message data")

/-- `ReadBDATChunk`. A buffer that cannot be allocated is a panic, which ends the session. -/
def readBDATChunk (size : Int) : Outcome :=
  if cfg.maxSize < wrap64 (s.bdatBytesReceived + size) then
    (s.discardBDATChunk a size).refuse
      (lit "552 5.3.4 Message size exceeds maximum allowed (" ++ itoaInt cfg.maxSize ++
        lit " bytes)")
  else if a.allocates size.toNat = false then (s.close, none)
  else
    match s.reader.readFull readerSize size.toNat with
    | (_, some _, reader) =>
      ({ s with bdatSpool := some (s.bdatSpool.getD []), reader := reader }).refuse
        (lit "451 4.3.0 Error reading chunk data")
    | (chunk, none, reader) => spoolChunk a { s with reader := reader } size chunk

/-- `ProcessBDATMessage`: the spool is released whatever happens. -/
def processBDATMessage : Outcome :=
  match s.bdatSpool with
  | none => s.resetBDAT.refuse (lit "503 5.5.1 No message data received")
  | some content =>
    let s := { s with state := { s.state with dataSize := content.length } }
    if a.headReads = false then s.resetBDAT.refuse (lit "451 4.3.0 Unable to read message data")
    else
      match processMessage cfg a.delivery s.state content s.store with
      | (error, state, store) => ({ s.resetBDAT with state := state, store := store }, error)

def rejectChunk (size : Int) (e : Bytes) : Outcome :=
  (s.discardBDATChunk a size).refuse e

/-- The transfer is under way; its mode is none or BDAT here, so setting it cannot fail. -/
def beginChunk : Session :=
  { s with state := { s.state with dataTransferMode := .bdat } }

def completeChunks : Outcome :=
  match s.processBDATMessage cfg a with
  | (s, some e) => ({ s with state := s.state.clearDataTransferMode }).refuse e
  | (s, none) => ({ s.write accepted with state := s.state.reset }, none)

def chunkRead (size : Int) (isLast : Bool) : Outcome → Outcome
  | (s, some e) => ({ s.resetBDAT with state := s.state.clearDataTransferMode }).refuse e
  | (s, none) =>
    if s.live = false then (s, none)
    else if isLast then s.completeChunks cfg a
    else (s.write (lit "250 2.0.0 " ++ itoa size.toNat ++ lit " bytes received"), none)

/-- `HandleBDAT` after its arguments have been read. -/
def transferChunk (size : Int) (isLast : Bool) : Outcome :=
  if s.state.rcptTo = [] then s.rejectChunk a size (lit "503 5.5.1 RCPT first")
  else if s.state.canAcceptDataCommand .bdat = false then
    s.rejectChunk a size (lit "503 5.5.1 Bad sequence of commands")
  else chunkRead cfg a size isLast (s.beginChunk.readBDATChunk cfg a size)

def bdatSyntax : Bytes :=
  lit "501 5.5.4 Syntax: BDAT <chunk-size> [LAST]"

def parseBDAT (args : Bytes) : Except Bytes (Int × Bool) :=
  match fields args with
  | [] => .error bdatSyntax
  | first :: rest =>
    if 1 < rest.length then .error bdatSyntax
    else
      match parseInt64 first with
      | none => .error (lit "501 5.5.4 Invalid chunk size")
      | some size =>
        if size < 0 then .error (lit "501 5.5.4 Invalid chunk size")
        else
          match rest with
          | [] => .ok (size, false)
          | word :: _ =>
            if equalFold word (lit "LAST") then .ok (size, true) else .error bdatSyntax

def handleBDAT (args : Bytes) : Outcome :=
  match parseBDAT args with
  | .error e => s.refuse e
  | .ok (size, isLast) => s.transferChunk cfg a size isLast

/-- `discardRefusedBDAT`, for a BDAT that is refused before it is handled. -/
def discardRefusedBDAT (args : Bytes) : Session :=
  match fields args with
  | [] => s
  | first :: rest =>
    if 1 < rest.length then s
    else
      match parseInt64 first with
      | none => s
      | some size => if 0 < size then s.discardBDATChunk a size else s

end Session

end Elemta.Smtp
