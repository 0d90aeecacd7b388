import Elemta.Smtp.Session

/-!
# The data phase

`ReadData` of `session_data.go`: the lines of a message are read, checked and
spooled until the end-of-data marker. A message that is refused while the framing
can still be trusted is drained to its marker; otherwise the session is given up.
-/

namespace Elemta.Smtp

open Bytes BufferedReader

namespace Session

def dataLineLimit : Nat := 64 * 1024

def memoryCheckInterval : Nat := 1024 * 1024

/-- `DataReaderState`, with what has been spooled. -/
structure DataReader where
  lineCount : Nat
  bytesRead : Nat
  lastMemoryCheck : Nat
  inHeaders : Bool
  spool : Bytes
  deriving DecidableEq

def DataReader.start : DataReader :=
  { lineCount := 0, bytesRead := 0, lastMemoryCheck := 0, inHeaders := true, spool := [] }

inductive DataEnd where
  | complete (content : Bytes)
  /-- Refused with the framing still trusted. -/
  | refused (e : Bytes)
  /-- Refused without a position to go on from. -/
  | lost (e : Bytes)
  deriving DecidableEq

def endsCRLF (line : Bytes) : Bool :=
  line.getLast? == some 10 && line.dropLast.getLast? == some 13

def validateLineEndings (strict : Bool) (line : Bytes) : Option Bytes :=
  let hasCR := line.dropLast.getLast? == some 13
  let hasLF := line.getLast? == some 10
  if line = [] ∨ (hasCR ∧ hasLF) then none
  else if hasLF then
    if strict then some (lit "500 5.5.2 Syntax error: bare LF not allowed (RFC 5321 violation)")
    else none
  else if hasCR then
    some (lit "500 5.5.2 Syntax error: bare CR not allowed (RFC 5321 violation)")
  else some (lit "500 5.5.2 Syntax error: improper line termination")

/-- `isValidEndOfData`. The state it compares with is that of the line itself, which ends in CRLF
here, so the test for the line before never refuses a marker. -/
def isValidEndOfData (strict : Bool) (lineCount : Nat) (line : Bytes) : Bool :=
  if line = lit ".\r\n" then !(strict && !endsCRLF line && decide (1 < lineCount))
  else line == lit ".\n" && !strict

def applyDotStuffing : Bytes → Bytes
  | 46 :: line => line
  | line => line

def memoryCheckDue (d : DataReader) : Bool :=
  decide (memoryCheckInterval ≤ d.bytesRead - d.lastMemoryCheck)

variable (cfg : Config) (a : Answers) (s : Session)

def takeLine (d : DataReader) (line : Bytes) : DataEnd ⊕ DataReader :=
  let d := { d with lineCount := d.lineCount + 1, bytesRead := d.bytesRead + line.length }
  match validateLineEndings cfg.strictLineEndings line with
  | some e => .inl (.lost e)
  | none =>
    if cfg.maxSize < d.bytesRead then
      .inl (.refused (lit "552 5.3.4 Message size exceeds maximum allowed"))
    else if memoryCheckDue d && !a.lineMemoryOk d.lineCount then
      .inl (.refused (lit "552 5.3.4 Server memory limit exceeded"))
    else
      let d := { d with
        lastMemoryCheck := if memoryCheckDue d then d.bytesRead else d.lastMemoryCheck }
      if isValidEndOfData cfg.strictLineEndings d.lineCount line then .inl (.complete d.spool)
      else
        match validateLineContent cfg.checks cfg.isInternal a.delivery.validators d.inHeaders
            line with
        | some e => .inl (.refused (lit "554 5.7.1 Message rejected: " ++ e))
        | none =>
          if a.spoolWrites d.lineCount then
            .inr { d with
              inHeaders := d.inHeaders && trimSpace line != []
              spool := d.spool ++ applyDotStuffing line }
          else .inl (.refused (lit "451 4.3.0 Unable to buffer message data"))

/-- The loop of `readData`. Every line that it goes on from has taken an octet from the tape, so
the length of the tape bounds the number of turns. -/
def readLines (cfg : Config) (a : Answers) : Nat → DataReader → Reader Fault →
    DataEnd × Reader Fault
  | 0, _, r => (.lost [], r)
  | fuel + 1, d, r =>
    match r.boundedLine readerSize dataLineLimit with
    | (.tooLong, r) => (.lost (lit "552 5.3.4 Line too long (maximum 65536 octets)"), r)
    | (.text _ (some .eof), r) => (.refused (lit "unexpected end of data"), r)
    | (.text _ (some (.fault _)), r) => (.refused (lit "error reading data"), r)
    | (.text line none, r) =>
      match takeLine cfg a d line with
      | .inl done => (done, r)
      | .inr d => readLines cfg a fuel d r

def readData : DataEnd × Reader Fault :=
  if a.spills = false then (.refused (lit "451 4.3.0 Unable to prepare message spool"), s.reader)
  else if a.readDeadline = false then
    (.refused (lit "connection compromised: unable to set read deadline"), s.reader)
  else readLines cfg a (s.reader.tape.length + 1) .start s.reader

/-! ## Draining -/

/-- The line that the drain takes for the marker: a period before any line end characters. -/
def isDrainMarker (line : Bytes) : Bool :=
  (line.reverse.dropWhile fun b => b == 13 || b == 10) == lit "."

/-- The loop of `drainToEndOfData`: whether the connection is in sync afterwards. -/
def drainLines : Nat → Nat → Bool → Reader Fault → Bool × Reader Fault
  | 0, _, _, r => (false, r)
  | fuel + 1, drained, atLineStart, r =>
    match r.boundedLine readerSize dataLineLimit with
    | (.tooLong, r) => (false, r)
    | (.text line stop, r) =>
      let drained := drained + line.length
      if atLineStart && isDrainMarker line then (true, r)
      else if stop.isSome then (false, r)
      else if maxDrainBytes < drained then (false, r)
      else drainLines fuel drained (line.getLast? == some 10) r

def drainToEndOfData (r : Reader Fault) : Bool × Reader Fault :=
  if a.drainDeadline = false then (false, r) else drainLines (r.tape.length + 1) 0 true r

/-! ## The phase -/

/-- `ReadData`: the message or the text of the refusal. -/
def readMessage : Except Bytes Bytes × Session :=
  match s.readData cfg a with
  | (.complete content, r) =>
    (.ok content, { s with reader := r, state := { s.state with dataSize := content.length } })
  | (.lost e, r) => (.error e, { s with reader := r, dataSyncLost := true })
  | (.refused e, r) =>
    match drainToEndOfData a r with
    | (inSync, r) =>
      (.error e, { s with reader := r, dataSyncLost := s.dataSyncLost || !inSync })

/-- `ProcessMessage` on the spooled message. -/
def processSpool (content : Bytes) : Outcome :=
  if a.headReads = false then s.refuse (lit "451 4.3.0 Unable to read message data")
  else
    match processMessage cfg a.delivery s.state content s.store with
    | (error, state, store) => ({ s with state := state, store := store }, error)

def handleDataPhase : Outcome :=
  match s.readMessage cfg a with
  | (.error e, s) => s.refuse e
  | (.ok content, s) => s.processSpool cfg a content

def dataTurn : Session :=
  match s.handleDataPhase cfg a with
  | (s, some e) =>
    let s := s.write (errorReply e)
    if s.dataSyncLost then s.close else { s with state := s.state.reset }
  | (s, none) => { s.write accepted with state := s.state.reset }

end Session

end Elemta.Smtp
