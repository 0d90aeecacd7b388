import Elemta.Smtp.State

/-!
# Scanning a received message

The scanning stage of `session_data.go`: what the antivirus and antispam engines
answered, the content analysis of messages from outside, and the reply when the
scan did not pass. An engine that is down or absent does not stop a message; one
that panics fails the scan. Spam scores are in tenths.
-/

namespace Elemta.Smtp

open Bytes

/-! ## Message checks -/

inductive CheckMode where
  | off
  | warn
  | reject
  deriving DecidableEq

/-- An unknown value keeps the enforcement. -/
def checkMode (raw : Bytes) : CheckMode :=
  let mode := toLower (trimSpace raw)
  if mode = lit "off" then .off else if mode = lit "warn" then .warn else .reject

structure MessageChecks where
  headerModeText : Bytes
  bodyModeText : Bytes
  strictAddressHeaders : Bool
  rejectInvalidUTF8 : Bool
  deriving DecidableEq

def MessageChecks.headerMode (c : MessageChecks) : CheckMode :=
  checkMode c.headerModeText

def MessageChecks.bodyMode (c : MessageChecks) : CheckMode :=
  checkMode c.bodyModeText

/-! ## What the engines say -/

inductive ScannerAnswer (α : Type) where
  | absent
  | failed
  | panicked
  | reported (results : List α)
  deriving Repr

structure VirusReport where
  engine : Bytes
  clean : Bool
  infections : List Bytes
  deriving DecidableEq

inductive Disposition where
  | clean
  | tag
  | defer
  | reject
  deriving DecidableEq

def Disposition.rank : Disposition → Nat
  | .clean => 0
  | .tag => 1
  | .defer => 2
  | .reject => 3

structure SpamReport where
  clean : Bool
  score : Int
  threshold : Int
  disposition : Disposition
  deriving DecidableEq

structure SecurityScanResult where
  passed : Bool
  threats : List Bytes
  spamDetected : Bool
  spamScore : Int
  spamThreshold : Int
  spamDefer : Bool
  spamHeld : Bool
  virusFound : Bool
  deriving DecidableEq

namespace SecurityScanResult

def fresh : SecurityScanResult :=
  { passed := true
    threats := []
    spamDetected := false
    spamScore := 0
    spamThreshold := 0
    spamDefer := false
    spamHeld := false
    virusFound := false }

/-- `mergeScanResult`. -/
def merge (dst src : SecurityScanResult) : SecurityScanResult :=
  { passed := dst.passed && src.passed
    threats := dst.threats ++ src.threats
    spamDetected := dst.spamDetected || src.spamDetected
    spamScore := max dst.spamScore src.spamScore
    spamThreshold :=
      if 0 < src.spamThreshold ∧ dst.spamThreshold = 0 then src.spamThreshold
      else dst.spamThreshold
    spamDefer := dst.spamDefer || src.spamDefer
    spamHeld := dst.spamHeld || src.spamHeld
    virusFound := dst.virusFound || src.virusFound }

end SecurityScanResult

def addVirusReport (result : SecurityScanResult) (r : VirusReport) : SecurityScanResult :=
  if r.clean then result
  else
    { result with
      passed := false
      virusFound := true
      threats := result.threats ++
        if r.infections = [] then [lit "Virus detected by " ++ r.engine]
        else r.infections.map fun infection => lit "Virus detected: " ++ infection }

/-- `performAntivirusScan`; `none` for a scan that panicked. -/
def performAntivirusScan : ScannerAnswer VirusReport → Option SecurityScanResult
  | .absent => some .fresh
  | .failed => some .fresh
  | .panicked => none
  | .reported results => some (results.foldl addVirusReport .fresh)

def winningScore : List SpamReport → Int × Int
  | [] => (0, 0)
  | r :: rest =>
    rest.foldl (fun best r => if best.1 < r.score then (r.score, r.threshold) else best)
      (r.score, r.threshold)

def strongest (results : List SpamReport) : Disposition :=
  results.foldl (fun d r => if d.rank < r.disposition.rank then r.disposition else d) .clean

def tenths (score : Int) : Bytes :=
  (if score < 0 then lit "-" else []) ++ itoa (score.natAbs / 10) ++ lit "." ++
    itoa (score.natAbs % 10)

/-- `performSpamScan`. Tagging is no reason to refuse a message; a reject is one only when the
operator asked for it and the message cannot be held for the recipients instead. -/
def performSpamScan (rejectOnSpam canQuarantine : Bool) :
    ScannerAnswer SpamReport → Option SecurityScanResult
  | .absent => some .fresh
  | .failed => some .fresh
  | .panicked => none
  | .reported results =>
    let (highest, threshold) := winningScore results
    let result := { SecurityScanResult.fresh with spamScore := highest, spamThreshold := threshold }
    if results.any fun r => !r.clean then
      let spam := { result with
        spamDetected := true
        threats := [lit "Message identified as spam (score " ++ tenths highest ++ lit ")"] }
      match strongest results with
      | .defer => some { spam with spamDefer := true, passed := false }
      | .reject =>
        if rejectOnSpam then
          if canQuarantine then some { spam with spamHeld := true }
          else some { spam with passed := false }
        else some spam
      | _ => some spam
    else some result

/-! ## Content analysis -/

/-- `separateHeadersAndBody`, the headers. -/
def separateHeaders (content : Bytes) : Bytes :=
  match cut (lit "\r\n\r\n") content with
  | some (headers, _) => headers
  | none =>
    match cut (lit "\n\n") content with
    | some (headers, _) => headers
    | none => content

def dangerousTypes : List Bytes :=
  [lit "application/x-msdownload", lit "application/x-executable", lit "application/x-sh",
    lit "application/x-bat", lit "application/x-cmd", lit "application/x-msdos-program",
    lit "application/x-winexe", lit "application/octet-stream"]

def maliciousPatterns : List Bytes :=
  [lit "<script", lit "javascript:", lit "vbscript:", lit "data:text/html", lit "eval(",
    lit "expression("]

def suspiciousExtensions : List Bytes :=
  [lit ".exe", lit ".bat", lit ".cmd", lit ".pif", lit ".scr", lit ".vbs", lit ".js", lit ".jar",
    lit ".app", lit ".deb", lit ".rpm", lit ".dmg", lit ".pkg", lit ".msi"]

def threatsOf (label : Bytes) (patterns : List Bytes) (text : Bytes) : List Bytes :=
  (patterns.filter fun p => contains text p).map fun p => label ++ p

/-- The header check of the content analysis; `invalid` is the enhanced validator's message. -/
def analyseHeaders (checks : MessageChecks) (invalid : Bytes → Option Bytes)
    (content : Bytes) (result : SecurityScanResult) : SecurityScanResult :=
  let headers := separateHeaders content
  if headers = [] ∨ checks.headerMode = .off then result
  else
    match invalid headers with
    | none => result
    | some message =>
      { result with
        passed := if checks.headerMode = .reject then false else result.passed
        threats := result.threats ++ [lit "Header validation failed: " ++ message] }

def dangerousAttachments (content : Bytes) : List Bytes :=
  if contains content (lit "Content-Type: application/") then
    threatsOf (lit "Dangerous attachment type: ") dangerousTypes (toLower content)
  else []

def analyseBody (checks : MessageChecks) (content : Bytes) (result : SecurityScanResult) :
    SecurityScanResult :=
  if checks.bodyMode = .off then result
  else
    let attachments := dangerousAttachments content
    { result with
      passed :=
        if checks.bodyMode = .reject ∧ attachments ≠ [] then false else result.passed
      threats := result.threats ++ attachments ++
        threatsOf (lit "Malicious content pattern: ") maliciousPatterns (toLower content) ++
        threatsOf (lit "Suspicious file extension: ") suspiciousExtensions (toLower content) }

/-- `performContentAnalysis`; peers in a trusted network are not analysed. -/
def performContentAnalysis (isInternal : Bool) (checks : MessageChecks)
    (invalid : Bytes → Option Bytes) (content : Bytes)
    (result : SecurityScanResult) : SecurityScanResult :=
  if isInternal then result
  else analyseBody checks content (analyseHeaders checks invalid content result)

/-! ## The verdict -/

/-- `handleSecurityThreat`: the error text, if there is one. -/
def handleSecurityThreat (result : SecurityScanResult) : Option Bytes :=
  if result.virusFound then some (lit "554 5.7.1 Message rejected: virus detected")
  else if result.spamDetected then
    if result.spamDefer then some (lit "451 4.7.1 Message deferred: try again later")
    else some (lit "554 5.7.1 Message rejected: identified as spam")
  else none

/-- A scan that did not pass ends in an error exactly when a virus or spam was found. -/
theorem handleSecurityThreat_eq_none {result : SecurityScanResult} :
    handleSecurityThreat result = none ↔
      result.virusFound = false ∧ result.spamDetected = false := by
  unfold handleSecurityThreat
  cases result.virusFound <;> cases result.spamDetected <;> cases result.spamDefer <;> simp

end Elemta.Smtp
