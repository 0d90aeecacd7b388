import Elemta.Foundation.Utf8
import Elemta.Smtp.Paths

/-!
# The command validator

`command_security.go`: what a command line has to pass before it is dispatched.
Every check answers with the text of its refusal. The regular expressions of the
source are predicates here; the memory check at the end is an input, since it
depends on what the process has allocated meanwhile.
-/

namespace Elemta.Smtp.Validator

open Bytes

def maxCommandLength : Nat := 512

def maxParameterLength : Nat := 320

def validateLength (line : Bytes) : Option Bytes :=
  if maxCommandLength < line.length then some (lit "500 5.5.2 Line too long") else none

def validateUTF8 (line : Bytes) : Option Bytes :=
  if Utf8.valid line then none else some (lit "500 5.5.2 Invalid character encoding")

/-- Tab, line feed and carriage return are the control characters that may pass. -/
def controlChar (b : UInt8) : Bool :=
  (b < 32 && b != 9 && b != 10 && b != 13) || b == 127

def filterControlCharacters (line : Bytes) : Option Bytes :=
  if line.any controlChar then some (lit "500 5.5.2 Invalid control character") else none

/-- The class `\s` of a regular expression. -/
def regexSpace (b : UInt8) : Bool :=
  b == 9 || b == 10 || b == 12 || b == 13 || b == 32

/-- Every run of `\s` becomes one blank; the flag says that a run has begun. -/
def collapseSpace : Bool → Bytes → Bytes
  | _, [] => []
  | inRun, b :: r =>
    if regexSpace b then if inRun then collapseSpace true r else 32 :: collapseSpace true r
    else b :: collapseSpace false r

def canonicalizeCommand (line : Bytes) : Bytes :=
  trimSpace (collapseSpace false (trimSpace line))

def parseCommand (line : Bytes) : Bytes × Bytes :=
  match cut [32] line with
  | none => (toUpper line, [])
  | some (name, args) => (toUpper name, trimSpace args)

def commandChar (b : UInt8) : Bool :=
  isAlnum b || b == 45 || b == 95

def validateCommandStructure (cmd args : Bytes) : Option Bytes :=
  if cmd = [] then some (lit "500 5.5.2 Invalid command structure")
  else if cmd.all commandChar = false then some (lit "500 5.5.2 Invalid command name")
  else if maxParameterLength < args.length then some (lit "500 5.5.2 Parameters too long")
  else none

def validCommands : List Bytes :=
  [lit "HELO", lit "EHLO", lit "MAIL", lit "RCPT", lit "DATA", lit "BDAT", lit "RSET", lit "NOOP",
    lit "QUIT", lit "AUTH", lit "STARTTLS", lit "HELP", lit "VRFY", lit "EXPN", lit "XDEBUG"]

def validateCommandName (cmd : Bytes) : Option Bytes :=
  if validCommands.contains cmd then none else some (lit "502 5.5.1 Command not recognized")

/-! ## Parameters -/

def parameterChar (b : UInt8) : Bool :=
  isAlnum b || regexSpace b || decide (b ∈ lit "-_@.:<>=[]!#$%&'*+/?^\x60\x7b|\x7d~")

def hostLabel (label : Bytes) : Bool :=
  decide (1 ≤ label.length) && decide (label.length ≤ 63) &&
    label.head?.any isAlnum && label.getLast?.any isAlnum &&
    label.all fun b => isAlnum b || b == 45

def validateHostnameParameter (hostname : Bytes) : Option Bytes :=
  if hostname = [] then some (lit "501 5.0.0 Hostname required")
  else if 255 < hostname.length then some (lit "501 5.0.0 Hostname too long")
  else if 2 < hostname.length ∧ hostname.head? = some 91 ∧ hostname.getLast? = some 93 then none
  else if (split (lit ".") hostname).all hostLabel then none
  else some (lit "501 5.0.0 Invalid hostname format")

def localChar (b : UInt8) : Bool :=
  isAlnum b || decide (b ∈ lit "._%+=/'!#*?^\x7b\x7d~-")

def isLetter (b : UInt8) : Bool :=
  (65 ≤ b && b ≤ 90) || (97 ≤ b && b ≤ 122)

/-- A domain with a top-level domain of letters, or the local host. -/
def mailDomain (domain : Bytes) : Bool :=
  domain == lit "localhost" ||
    let labels := split (lit ".") domain
    decide (2 ≤ labels.length) && labels.dropLast.all hostLabel &&
      labels.getLast?.any fun tld => decide (2 ≤ tld.length) && tld.all isLetter

def validateEmailAddress (addr : Bytes) : Option Bytes :=
  let invalid := some (lit "501 5.1.3 Invalid email address format")
  if addr = [] then none
  else if 320 < addr.length then some (lit "501 5.1.3 Address too long")
  else if contains addr (lit "../") then invalid
  else
    match cut (lit "@") addr with
    | none => invalid
    | some (user, domain) =>
      if user ≠ [] ∧ user.all localChar ∧ mailDomain domain then none else invalid

def trimBrackets (s : Bytes) : Bytes :=
  let bracket := fun b : UInt8 => b == 60 || b == 62
  ((s.dropWhile bracket).reverse.dropWhile bracket).reverse

def validateMailFromParameter (args : Bytes) : Option Bytes :=
  if hasPrefix (toUpper args) (lit "FROM:") = false then
    some (lit "501 5.5.4 Syntax: MAIL FROM:<address>")
  else
    let addr := trimSpace (args.drop 5)
    if addr = [] then some (lit "501 5.5.4 Syntax: MAIL FROM:<address>")
    else
      let addrPart :=
        match cut (lit ">") addr with
        | some (before, _) => if before = [] then addr else before ++ lit ">"
        | none => addr
      validateEmailAddress (trimSpace (trimBrackets addrPart))

def validateRcptToParameter (args : Bytes) : Option Bytes :=
  if hasPrefix (toUpper args) (lit "TO:") = false then
    some (lit "501 5.5.4 Syntax: RCPT TO:<address>")
  else
    let addr := trimSpace (args.drop 3)
    if addr = [] then some (lit "501 5.5.4 Syntax: RCPT TO:<address>")
    else
      let bracketed := decide (2 ≤ addr.length) && addr.head? == some 60 && addr.getLast? == some 62
      validateEmailAddress (if bracketed then addr.tail.dropLast else addr)

def validateAuthParameter (args : Bytes) : Option Bytes :=
  match fields args with
  | [] => some (lit "501 5.5.4 Syntax: AUTH <mechanism>")
  | mechanism :: _ =>
    if [lit "PLAIN", lit "LOGIN"].contains (toUpper mechanism) then none
    else some (lit "504 5.7.4 Unrecognized authentication type")

def validateCommandParameters (cmd args : Bytes) : Option Bytes :=
  if args = [] then none
  else if args.all parameterChar = false then some (lit "500 5.5.2 Invalid parameter characters")
  else if cmd = lit "HELO" ∨ cmd = lit "EHLO" then validateHostnameParameter args
  else if cmd = lit "MAIL" then validateMailFromParameter args
  else if cmd = lit "RCPT" then validateRcptToParameter args
  else if cmd = lit "AUTH" then validateAuthParameter args
  else if cmd = lit "VRFY" ∨ cmd = lit "EXPN" then validateEmailAddress args
  else none

/-! ## Blocked patterns -/

def sqlWords : List Bytes :=
  [lit "union", lit "select", lit "insert", lit "update", lit "delete", lit "drop", lit "create",
    lit "alter", lit "exec", lit "execute"]

def scriptWords : List Bytes :=
  [lit "script", lit "javascript", lit "vbscript", lit "onload", lit "onerror"]

/-- The patterns that are blocked in commands; those for parameters add line breaks. -/
def blockedInCommand (text : Bytes) : Bool :=
  ((sqlWords ++ scriptWords).any fun w => contains (foldCase text) w) ||
    (text.any fun b => decide (b ∈ lit ";&|\x60$")) ||
    contains text (lit "../") || contains text (lit "..\\") || text.any controlChar

def blockedInParameters (text : Bytes) : Bool :=
  blockedInCommand text || text.any fun b => b == 13 || b == 10

def checkBlockedPatterns (cmd args : Bytes) : Option Bytes :=
  if blockedInCommand cmd then some (lit "554 5.7.1 Command rejected: security violation")
  else if args ≠ [] ∧ blockedInParameters args then
    some (lit "554 5.7.1 Parameters rejected: security violation")
  else none

/-! ## The whole check -/

/-- The arguments that the parameter checks look at. The DSN parameters of RCPT are left to its
own parser, which refuses the line here already. -/
def checkedArguments (parseIP : Bytes → Option IpFamily) (cmd args : Bytes) : Except Bytes Bytes :=
  if cmd = lit "RCPT" then
    (parseRCPTEnvelope parseIP args).map fun parsed => lit "TO:<" ++ parsed.addr ++ lit ">"
  else .ok args

def checkCommand (parseIP : Bytes → Option IpFamily) (memoryOk : Bool)
    (cmd args : Bytes) : Option Bytes :=
  ((validateCommandStructure cmd args).or (validateCommandName cmd)).or <|
    match checkedArguments parseIP cmd args with
    | .error e => some e
    | .ok args =>
      ((validateCommandParameters cmd args).or
        (if cmd = lit "MAIL" ∨ cmd = lit "RCPT" then none else checkBlockedPatterns cmd args)).or
      (if memoryOk then none else some (lit "452 4.3.1 Insufficient system storage, try again later"))

def validateCommand (parseIP : Bytes → Option IpFamily) (memoryOk : Bool)
    (line : Bytes) : Option Bytes :=
  (((validateLength line).or (validateUTF8 line)).or (filterControlCharacters line)).or <|
    let canonical := canonicalizeCommand line
    if canonical = [] then some (lit "500 5.5.2 Empty command")
    else
      let (cmd, args) := parseCommand canonical
      checkCommand parseIP memoryOk cmd args

end Elemta.Smtp.Validator
