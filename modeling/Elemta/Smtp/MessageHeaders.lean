import Elemta.Smtp.Scan

/-!
# Headers of a received message

`session_data.go`: how the headers are read from the front of a message, the
checks `[message_checks]` asks for, and (`forged_authres.go`) the renaming of
Authentication-Results headers that claim to come from this server.

The pattern checks of the enhanced validator are parameters: every answer they
can give is possible here. A field name that occurs in several spellings stands
for the last of them, where the source takes one in the order of a Go map.
-/

namespace Elemta.Smtp

open Bytes

/-! ## Reading headers -/

abbrev Headers := List (Bytes × Bytes)

def trimRightCR (line : Bytes) : Bytes :=
  (line.reverse.dropWhile fun b => b == 13).reverse

def saveHeader (headers : Headers) (name value : Bytes) : Headers :=
  if name = [] then headers else headers ++ [(name, value)]

def extractHeadersFrom (headers : Headers) (name value : Bytes) :
    List Bytes → Headers
  | [] => headers
  | line :: rest =>
    let line := trimRightCR line
    if line = [] then saveHeader headers name value
    else if hasPrefix line (lit " ") ∨ hasPrefix line (lit "\t") then
      extractHeadersFrom headers name
        (if name = [] then value else value ++ lit " " ++ trimSpace line) rest
    else
      let headers := saveHeader headers name value
      match cut (lit ":") line with
      | some (before, after) =>
        if before = [] then extractHeadersFrom headers [] [] rest
        else extractHeadersFrom headers (trimSpace before) (trimSpace after) rest
      | none => extractHeadersFrom headers [] [] rest

def extractHeaders (data : Bytes) : Headers :=
  extractHeadersFrom [] [] [] (split (lit "\n") data)

def Headers.get (headers : Headers) (name : Bytes) : Option Bytes :=
  (headers.reverse.find? fun h => toLower h.1 == name).map Prod.snd

/-! ## Header checks -/

/-- What the enhanced validator and the address parser answer: the message of a refusal. -/
structure Validators where
  emailHeaders : Headers → Option Bytes
  headerParameter : Bytes → Option Bytes
  addressList : Bytes → Except Bytes (List Bytes)
  address : Bytes → Option Bytes
  contentType : Bytes → Option Bytes
  /-- For a line of DATA; the flag marks a refusal because of invalid UTF-8. -/
  dataLine : Bytes → Option (Bool × Bytes)
  headerLine : Bytes → Option Bytes

def firstError {α : Type*} (check : α → Option Bytes) : List α → Option Bytes
  | [] => none
  | a :: rest => (check a).or (firstError check rest)

def emailHeaderNames : List Bytes :=
  [lit "from", lit "to", lit "cc", lit "bcc", lit "reply-to"]

def checkEmailHeader (v : Validators) (headers : Headers) (name : Bytes) : Option Bytes :=
  let wrapped := fun message => lit "invalid email address in " ++ name ++ lit " header: " ++ message
  match headers.get name with
  | none => none
  | some value =>
    if name = lit "bcc" ∧ trimSpace value = [] then none
    else
      match v.addressList value with
      | .error message => some (wrapped message)
      | .ok addresses => firstError (fun a => (v.address a).map wrapped) addresses

def validateEmailAddressesInHeaders (v : Validators) (headers : Headers) : Option Bytes :=
  firstError (checkEmailHeader v headers) emailHeaderNames

def dangerousContentTypes : List Bytes :=
  [lit "application/x-msdownload", lit "application/x-executable", lit "application/x-sh",
    lit "application/x-bat", lit "application/x-cmd", lit "application/x-msdos-program",
    lit "application/x-winexe"]

def validateContentTypeRestrictions (v : Validators) (headers : Headers) : Option Bytes :=
  match headers.get (lit "content-type") with
  | none => none
  | some value =>
    if dangerousContentTypes.any fun t => contains (toLower value) t then
      some (lit "dangerous content type not allowed: " ++ value)
    else (v.contentType value).map fun message => lit "invalid content-type header: " ++ message

def enforced (mode : CheckMode) (error : Option Bytes) : Option Bytes :=
  if mode = .warn then none else error

/-- `validateMessageHeaders`. The comparison of From with MAIL FROM only logs. -/
def validateMessageHeaders (checks : MessageChecks) (isInternal authNotRequired : Bool)
    (v : Validators) (headers : Headers) : Option Bytes :=
  let mode := checks.headerMode
  if mode = .off ∨ isInternal then none
  else
    let required := firstError
      (fun name => if (headers.get name).isSome then none
        else some (lit "missing required header: " ++ name)) [lit "from", lit "date"]
    let strict := if checks.strictAddressHeaders then validateEmailAddressesInHeaders v headers
      else none
    enforced mode <|
      ((if authNotRequired then none else required).or
        ((v.emailHeaders headers).map fun message =>
          lit "header validation failed: " ++ message)).or
      (strict.or (validateContentTypeRestrictions v headers))

/-- `validateLineContent`: the check of one line of DATA. Lines over 1000 octets are only bounded,
and the validator's own complaint about a long line does not count. -/
def validateLineContent (checks : MessageChecks) (isInternal : Bool) (v : Validators)
    (inHeaders : Bool) (line : Bytes) : Option Bytes :=
  let mode := if inHeaders then checks.headerMode else checks.bodyMode
  if isInternal ∨ mode = .off ∨ 1000 < line.length then none
  else
    let header := enforced mode (if inHeaders then v.headerLine line else none)
    match v.dataLine line with
    | none => header
    | some (badUTF8, message) =>
      if badUTF8 && !checks.rejectInvalidUTF8 then none
      else if contains message (lit "Line exceeds") then header
      else (enforced mode (some (lit "500 5.5.2 Security violation: " ++ message))).or header

/-! ## Forged Authentication-Results -/

def authResultsName : Bytes :=
  lit "Authentication-Results"

def renamedAuthNames : Bytes :=
  lit "X-Untrusted-AuthResult"

def trimDot (s : Bytes) : Bytes :=
  if s.getLast? = some 46 then s.dropLast else s

def trimRightBlank (s : Bytes) : Bytes :=
  (s.reverse.dropWhile fun b => b == 32 || b == 9).reverse

def isForgedAuthResults (line hostname : Bytes) : Bool :=
  match cut (lit ":") line with
  | none => false
  | some (name, value) =>
    equalFold (trimRightBlank name) authResultsName &&
      match fields (value.takeWhile fun b => b != 59) with
      | [] => false
      | first :: _ => equalFold (trimDot first) hostname

def renameForged (hostname line : Bytes) : Bytes :=
  if isForgedAuthResults line hostname then
    renamedAuthNames ++ line.drop renamedAuthNames.length
  else line

/-- The part of the head that the lines are taken from, and the rest. -/
def headerSection (head : Bytes) : Bytes × Bytes :=
  match cut (lit "\r\n\r\n") head with
  | some (section_, _) => (section_, head.drop section_.length)
  | none => (head, [])

def neutralizeForgedAuthResults (head hostname : Bytes) : Bytes :=
  let hostname := toLower (trimDot (trimSpace hostname))
  if hostname = [] then head
  else
    let (section_, rest) := headerSection head
    join (lit "\r\n") ((split (lit "\r\n") section_).map (renameForged hostname)) ++ rest

end Elemta.Smtp
