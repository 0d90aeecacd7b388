import Elemta.Smtp.State

/-!
# The arguments of MAIL and RCPT

The parser of `session_commands.go`: a keyword, a path in angle brackets and a
tail of parameters. What `net.ParseIP` says about an address literal is a
parameter.
-/

namespace Elemta.Smtp

open Bytes

inductive IpFamily where
  | v4
  | v6
  deriving DecidableEq

/-! ## Paths -/

/-- The text up to the closing bracket that is not quoted, and what follows the bracket. -/
def closePath : Bool → Bool → Bytes → Option (Bytes × Bytes)
  | _, _, [] => none
  | quoted, escaped, b :: r =>
    let more := fun q e => (closePath q e r).map fun parts => (b :: parts.1, parts.2)
    if escaped then more quoted false
    else if quoted && b == 92 then more quoted true
    else if b == 34 then more (!quoted) false
    else if b == 62 && !quoted then some ([], r)
    else more quoted false

/-- The scan of `validSMTPMailbox` at octet `i`: where the unquoted `@` is, or `none` when the
text is refused. -/
def scanMailbox : Nat → Bool → Bool → Option Nat → Bytes → Option (Option Nat)
  | _, quoted, escaped, pos, [] => if quoted || escaped then none else some pos
  | i, quoted, escaped, pos, b :: r =>
    if escaped then
      if b < 32 || 126 < b then none else scanMailbox (i + 1) quoted false pos r
    else if quoted && b == 92 then scanMailbox (i + 1) quoted true pos r
    else if b == 34 then
      if i != 0 && !quoted then none else scanMailbox (i + 1) (!quoted) false pos r
    else if !quoted && b == 64 then
      if pos.isSome then none else scanMailbox (i + 1) quoted false (some i) r
    else if !quoted && (b ≤ 32 || b == 60 || b == 62) then none
    else scanMailbox (i + 1) quoted false pos r

def isAlnum (b : UInt8) : Bool :=
  (65 ≤ b && b ≤ 90) || (97 ≤ b && b ≤ 122) || isDigit b

def validLocalPart (text : Bytes) : Bool :=
  if text.head? = some 34 then decide (2 ≤ text.length) && text.getLast? == some 34
  else
    !(text.any fun b => decide (b ∈ lit "\"(),:;<>@[\\] ")) && !hasPrefix text (lit ".") &&
      text.getLast? != some 46 && !contains text (lit "..")

def validMailboxLabel (label : Bytes) : Bool :=
  label != [] && label.head? != some 45 && label.getLast? != some 45 &&
    label.all fun b => isAlnum b || b == 45 || 0x80 ≤ b

variable (parseIP : Bytes → Option IpFamily)

def validMailboxDomain (domain : Bytes) : Bool :=
  if domain.head? = some 91 then
    let inner := domain.tail.dropLast
    let inner := if hasPrefix inner (lit "IPv6:") then inner.drop 5 else inner
    decide (2 ≤ domain.length) && domain.getLast? == some 93 && (parseIP inner).isSome
  else (split (lit ".") domain).all validMailboxLabel

def validSMTPMailbox (s : Bytes) : Bool :=
  match scanMailbox 0 false false none s with
  | some (some i) =>
    decide (0 < i) && i + 1 != s.length && validLocalPart (s.take i) &&
      validMailboxDomain parseIP (s.drop (i + 1))
  | _ => false

def parseSMTPPath (args keyword : Bytes) (allowNull : Bool) : Option (Bytes × List Bytes) :=
  if args.length < keyword.length + 2 ∨ equalFold (args.take keyword.length) keyword = false then
    none
  else
    match args.drop keyword.length with
    | 60 :: rest =>
      match closePath false false rest with
      | none => none
      | some (addr, tail) =>
        if addr = [] ∧ allowNull = false then none
        else if addr ≠ [] ∧ validSMTPMailbox parseIP addr = false then none
        else
          match tail with
          | [] => some (addr, [])
          | b :: _ => if b = 32 ∨ b = 9 then some (addr, blankFields tail) else none
    | _ => none

/-! ## Parameters -/

def isHex (b : UInt8) : Bool :=
  isDigit b || (65 ≤ b && b ≤ 70) || (97 ≤ b && b ≤ 102)

def xtextChars : Bytes → Bool
  | [] => true
  | 43 :: a :: b :: r => isHex a && isHex b && xtextChars r
  | b :: r => b != 43 && 33 ≤ b && b ≤ 126 && b != 61 && xtextChars r

def validXText (s : Bytes) : Bool :=
  s != [] && xtextChars s

def validORCPT (s : Bytes) : Bool :=
  match cut (lit ";") s with
  | none => false
  | some (typ, text) => typ != [] && validXText text && typ.all fun b => isAlnum b || b == 45

/-- A parameter as `Cut(field, "=")` gives it: its key in upper case and its value. -/
def keyValue (field : Bytes) : Bytes × Option Bytes :=
  match cut (lit "=") field with
  | some (key, value) => (toUpper key, some value)
  | none => (toUpper field, none)

structure MailFromParams where
  addr : Bytes
  size : Int
  dsn : DSNParams
  hasDSN : Bool
  smtpUTF8 : Bool
  requireTLS : Bool
  deriving DecidableEq

def mailParameter (maxSize : Int) (p : MailFromParams) (key : Bytes)
    (value : Option Bytes) : Except Bytes MailFromParams :=
  if key = lit "SIZE" then
    match value with
    | some v =>
      if isDecimal v then
        match parseInt64 v with
        | some n =>
          if 0 ≤ maxSize ∧ maxSize < n then
            .error (lit "552 5.3.4 Message size exceeds fixed maximum message size")
          else .ok { p with size := n }
        | none => .error (lit "501 5.5.4 Invalid SIZE parameter syntax")
      else .error (lit "501 5.5.4 Invalid SIZE parameter syntax")
    | none => .error (lit "501 5.5.4 Invalid SIZE parameter syntax")
  else if key = lit "SMTPUTF8" then
    if value.isSome then .error (lit "501 5.5.4 Invalid SMTPUTF8 parameter")
    else .ok { p with smtpUTF8 := true }
  else if key = lit "BODY" then
    if (value.map toUpper).any fun v => v == lit "7BIT" || v == lit "8BITMIME" then .ok p
    else .error (lit "501 5.5.4 Invalid BODY parameter")
  else if key = lit "RET" then
    match value.map toUpper with
    | none => .error (lit "501 5.5.4 Invalid RET parameter")
    | some v =>
      if v = lit "FULL" then .ok { p with dsn := { p.dsn with ret := some .full }, hasDSN := true }
      else if v = lit "HDRS" then
        .ok { p with dsn := { p.dsn with ret := some .headers }, hasDSN := true }
      else .error (lit "501 5.5.4 Invalid RET parameter: must be FULL or HDRS")
  else if key = lit "ENVID" then
    match value with
    | some v =>
      if v.length ≤ 100 ∧ validXText v then
        .ok { p with dsn := { p.dsn with envID := v }, hasDSN := true }
      else .error (lit "501 5.5.4 Invalid ENVID parameter")
    | none => .error (lit "501 5.5.4 Invalid ENVID parameter")
  else if key = lit "REQUIRETLS" then
    if value.isSome then .error (lit "501 5.5.4 Invalid REQUIRETLS parameter")
    else .ok { p with requireTLS := true }
  else .error (lit "555 5.5.4 Unsupported MAIL FROM parameter: " ++ key)

/-- The loop over the parameters of a command; a key may occur once. -/
def eachParameter {α : Type*} (parameter : α → Bytes → Option Bytes → Except Bytes α) :
    List Bytes → α → List Bytes → Except Bytes α
  | _, p, [] => .ok p
  | seen, p, field :: rest =>
    let (key, value) := keyValue field
    if seen.contains key then .error (lit "501 5.5.4 Duplicate " ++ key ++ lit " parameter")
    else
      match parameter p key value with
      | .error e => .error e
      | .ok p => eachParameter parameter (key :: seen) p rest

def parseMailFromParams (maxSize : Int)
    (tlsActive : Bool) (args : Bytes) : Except Bytes MailFromParams :=
  match parseSMTPPath parseIP args (lit "FROM:") true with
  | none => .error (lit "501 5.5.4 Syntax: MAIL FROM:<address>")
  | some (addr, params) =>
    let start : MailFromParams :=
      { addr := addr
        size := 0
        dsn := { ret := none, envID := [] }
        hasDSN := false
        smtpUTF8 := false
        requireTLS := false }
    match eachParameter (mailParameter maxSize) [] start params with
    | .error e => .error e
    | .ok p =>
      if p.requireTLS && !tlsActive then
        .error (lit "530 5.7.4 REQUIRETLS requires an active TLS connection")
      else .ok p

structure RcptToParams where
  addr : Bytes
  dsn : DSNRecipientParams
  hasDSN : Bool
  deriving DecidableEq

def notifyCondition (v : Bytes) : Option DSNNotify :=
  if v = lit "NEVER" then some .never
  else if v = lit "SUCCESS" then some .success
  else if v = lit "FAILURE" then some .failure
  else if v = lit "DELAY" then some .delay
  else none

def notifyConditions : List Bytes → List Bytes → Except Bytes (List DSNNotify)
  | _, [] => .ok []
  | seen, v :: rest =>
    if seen.contains v then .error (lit "501 5.5.4 Duplicate NOTIFY condition: " ++ v)
    else
      match notifyCondition v with
      | none => .error (lit "501 5.5.4 Invalid NOTIFY value: " ++ v)
      | some c => (notifyConditions (v :: seen) rest).map fun cs => c :: cs

def rcptParameter (p : RcptToParams) (key : Bytes) (value : Option Bytes) :
    Except Bytes RcptToParams :=
  if key = lit "NOTIFY" then
    match value with
    | some (b :: v) =>
      match notifyConditions [] (split (lit ",") (toUpper (b :: v))) with
      | .error e => .error e
      | .ok conditions =>
        if conditions.contains .never && conditions.length != 1 then
          .error (lit "501 5.5.4 NOTIFY=NEVER must not be combined with other values")
        else .ok { p with dsn := { p.dsn with notify := conditions } }
    | _ => .error (lit "501 5.5.4 Invalid NOTIFY value")
  else if key = lit "ORCPT" then
    match value with
    | some v =>
      if validORCPT v then .ok { p with dsn := { p.dsn with orcpt := v } }
      else .error (lit "501 5.5.4 Invalid ORCPT parameter")
    | none => .error (lit "501 5.5.4 Invalid ORCPT parameter")
  else .error (lit "555 5.5.4 Unsupported RCPT TO parameter: " ++ key)

def parseRCPTEnvelope (args : Bytes) : Except Bytes RcptToParams :=
  match parseSMTPPath parseIP args (lit "TO:") false with
  | none => .error (lit "501 5.5.4 Syntax: RCPT TO:<address>")
  | some (addr, params) =>
    let start : RcptToParams :=
      { addr := addr, dsn := { notify := [], orcpt := [] }, hasDSN := !params.isEmpty }
    eachParameter rcptParameter [] start params

end Elemta.Smtp
