import Elemta.Foundation.MailHeader
import Elemta.Smtp.Acceptance

/-!
# Who a message claims to be from

The verifier of the package `authresult`: SPF and DKIM results, the policy that the domain
of the From field publishes, and the verdict they lead to. What DNS, the SPF and DKIM
libraries, the address parser and the public suffix list say are parameters. The ARC
result and the reports of aggregated verdicts have no part in the disposition and are left
out, and so are timeouts.
-/

namespace Elemta.Smtp.AuthResults

open Bytes MailHeader

inductive Value where
  | pass
  | fail
  | softfail
  | neutral
  | none
  | temperror
  | permerror
  deriving DecidableEq

structure Result where
  value : Value
  domain : Bytes
  reason : Bytes
  deriving DecidableEq

inductive Policy where
  | none
  | quarantine
  | reject
  deriving DecidableEq

inductive Disposition where
  | accept
  | quarantine
  | reject
  deriving DecidableEq

structure Record where
  policy : Policy
  subdomainPolicy : Option Policy
  strictSPF : Bool
  strictDKIM : Bool
  deriving DecidableEq

inductive LookupError where
  | noPolicy
  | failed (reason : Bytes)
  deriving DecidableEq

structure Config where
  enabled : Bool
  spfEnabled : Bool
  dkimEnabled : Bool
  dmarcEnabled : Bool
  arcEnabled : Bool
  enforceDMARC : Bool
  deriving DecidableEq

/-- A configuration without any switch stands for the three older checks. -/
def Config.new (c : Config) : Config :=
  if c.enabled && !c.spfEnabled && !c.dkimEnabled && !c.dmarcEnabled && !c.arcEnabled then
    { c with spfEnabled := true, dkimEnabled := true, dmarcEnabled := true }
  else c

def Config.active (c : Config) : Bool :=
  c.enabled && (c.spfEnabled || c.dkimEnabled || c.dmarcEnabled || c.arcEnabled)

structure Outside where
  /-- The address of the peer, if it is one. -/
  clientIP : Option Bytes
  /-- `CheckHostWithSender`. -/
  checkHost : Bytes → Bytes → Bytes → Value × Bytes
  /-- The signatures on the complete message. -/
  dkim : List Result
  parseAddressList : Bytes → Except Bytes (List Bytes)
  /-- `EffectiveTLDPlusOne`. -/
  registrable : Bytes → Option Bytes
  lookup : Bytes → Except LookupError Record

/-! ## Domains -/

def isAngle (b : UInt8) : Bool :=
  b == 60 || b == 62

def domainOf (address : Bytes) : Bytes :=
  let address := ((trimSpace address).dropWhile isAngle).reverse.dropWhile isAngle
  if 64 ∈ address then toLower (address.takeWhile (· != 64)).reverse else []

variable (o : Outside)

def organizationalDomain (domain : Bytes) : Bytes :=
  let domain := toLower (trimDot domain)
  (o.registrable domain).getD domain

def aligned (authenticated sender : Bytes) (strict : Bool) : Bool :=
  let authenticated := toLower (trimDot authenticated)
  let sender := toLower (trimDot sender)
  if authenticated = [] ∨ sender = [] then false
  else if authenticated = sender then true
  else if strict then false
  else organizationalDomain o authenticated == organizationalDomain o sender

/-! ## The From field -/

def maxAuthorDomains : Nat := 4

def addDomain (domains : List Bytes) (domain : Bytes) : List Bytes :=
  if domain ∈ domains then domains else domains ++ [domain]

def addressDomains : List Bytes → List Bytes → Except Bytes (List Bytes)
  | domains, [] => .ok domains
  | domains, address :: rest =>
    let domain := trimDot (domainOf address)
    if domain = [] then .error (lit "From address has no domain")
    else addressDomains (addDomain domains domain) rest

def fieldDomains : List Bytes → List Bytes → Except Bytes (List Bytes)
  | domains, [] => .ok domains
  | domains, field :: rest =>
    match o.parseAddressList field with
    | .error e => .error (lit "unparseable From header: " ++ e)
    | .ok addresses =>
      match addressDomains domains addresses with
      | .error e => .error e
      | .ok domains => fieldDomains domains rest

def authorDomains (head : Bytes) : Except Bytes (List Bytes) :=
  match readMessage head with
  | none => .error (lit "unparseable header")
  | some header =>
    match header.values (lit "From") with
    | [] => .error (lit "message has no From header")
    | fields => fieldDomains o [] fields

/-! ## Checks -/

/-- The empty sender stands for the name in the greeting. -/
def checkSPF (heloName mailFrom : Bytes) : Result :=
  match o.clientIP with
  | none => { value := .none, domain := [], reason := lit "no client address" }
  | some ip =>
    let sender := if trimSpace mailFrom = [] ∨ mailFrom = lit "<>" then
      lit "postmaster@" ++ trimSpace heloName else mailFrom
    let answer := o.checkHost ip heloName sender
    { value := answer.1, domain := domainOf sender, reason := answer.2 }

/-- A domain without a record is governed by its organizational domain. -/
def lookupDMARC (domain : Bytes) : Except LookupError Record :=
  let org := organizationalDomain o domain
  match o.lookup domain with
  | .error .noPolicy =>
    if org = domain then .error .noPolicy
    else
      match o.lookup org with
      | .error e => .error e
      | .ok record => .ok { record with policy := record.subdomainPolicy.getD record.policy }
  | answer => answer

def spfAligned (spf : Result) (domain : Bytes) (record : Record) : Bool :=
  spf.value == .pass && aligned o spf.domain domain record.strictSPF

def dkimAligned (dkim : List Result) (domain : Bytes) (record : Record) : Bool :=
  dkim.any fun d => d.value == .pass && aligned o d.domain domain record.strictDKIM

def evaluateDMARC (spf : Result) (dkim : List Result) (domain : Bytes) : Value × Option Policy :=
  if domain = [] then (.none, none)
  else
    match lookupDMARC o domain with
    | .error .noPolicy => (.none, none)
    | .error (.failed _) => (.temperror, none)
    | .ok record =>
      (if spfAligned o spf domain record || dkimAligned o dkim domain record then .pass else .fail,
        some record.policy)

def policyRank : Option Policy → Nat
  | some .reject => 2
  | some .quarantine => 1
  | _ => 0

def strictest (spf : Result) (dkim : List Result) : List Bytes → Option Policy → Option Policy
  | [], policy => policy
  | domain :: rest, policy =>
    let (verdict, published) := evaluateDMARC o spf dkim domain
    strictest spf dkim rest
      (if verdict ≠ .pass ∧ policyRank policy < policyRank published then published else policy)

/-- With no domain there is no policy to apply, and several never pass. -/
def decideDMARC (authors : Except Bytes (List Bytes)) (spf : Result)
    (dkim : List Result) : Value × Option Policy :=
  match authors with
  | .error _ => (.permerror, none)
  | .ok [domain] => evaluateDMARC o spf dkim domain
  | .ok domains =>
    if maxAuthorDomains < domains.length then (.fail, some .reject)
    else (.fail, strictest o spf dkim domains none)

/-- A policy is acted on when the operator has asked for it. -/
def applyPolicy (c : Config) : Value × Option Policy → Disposition
  | (.fail, some .reject) => if c.enforceDMARC then .reject else .accept
  | (.fail, some .quarantine) => if c.enforceDMARC then .quarantine else .accept
  | _ => .accept

/-- `CheckWithOpener` on the front of a message. -/
def check (c : Config) (heloName mailFrom head : Bytes) : Disposition :=
  if !c.active then .accept
  else
    let spf := if c.spfEnabled then checkSPF o heloName mailFrom
      else { value := .none, domain := [], reason := lit "SPF plugin disabled" }
    let dkim := if c.dkimEnabled then o.dkim else []
    if c.dmarcEnabled then applyPolicy c (decideDMARC o (authorDomains o head) spf dkim)
    else .accept

/-! ## Messages of a domain that asks for rejection -/

variable {o}

variable {domain : Bytes}

theorem authorDomains_single {head field address : Bytes} {header : Fields}
    (hread : readMessage head = some header) (hfrom : header.values (lit "From") = [field])
    (hparse : o.parseAddressList field = .ok [address])
    (hdomain : trimDot (domainOf address) = domain) (hne : domain ≠ []) :
    authorDomains o head = .ok [domain] := by
  subst hdomain
  simp [authorDomains, hread, hfrom, fieldDomains, hparse, addressDomains, if_neg hne, addDomain]

theorem evaluateDMARC_fail {spf : Result} {dkim : List Result} {record : Record} (hne : domain ≠ [])
    (hlookup : lookupDMARC o domain = .ok record) (hspf : spfAligned o spf domain record = false)
    (hdkim : dkimAligned o dkim domain record = false) :
    evaluateDMARC o spf dkim domain = (.fail, some record.policy) := by
  simp [evaluateDMARC, hne, hlookup, hspf, hdkim]

end Elemta.Smtp.AuthResults
