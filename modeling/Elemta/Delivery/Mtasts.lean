import Elemta.Foundation.Bytes
import Elemta.Foundation.Machine

/-!
# MTA-STS policies

Policies of remote domains, as `MTASTSManager` fetches, caches and enforces them. A
policy is fetched over HTTPS, directly at first and once more when the domain has a TXT
record that announces one. What is found, and that nothing was found, is kept in a
bounded cache until it expires.

What the network answers and how long it takes are inputs, and so is the order in which
Go visits the cache, which is a step of its own. Lookups come one after another. Times
are in nanoseconds. The counters of the manager are left out.
-/

namespace Elemta.Mtasts

open Bytes

def second : Int := 1000000000

inductive Mode where
  | enforce
  | testing
  | none
  deriving DecidableEq

namespace Mode

def text : Mode → Bytes
  | enforce => lit "enforce"
  | testing => lit "testing"
  | none => lit "none"

def ofText (s : Bytes) : Option Mode :=
  [enforce, testing, none].find? fun m => m.text == s

end Mode

structure Policy where
  mode : Mode
  mx : List Bytes
  /-- In seconds. -/
  maxAge : Int
  fetchedAt : Int
  expiresAt : Int
  deriving DecidableEq

/-! ## Host names -/

def hostName (s : Bytes) : Bytes :=
  toLower (if s.getLast? = some 46 then s.dropLast else s)

def matchesPattern (host pattern : Bytes) : Bool :=
  pattern == host ||
    (hasPrefix pattern (lit "*.") &&
      (host == pattern.drop 2 || (pattern.drop 1).isSuffixOf host))

namespace Policy

def matchesMX (p : Policy) (mxHost : Bytes) : Bool :=
  p.mx.any fun pattern => matchesPattern (hostName mxHost) (hostName pattern)

def isEnforced (p : Policy) (now : Int) : Bool :=
  p.mode == .enforce && decide (now < p.expiresAt)

end Policy

/-! ## The text of a policy -/

structure Draft where
  version : Bytes
  mode : Bytes
  mx : List Bytes
  maxAge : Int

/-- `Sscanf` with `%d`: a sign, the digits behind it, and anything after them. -/
def scanInt (value : Bytes) : Option Int :=
  let sign := if value.head? = some 43 ∨ value.head? = some 45 then value.take 1 else []
  parseInt64 (sign ++ (value.drop sign.length).takeWhile isDigit)

def Draft.readField (d : Draft) (key value : Bytes) : Draft :=
  if key = lit "version" then { d with version := value }
  else if key = lit "mode" then { d with mode := toLower value }
  else if key = lit "max_age" then
    match scanInt value with
    | some age => if 0 < age then { d with maxAge := age } else d
    | none => d
  else if key = lit "mx" then { d with mx := d.mx ++ [value] }
  else d

def Draft.readLine (d : Draft) (line : Bytes) : Draft :=
  let line := trimSpace line
  if line = [] ∨ hasPrefix line (lit "#") then d
  else
    match cut (lit ":") line with
    | none => d
    | some (key, value) => d.readField (trimSpace (toLower key)) (trimSpace value)

/-- One day is the lifetime of a policy that does not give one. -/
def Draft.init : Draft :=
  { version := [], mode := lit "none", mx := [], maxAge := 86400 }

def parsePolicyText (text : Bytes) : Option Policy :=
  let d := (split (lit "\n") text).foldl Draft.readLine Draft.init
  if d.version ≠ lit "STSv1" then none
  else
    (Mode.ofText d.mode).map fun mode =>
      { mode, mx := d.mx, maxAge := d.maxAge, fetchedAt := 0, expiresAt := 0 }

/-! ## Fetching -/

/-- The product of a number of seconds and a second, in a signed word of 64 bits. -/
def seconds (n : Int) : Int :=
  (n * second).bmod (2 ^ 64)

def bodyLimit : Nat := 65536

/-- `body` is there when the answer has come from the right host with status 200. -/
def fetchPolicyFromHTTPS (body : Option Bytes) (now : Int) : Option Policy :=
  (body.bind fun text => parsePolicyText (text.take bodyLimit)).map fun p =>
    { p with fetchedAt := now, expiresAt := now + seconds p.maxAge }

/-- What the network answers in one lookup, and the time that passes up to each answer, up to the
change of the cache and up to the judgement. -/
structure Fetch where
  first : Option Bytes
  firstTook : Nat
  txt : Option (List Bytes)
  second : Option Bytes
  secondTook : Nat
  storing : Nat
  judging : Nat
  deriving DecidableEq

def Fetch.fetchPolicy (f : Fetch) (now : Int) : Option Policy × Int :=
  let now := now + f.firstTook
  match fetchPolicyFromHTTPS f.first now with
  | some p => (some p, now)
  | none =>
    let now := now + f.secondTook
    if f.txt.any fun records => records.any fun r => Bytes.contains r (lit "STSv1") then
      (fetchPolicyFromHTTPS f.second now, now)
    else (none, now)

/-! ## The cache -/

inductive Entry where
  | negative (expiresAt : Int)
  | policy (p : Policy)
  deriving DecidableEq

namespace Entry

def expiresAt : Entry → Int
  | negative t => t
  | policy p => p.expiresAt

def policy? : Entry → Option Policy
  | negative _ => none
  | policy p => some p

end Entry

abbrev Cache := List (Bytes × Entry)

namespace Cache

def erase (cache : Cache) (domain : Bytes) : Cache :=
  cache.filter fun row => row.1 != domain

/-- The loop that looks for the entry closest to expiry; no name stands for none so far. -/
def soonest (best : Bytes × Int) : Cache → Bytes × Int
  | [] => best
  | (k, e) :: rest =>
    if best.1 = [] ∨ e.expiresAt < best.2 then soonest (k, e.expiresAt) rest else soonest best rest

def unexpired (cache : Cache) (now : Int) : Cache :=
  cache.filter fun row => !decide (row.2.expiresAt < now)

def victim (cache : Cache) (maxSize : Nat) (now : Int) : Option Bytes :=
  let kept := cache.unexpired now
  let oldest := (soonest ([], 0) kept).1
  if maxSize ≤ kept.length ∧ oldest ≠ [] then some oldest else none

end Cache

/-! ## Checks -/

structure DeliveryError where
  message : Bytes
  details : Bytes
  temporary : Bool
  retryable : Bool
  deriving DecidableEq

def judge (policy : Option Policy) (now : Int) (domain mxHost : Bytes) (tlsUsed : Bool) :
    Option DeliveryError :=
  match policy with
  | none => none
  | some p =>
    if p.mode = .none then none
    else if p.matchesMX mxHost then
      if p.isEnforced now && !tlsUsed then
        some
          { message := lit "MTA-STS: TLS required for " ++ domain ++ lit " but not used"
            details := lit "policy mode: " ++ p.mode.text
            temporary := true
            retryable := true }
      else none
    else if p.isEnforced now then
      some
        { message := lit "MTA-STS: MX host " ++ mxHost ++ lit " does not match policy for " ++ domain
          details := lit "policy MX patterns: [" ++ join (lit " ") p.mx ++ lit "]"
          temporary := false
          retryable := false }
    else none

structure Check where
  domain : Bytes
  mxHost : Bytes
  tlsUsed : Bool
  time : Int
  policy : Option Policy
  error : Option DeliveryError
  deriving DecidableEq

inductive Event where
  | fetched (domain : Bytes) (p : Policy)
  /-- The entry of a domain was removed from a cache of unexpired entries. -/
  | evicted (domain : Bytes) (cache : Cache) (time : Int)
  | checked (c : Check)
  deriving DecidableEq

structure Config where
  enabled : Bool
  cacheSize : Int
  deriving DecidableEq

def Config.maxCacheSize (cfg : Config) : Nat :=
  if 0 < cfg.cacheSize then cfg.cacheSize.toNat else 1000

/-- How long it is remembered that a domain has no policy. -/
def negativeCacheTTL : Int := 600 * second

structure State where
  config : Config
  cache : Cache
  clock : Int
  /-- The newest event comes first. -/
  events : List Event

namespace State

def init (config : Config) : State :=
  { config, cache := [], clock := 0, events := [] }

def insert (s : State) (domain : Bytes) (entry : Entry) : State :=
  { s with cache := (domain, entry) :: s.cache.erase domain }

def makeRoom (s : State) : State :=
  let kept := s.cache.unexpired s.clock
  match s.cache.victim s.config.maxCacheSize s.clock with
  | none => { s with cache := kept }
  | some k => { s with cache := kept.erase k, events := .evicted k kept s.clock :: s.events }

def cacheStore (s : State) (domain : Bytes) (entry : Entry) : State :=
  if (s.cache.lookup domain).isNone ∧ s.config.maxCacheSize ≤ s.cache.length then
    s.makeRoom.insert domain entry
  else s.insert domain entry

def advance (s : State) (d : Nat) : State :=
  { s with clock := s.clock + d }

def fetchAndStore (s : State) (domain : Bytes) (f : Fetch) : State × Option Policy :=
  match f.fetchPolicy s.clock with
  | (none, now) =>
    let s := { s with clock := now }
    ((s.advance f.storing).cacheStore domain (.negative (now + negativeCacheTTL)), none)
  | (some p, now) =>
    let s := ({ s with clock := now }.advance f.storing).cacheStore domain (.policy p)
    ({ s with events := .fetched domain p :: s.events }, some p)

def getPolicy (s : State) (domain : Bytes) (f : Fetch) : State × Option Policy :=
  if s.config.enabled then
    let domain := toLower domain
    match s.cache.lookup domain with
    | none => s.fetchAndStore domain f
    | some e =>
      if s.clock < e.expiresAt then (s, e.policy?)
      else { s with cache := s.cache.erase domain }.fetchAndStore domain f
  else (s, none)

def enforcePolicy (s : State) (domain mxHost : Bytes) (tlsUsed : Bool) (f : Fetch) : State :=
  let (s, policy) := s.getPolicy domain f
  let s := s.advance f.judging
  let error := judge policy s.clock domain mxHost tlsUsed
  { s with events := .checked { domain, mxHost, tlsUsed, time := s.clock, policy, error } :: s.events }

end State

/-! ## Runs -/

inductive Input where
  | lookup (domain : Bytes) (f : Fetch)
  | check (domain mxHost : Bytes) (tlsUsed : Bool) (f : Fetch)
  | wait (d : Nat)
  /-- The cache is a map, which Go visits in any order. -/
  | reorder (cache : Cache)
  deriving DecidableEq

def step (s : State) : Input → State
  | .lookup domain f => (s.getPolicy domain f).1
  | .check domain mxHost tlsUsed f => s.enforcePolicy domain mxHost tlsUsed f
  | .wait d => s.advance d
  | .reorder cache => if cache.Perm s.cache then { s with cache } else s

end Elemta.Mtasts
