import Elemta.Foundation.IpAddress
import Elemta.Foundation.Machine

/-!
# Blocks of the abuse engine

The part of the engine that refuses addresses: blocks made by an administrator and by
failed sign-ins, how they are lifted, and the copy of them that every connection is
checked against. Blocks are kept under the text of what they are for: an IPv4 address,
the /64 of an IPv6 client, or a network with its prefix length.

The shared store is one hash of Valkey. Its answers are inputs: a write that fails is
ignored by the engine, and the next sync replaces the engine's copy by what is stored.
The counters of failures live in the store too, so what they read is an input as well.
Other services that write the same hash are left out.
-/

namespace Elemta.Abuse

open Bytes IpAddress

abbrev Time := Nat

/-! ## What is counted and blocked -/

def clientAddress (host : Bytes) : Option Address :=
  parseIP (trimSpace ((splitHost host).getD host))

/-- The unit an address is counted as, empty for what is not an address. -/
def network (host : Bytes) : Bytes :=
  match clientAddress host with
  | none => []
  | some ip => if is4 ip then format ip else format (truncate 64 ip)

def subnet (network : Bytes) : Bytes :=
  match parseIP network with
  | none => []
  | some ip =>
    if is4 ip then format (truncate 120 ip) ++ lit "/24" else format (truncate 48 ip) ++ lit "/48"

/-- What an administrator can block, empty for anything else. -/
def target (value : Bytes) : Bytes :=
  let value := trimSpace value
  if 47 ∉ value then network value
  else
    match parseCIDR value with
    | none => []
    | some n => if n.ones < (if n.four then 112 else 32) then [] else n.format

/-! ## Policy -/

inductive Mode where
  | enforce
  | log
  | off
  deriving DecidableEq

inductive Action where
  | allow
  | deny
  deriving DecidableEq

inductive Direction where
  | inbound
  | outbound
  | both
  deriving DecidableEq

inductive Protocol where
  | smtp
  | imap
  | pop3
  | sieve
  | webmail
  | admin
  deriving DecidableEq

/-- A compiled rule; `network` is not there for a rule about a domain or a mail address. -/
structure Rule where
  action : Action
  direction : Direction
  network : Option Network
  protocols : List Protocol
  expires : Option Time
  deriving DecidableEq

def Rule.live (r : Rule) (now : Time) : Bool :=
  r.expires.all fun expires => decide (now < expires)

def Rule.exempts (r : Rule) (now : Time) : Bool :=
  r.action == .allow && r.network.isSome && r.protocols.isEmpty &&
    (r.direction == .both || r.direction == .inbound) && r.live now

structure Policy where
  mode : Mode
  failuresPerAddress : Nat
  accountsPerAddress : Nat
  failuresPerNetwork : Nat
  blockMinutes : Nat
  maxBlockHours : Nat
  rules : List Rule
  deriving DecidableEq

def minute : Time := 60000000000

def escalation : Nat := 4

def escalate (ceiling : Time) : Nat → Time → Time
  | 0, d => d
  | n + 1, d => if d < ceiling then escalate ceiling n (d * escalation) else d

def blockDuration (p : Policy) (strikes : Nat) : Time :=
  let ceiling := p.maxBlockHours * 60 * minute
  min (escalate ceiling (strikes - 1) (p.blockMinutes * minute)) ceiling

/-! ## The engine -/

structure Block where
  network : Bytes
  reason : Bytes
  service : Bytes
  failures : Nat
  strikes : Nat
  created : Time
  expires : Time
  manual : Bool
  deriving DecidableEq

/-- Whether there is a shared store: none is configured, none has been reached so far, or there
is a client for it. -/
inductive Link where
  | alone
  | away
  | linked
  deriving DecidableEq

structure Engine where
  policy : Policy
  link : Link
  /-- The copy that connections are checked against. -/
  blocks : Bytes → Option Block
  /-- The hash in the store. -/
  shared : Bytes → Option Block

namespace Engine

variable (e : Engine) (now : Time)

def exemptNetworks : List Network :=
  (e.policy.rules.filter fun r => r.exempts now).filterMap Rule.network

def isLoopback (ip : Address) : Bool :=
  if is4 ip then truncate 104 ip == 0xffff7f000000#128 else ip == 1#128

def exempt (host : Bytes) : Bool :=
  match parseIP ((splitHost host).getD host) with
  | none => false
  | some ip => isLoopback ip || (e.exemptNetworks now).any fun n => n.contains ip

def overlapsExempt (target : Bytes) : Bool :=
  if 47 ∉ target then e.exempt now target
  else
    match parseCIDR target with
    | none => false
    | some n =>
      n.contains 0xffff7f000001#128 || n.contains 1#128 ||
        (e.exemptNetworks now).any fun m => n.contains m.base || m.contains n.base

def blocked (addr : Bytes) : Option Block :=
  let key := network addr
  if key = [] ∨ e.policy.mode ≠ .enforce ∨ e.exempt now addr = true then none
  else
    let live := fun key => (e.blocks key).filter fun b => now < b.expires
    (live key).or (live (subnet key))

/-- `written` is the answer of the store; the engine does not look at it. -/
def apply (b : Block) (written : Bool) : Engine :=
  { e with
    blocks := Function.update e.blocks b.network (some b)
    shared := if e.link = .linked ∧ written then Function.update e.shared b.network (some b)
      else e.shared }

def blockAddress (addr reason : Bytes) (duration : Int) : Except Bytes Block :=
  let network := target addr
  if network = [] then
    .error (quoted addr ++ lit " is not an address or a network of /16 or smaller")
  else if e.overlapsExempt now network then .error (lit "an allow rule covers " ++ network)
  else if duration ≤ 0 then .error (lit "a block needs a duration")
  else
    .ok
      { network
        reason := if reason = [] then lit "blocked by an administrator" else reason
        service := lit "admin"
        failures := 0
        strikes := 0
        created := now
        expires := now + duration.toNat
        manual := true }

def unblock (network : Bytes) (written : Bool) : Engine :=
  { e with
    blocks := Function.update e.blocks network none
    shared := if e.link = .linked ∧ written then Function.update e.shared network none
      else e.shared }

/-- The block for too many failures; a network that is blocked already is left alone. -/
def trip (network service : Bytes) (failures strikes : Nat) : Option Block :=
  if (e.blocks network).any fun b => now < b.expires then none
  else if e.policy.mode ≠ .enforce then none
  else
    some
      { network
        reason := lit "too many failed sign-ins"
        service
        failures
        strikes
        created := now
        expires := now + blockDuration e.policy strikes
        manual := false }

end Engine

structure Counts where
  failures : Nat
  accounts : Nat
  inNetwork : Nat
  strikes : Nat
  networkStrikes : Nat
  deriving DecidableEq

namespace Engine

variable (e : Engine) (now : Time)

def addressBlock (addr service : Bytes) (c : Counts) : Option Block :=
  if e.policy.mode = .off ∨ network addr = [] ∨ e.exempt now addr = true then none
  else if e.policy.failuresPerAddress ≤ c.failures ∨
      (0 < e.policy.accountsPerAddress ∧ e.policy.accountsPerAddress ≤ c.accounts) then
    e.trip now (network addr) service c.failures c.strikes
  else none

def networkBlock (addr service : Bytes) (c : Counts) : Option Block :=
  if e.policy.mode = .off ∨ network addr = [] ∨ e.exempt now addr = true then none
  else if 0 < e.policy.failuresPerNetwork ∧ e.policy.failuresPerNetwork ≤ c.inNetwork then
    e.trip now (subnet (network addr)) service c.inNetwork c.networkStrikes
  else none

/-- Without a client the expired blocks go; otherwise the stored ones take the place of the copy,
unless they cannot be read. `tidied` is the answer to the deletion of expired rows. -/
def sync (connects reads tidied : Bool) : Engine :=
  let link := if e.link = .away ∧ connects then .linked else e.link
  let live := fun (rows : Bytes → Option Block) key => (rows key).filter fun b => now < b.expires
  if link = .linked ∧ reads then
    { e with link, blocks := live e.shared, shared := if tidied then live e.shared else e.shared }
  else { e with link, blocks := live e.blocks }

end Engine

/-! ## Runs -/

structure State where
  engine : Engine
  clock : Time
  /-- The blocks that were made and not lifted since. -/
  made : Bytes → Option Block

inductive Input where
  | blockAddress (addr reason : Bytes) (duration : Int) (written : Bool)
  | unblock (addr : Bytes) (written : Bool)
  | failure (addr service : Bytes) (counts : Counts) (written writtenNetwork : Bool)
  | setPolicy (p : Policy)
  | sync (connects reads tidied : Bool)
  | wait (d : Time)
  deriving DecidableEq

namespace State

def init (p : Policy) (configured : Bool) : State :=
  { engine :=
      { policy := p
        link := if configured then .away else .alone
        blocks := fun _ => none
        shared := fun _ => none }
    clock := 0
    made := fun _ => none }

def block (s : State) (b : Block) (written : Bool) : State :=
  { s with engine := s.engine.apply b written, made := Function.update s.made b.network (some b) }

def tryBlock (s : State) (b : Option Block) (written : Bool) : State :=
  match b with
  | none => s
  | some b => s.block b written

end State

def step (s : State) : Input → State
  | .blockAddress addr reason duration written =>
    match s.engine.blockAddress s.clock addr reason duration with
    | .error _ => s
    | .ok b => s.block b written
  | .unblock addr written =>
    if target addr = [] then s
    else
      { s with
        engine := s.engine.unblock (target addr) written
        made := Function.update s.made (target addr) none }
  | .failure addr service counts written writtenNetwork =>
    let s := s.tryBlock (s.engine.addressBlock s.clock addr service counts) written
    s.tryBlock (s.engine.networkBlock s.clock addr service counts) writtenNetwork
  | .setPolicy p => { s with engine := { s.engine with policy := p } }
  | .sync connects reads tidied => { s with engine := s.engine.sync s.clock connects reads tidied }
  | .wait d => { s with clock := s.clock + d }

end Elemta.Abuse
