import Elemta.Foundation.Slots
import Elemta.Foundation.Machine
import Elemta.Queue.Message

/-!
# Outbound sessions

Deliveries open sessions to MX hosts, park them behind a transaction and reuse them for
other messages, also for other domains that share the host. What was established when a
session was opened is kept in its flags; a later message looks at the flags only.

Beside its flags a session carries here what happened on the wire: which host was dialled,
whether the certificate passed ordinary (web PKI) verification, against which TLSA records
it was verified, and whether the peer advertised REQUIRETLS.
-/

namespace Elemta.Queue.Outbound

open Bytes

/-! ## Names -/

/-- The name of an MX host; no name that a resolver gives has a `>`. -/
structure MXHost where
  name : Bytes
  plain : 62 ∉ name
  deriving DecidableEq

structure Source where
  addr : Bytes
  plain : 62 ∉ addr
  deriving DecidableEq

/-- `net.JoinHostPort`. -/
def joinHostPort (host port : Bytes) : Bytes :=
  (if 58 ∈ host then lit "[" ++ host ++ lit "]" else host) ++ lit ":" ++ port

/-- The address of a host; the port is 25 except in tests of the source. -/
def MXHost.address (host : MXHost) (port : Nat) : Bytes :=
  joinHostPort host.name (itoa port)

def sessionKey (src : Option Source) (address : Bytes) : Bytes :=
  match src with
  | none => address
  | some src => src.addr ++ lit ">" ++ address

/-! ## Sessions -/

abbrev TLSA := Bytes

inductive OutboundTLS where
  | plaintext
  | unverified
  | verified
  deriving DecidableEq

structure Wire where
  peer : Bytes
  webPKI : Bool
  tlsa : Option (List TLSA)
  advertised : Bool
  deriving DecidableEq

structure Session where
  tls : OutboundTLS
  requireTLS : Bool
  dane : Bool
  created : Time
  idleSince : Time
  uses : Nat
  wire : Wire
  deriving DecidableEq

structure Connection where
  greets : Bool
  starttls : Bool
  chainValid : Bool
  /-- The handshake with verification against these records succeeds. -/
  tlsaMatches : List TLSA → Bool
  handshakes : Bool
  requireTLS : Bool

def opened (now : Time) (host : Bytes) (requireTLS : Bool) (tls : OutboundTLS) (webPKI : Bool)
    (tlsa : Option (List TLSA)) (c : Connection) : Option Session :=
  if requireTLS && !c.requireTLS then none
  else some
    { tls := tls
      requireTLS := c.requireTLS
      dane := tlsa.isSome
      created := now
      idleSince := now
      uses := 0
      wire := { peer := host, webPKI := webPKI, tlsa := tlsa, advertised := c.requireTLS } }

/-- Unverified TLS on a new connection, then plaintext on another. -/
def reconnectOpportunistic (conns : Nat → Connection) (allowUnverified : Bool) :
    Option (OutboundTLS × Connection) :=
  if (conns 1).greets then
    if (conns 1).starttls && allowUnverified then
      if (conns 1).handshakes then some (.unverified, conns 1)
      else if (conns 2).greets then some (.plaintext, conns 2) else none
    else some (.plaintext, conns 1)
  else none

/-- `connectSMTP` and the session that `acquireSession` makes of it; `conns` are the connections
that it dials one after the other. -/
def connectSMTP (now : Time) (host : Bytes) (conns : Nat → Connection) (requireTLS : Bool)
    (dane : Option (List TLSA)) : Option Session :=
  if (conns 0).greets then
    match dane with
    | some records =>
      -- TLS authenticated by TLSA or nothing
      if (conns 0).starttls && (conns 0).tlsaMatches records then
        opened now host requireTLS .verified false (some records) (conns 0)
      else none
    | none =>
      if (conns 0).starttls then
        if (conns 0).chainValid then opened now host requireTLS .verified true none (conns 0)
        else if requireTLS then none
        else
          match reconnectOpportunistic conns (!requireTLS) with
          | none => none
          | some (tls, c) => opened now host requireTLS tls false none c
      else if requireTLS then none
      else opened now host requireTLS .plaintext false none (conns 0)
  else none

/-! ## The cache -/

structure Limits where
  idleTimeout : Time
  maxLifetime : Time
  maxUses : Nat
  maxPerHost : Nat
  maxTotal : Nat

abbrev Idle := List (Bytes × Session)

def expired (lim : Limits) (now : Time) (s : Session) : Bool :=
  decide (now - s.idleSince > lim.idleTimeout) || decide (now - s.created > lim.maxLifetime) ||
    decide (s.uses ≥ lim.maxUses)

def usable (needRequireTLS needDANE : Bool) (s : Session) : Bool :=
  (!needRequireTLS || (decide (s.tls = .verified) && s.requireTLS)) && (!needDANE || s.dane)

/-- The last parked session that can be used; expired ones of the key are dropped on the way. -/
def take (lim : Limits) (now : Time) (key : Bytes) (needRequireTLS needDANE : Bool) :
    Idle → Option Session × Idle
  | [] => (none, [])
  | (k, s) :: rest =>
    if k = key then
      if expired lim now s then take lim now key needRequireTLS needDANE rest
      else if usable needRequireTLS needDANE s then
        (some s, rest.filter fun e => !(decide (e.1 = key) && expired lim now e.2))
      else
        let more := take lim now key needRequireTLS needDANE rest
        (more.1, (k, s) :: more.2)
    else
      let more := take lim now key needRequireTLS needDANE rest
      (more.1, (k, s) :: more.2)

/-- `evictOldestLocked`. -/
def evictOldest (idle : Idle) : Idle :=
  idle.eraseP fun e => (idle.map fun e => e.2.idleSince).min? == some e.2.idleSince

/-- `put`; `reset` is whether an unfinished transaction could be reset. -/
def put (lim : Limits) (now : Time) (key : Bytes) (s : Session) (clean reset : Bool)
    (idle : Idle) : Idle :=
  let s := { s with uses := s.uses + 1, idleSince := now }
  if !clean && !reset then idle
  else if expired lim now s || decide ((idle.filter fun e => e.1 = key).length ≥ lim.maxPerHost) then
    idle
  else
    let idle := if idle.length ≥ lim.maxTotal then evictOldest idle else idle
    if idle.length < lim.maxTotal then (key, s) :: idle else idle

/-! ## Deliveries -/

structure STSPolicy where
  enforced : Bool
  matchesMX : Bool
  deriving DecidableEq

/-- `EnforcePolicy`: the delivery is allowed. Without a policy, or when it cannot be fetched, it
is. -/
def enforcePolicy (policy : Option STSPolicy) (tlsUsed : Bool) : Bool :=
  match policy with
  | none => true
  | some policy => !policy.enforced || (policy.matchesMX && tlsUsed)

inductive Reply where
  | accepted
  /-- No reply, or 421. -/
  | gone
  | refused
  deriving DecidableEq

structure Delivery where
  source : Option Source
  host : MXHost
  requireTLS : Bool
  /-- `danePolicyFor`: `none` when a lookup failed, else the records, if DANE applies. -/
  dane : Option (Option (List TLSA))
  policy : Option STSPolicy

structure Sent where
  delivery : Delivery
  session : Session

structure State where
  now : Time
  idle : Idle
  /-- Sessions in use, with the keys under which they will be parked. -/
  inUse : List (Bytes × Session)
  sent : List Sent
  /-- The usable TLSA records that lookups gave, with their hosts. -/
  published : List (Bytes × List TLSA)

def State.start : State :=
  { now := 0, idle := [], inUse := [], sent := [], published := [] }

/-- One attempt on a session: the policy check, MAIL FROM, and what its reply means. The second
component says whether the message is tried once more on a new connection. -/
def attempt (s : State) (key : Bytes) (d : Delivery) (dp : Option (List TLSA)) (sess : Session)
    (reused : Bool) (reply : Reply) : State × Bool :=
  if !d.requireTLS && dp.isNone && !enforcePolicy d.policy (decide (sess.tls = .verified)) then
    (s, false)
  else
    let s := { s with sent := s.sent ++ [{ delivery := d, session := sess }] }
    match reply with
    | .accepted => ({ s with inUse := s.inUse ++ [(key, sess)] }, false)
    | .gone => (s, reused)
    | .refused => (s, false)

def attemptNew (s : State) (key : Bytes) (d : Delivery) (dp : Option (List TLSA))
    (conns : Nat → Connection) (reply : Reply) : State :=
  match connectSMTP s.now d.host.name conns d.requireTLS dp with
  | none => s
  | some sess => (attempt s key d dp sess false reply).1

/-- `deliverToAddressWithMetadata` behind the DANE lookups: first on a parked session, if there is
one. -/
def deliverTo (lim : Limits) (port : Nat) (s : State) (d : Delivery) (dp : Option (List TLSA))
    (conns : Nat → Connection) (reply again : Reply) : State :=
  let key := sessionKey d.source (d.host.address port)
  let taken := take lim s.now key d.requireTLS dp.isSome s.idle
  let s := { s with idle := taken.2 }
  match taken.1 with
  | none => attemptNew s key d dp conns reply
  | some sess =>
    let first := attempt s key d dp sess true reply
    if first.2 then attemptNew first.1 key d dp conns again else first.1

inductive Input where
  | wait (elapsed : Time)
  /-- A delivery up to the reply to MAIL FROM, on at most two sessions. -/
  | deliver (d : Delivery) (conns : Nat → Connection) (reply again : Reply)
  | finish (i : Nat) (reusable clean reset : Bool)

def step (lim : Limits) (port : Nat) (s : State) : Input → State
  | .wait elapsed => { s with now := s.now + elapsed }
  | .deliver d conns reply again =>
    match d.dane with
    | none => s
    | some none => deliverTo lim port s d none conns reply again
    | some (some records) =>
      deliverTo lim port { s with published := s.published ++ [(d.host.name, records)] } d
        (some records) conns reply again
  | .finish i reusable clean reset =>
    match s.inUse[i]? with
    | none => s
    | some (key, sess) =>
      { s with
        inUse := s.inUse.eraseIdx i
        idle := if reusable then put lim s.now key sess clean reset s.idle else s.idle }

/-! ## Keys -/

theorem joinHostPort_inj {host host' port : Bytes}
    (h : joinHostPort host port = joinHostPort host' port) : host = host' := by
  have hnames := List.append_cancel_right (List.append_cancel_right h)
  -- only a name with a colon is put into brackets, so the two sides agree on that
  have hcolon : 58 ∈ host ↔ 58 ∈ host' := by
    have hmem : ∀ name : Bytes,
        58 ∈ (if 58 ∈ name then lit "[" ++ name ++ lit "]" else name) ↔ 58 ∈ name := by
      intro name
      by_cases hc : 58 ∈ name
      · simp [hc]
      · simp [hc]
    rw [← hmem host, hnames, hmem host']
  by_cases hc : 58 ∈ host
  · rw [if_pos hc, if_pos (hcolon.1 hc)] at hnames
    exact List.append_cancel_left (List.append_cancel_right hnames)
  · rwa [if_neg hc, if_neg (fun h' => hc (hcolon.2 h'))] at hnames

theorem address_plain (host : MXHost) (port : Nat) : 62 ∉ host.address port := by
  have hport : (62 : UInt8) ∉ itoa port := fun hmem => absurd (le_of_mem_itoa hmem) (by decide)
  have hmarks : (62 : UInt8) ∉ lit "[" ∧ (62 : UInt8) ∉ lit "]" ∧ (62 : UInt8) ∉ lit ":" := by decide
  have hhost := host.plain
  unfold MXHost.address joinHostPort
  split
  · simp [hport, hhost, hmarks]
  · simp [hport, hhost, hmarks]

variable {published : List (Bytes × List TLSA)} {host : MXHost} {port : Nat} {sess : Session}
  {now : Time}

variable {host' : MXHost} {src src' : Option Source} {c : Connection} {requireTLS : Bool}
  {tls : OutboundTLS} {conns : Nat → Connection} {idle : Idle} {key : Bytes} {lim : Limits}

theorem sessionKey_address
    (h : sessionKey src (host.address port) = sessionKey src' (host'.address port)) :
    host.address port = host'.address port := by
  have hgt : ∀ (src : Source) (address : Bytes),
      cut [62] (src.addr ++ lit ">" ++ address) = some (src.addr, address) := by
    intro src address
    rw [List.append_assoc, cut_append_of_notMem src.plain]
    have hcut : cut [62] (lit ">" ++ address) = some ([], address) := cut_self_append [] address
    rw [hcut]
    simp
  have hmem : ∀ (src : Source) (address : Bytes), 62 ∈ src.addr ++ lit ">" ++ address := by
    intro src address
    have : (62 : UInt8) ∈ lit ">" := by decide
    simp [this]
  cases src with
  | none =>
    cases src' with
    | none => exact h
    | some src' =>
      have h : host.address port = src'.addr ++ lit ">" ++ host'.address port := h
      exact absurd (h ▸ hmem src' _) (address_plain host port)
  | some src =>
    cases src' with
    | none =>
      have h : src.addr ++ lit ">" ++ host.address port = host'.address port := h
      exact absurd (h ▸ hmem src _) (address_plain host' port)
    | some src' =>
      have hcut := congrArg (cut [62]) h
      simp only [sessionKey, hgt] at hcut
      exact (Prod.mk.inj (Option.some.inj hcut)).2

theorem host_of_sessionKey
    (h : sessionKey src (host.address port) = sessionKey src' (host'.address port)) :
    host.name = host'.name :=
  joinHostPort_inj (sessionKey_address h)

/-! ## What the flags stand for -/

/-- The flags of a session agree with what happened on the wire, and it waits under a key of the
host that was dialled. -/
structure Genuine (port : Nat) (published : List (Bytes × List TLSA)) (key : Bytes)
    (s : Session) : Prop where
  key_of : ∃ (src : Option Source) (host : MXHost),
    key = sessionKey src (host.address port) ∧ s.wire.peer = host.name
  dane : s.dane = true → s.tls = .verified ∧
    ∃ records, s.wire.tlsa = some records ∧ (s.wire.peer, records) ∈ published
  webPKI : s.tls = .verified → s.dane = false → s.wire.webPKI = true
  undane : s.dane = false → s.wire.tlsa = none
  advertised : s.requireTLS = s.wire.advertised

namespace Genuine

variable {port : Nat} {published published' : List (Bytes × List TLSA)} {key : Bytes}
  {s : Session}

theorem mono (h : Genuine port published key s) (hsub : published ⊆ published') :
    Genuine port published' key s where
  key_of := h.key_of
  dane hd := by
    obtain ⟨htls, records, hwire, hmem⟩ := h.dane hd
    exact ⟨htls, records, hwire, hsub hmem⟩
  webPKI := h.webPKI
  undane := h.undane
  advertised := h.advertised

theorem parked (h : Genuine port published key s) (uses : Nat) (since : Time) :
    Genuine port published key { s with uses := uses, idleSince := since } :=
  ⟨h.key_of, h.dane, h.webPKI, h.undane, h.advertised⟩

theorem peer_eq (h : Genuine port published (sessionKey src (host.address port)) s) :
    s.wire.peer = host.name := by
  obtain ⟨src', host', hkey, hpeer⟩ := h.key_of
  rw [hpeer, host_of_sessionKey hkey]

end Genuine

/-- What `opened` makes of a connection, for the ways in which `connectSMTP` calls it. -/
theorem opened_genuine {webPKI : Bool} {tlsa : Option (List TLSA)}
    (h : opened now host.name requireTLS tls webPKI tlsa c = some sess)
    (hneeds : requireTLS = true → tls = .verified)
    (hdane : ∀ records, tlsa = some records → tls = .verified ∧ (host.name, records) ∈ published)
    (hpki : tls = .verified → tlsa = none → webPKI = true) :
    Genuine port published (sessionKey src (host.address port)) sess ∧
      usable requireTLS tlsa.isSome sess = true := by
  unfold opened at h
  by_cases hreq : (requireTLS && !c.requireTLS) = true
  · rw [if_pos hreq] at h
    cases h
  rw [if_neg hreq] at h
  cases h
  refine ⟨⟨⟨src, host, rfl, rfl⟩, ?_, ?_, ?_, rfl⟩, ?_⟩
  · intro hd
    obtain ⟨records, hrecords⟩ := Option.isSome_iff_exists.1 hd
    obtain ⟨htls, hmem⟩ := hdane records hrecords
    exact ⟨htls, records, hrecords, hmem⟩
  · intro htls hd
    exact hpki htls (by simpa using hd)
  · intro hd
    simpa using hd
  · have hflag : (!tlsa.isSome || tlsa.isSome) = true := Bool.not_or_self _
    cases requireTLS with
    | false => simpa [usable] using hflag
    | true =>
      have hadv : c.requireTLS = true := by simpa using hreq
      simpa [usable, hneeds rfl, hadv] using hflag

/-- The fallback ends with unverified TLS or in plaintext. -/
theorem reconnectOpportunistic_tls {allowUnverified : Bool}
    (h : reconnectOpportunistic conns allowUnverified = some (tls, c)) : tls ≠ .verified := by
  rintro rfl
  revert h
  fun_cases reconnectOpportunistic conns allowUnverified <;> nofun

theorem connectSMTP_genuine {dane : Option (List TLSA)}
    (hpub : ∀ records, dane = some records → (host.name, records) ∈ published)
    (h : connectSMTP now host.name conns requireTLS dane = some sess) :
    Genuine port published (sessionKey src (host.address port)) sess ∧
      usable requireTLS dane.isSome sess = true := by
  revert h
  fun_cases connectSMTP now host.name conns requireTLS dane with
  | case1 _ records =>
    intro h
    refine opened_genuine h (fun _ => rfl) ?_ (by simp)
    intro records' heq
    exact ⟨rfl, hpub records' heq⟩
  | case3 => exact fun h => opened_genuine h (fun _ => rfl) (by simp) (fun _ _ => rfl)
  | case6 _ _ _ hreq tls c hre =>
    exact fun h => opened_genuine h (fun hr => absurd hr hreq) (by simp)
      (fun hv _ => absurd hv (reconnectOpportunistic_tls hre))
  | case8 _ _ hreq =>
    exact fun h => opened_genuine h (fun hr => absurd hr hreq) (by simp) (by simp)
  | _ => nofun

/-! ## The cache keeps what it was given -/

theorem take_spec (lim : Limits) (now : Time) (key : Bytes) (needRequireTLS needDANE : Bool)
    (idle : Idle) :
    (take lim now key needRequireTLS needDANE idle).2.Sublist idle ∧
      ∀ sess, (take lim now key needRequireTLS needDANE idle).1 = some sess →
        (key, sess) ∈ idle ∧ usable needRequireTLS needDANE sess = true := by
  fun_induction take lim now key needRequireTLS needDANE idle with
  | case1 => exact ⟨.slnil, nofun⟩
  | case2 s rest _ ih => exact ⟨ih.1.cons _, fun sess h => ⟨.tail _ (ih.2 sess h).1, (ih.2 sess h).2⟩⟩
  | case3 s rest _ huse =>
    refine ⟨List.filter_sublist.cons _, ?_⟩
    rintro _ ⟨⟩
    exact ⟨.head _, huse⟩
  | case4 s rest _ _ more ih | case5 k s rest _ more ih =>
    exact ⟨ih.1.cons_cons _, fun sess h => ⟨.tail _ (ih.2 sess h).1, (ih.2 sess h).2⟩⟩

theorem mem_put {s : Session} {clean reset : Bool} {entry : Bytes × Session}
    (h : entry ∈ put lim now key s clean reset idle) :
    entry ∈ idle ∨ entry = (key, { s with uses := s.uses + 1, idleSince := now }) := by
  have hevict : (if idle.length ≥ lim.maxTotal then evictOldest idle else idle).Sublist idle := by
    split
    · exact List.eraseP_sublist
    · exact .refl _
  revert h
  fun_cases put lim now key s clean reset idle with
  | case1 | case2 => exact .inl
  | case3 =>
    intro h
    rcases List.mem_cons.1 h with rfl | hmem
    · exact .inr rfl
    · exact .inl (hevict.subset hmem)
  | case4 => exact fun h => .inl (hevict.subset h)

/-! ## Every MAIL FROM -/

/-- What was established on the session covers what the message needs. DANE takes precedence over
MTA-STS, and a session that was authenticated by TLSA counts as verified. -/
structure Covered (published : List (Bytes × List TLSA)) (e : Sent) : Prop where
  peer : e.session.wire.peer = e.delivery.host.name
  requireTLS : e.delivery.requireTLS = true → e.session.wire.advertised = true ∧
    (e.session.wire.webPKI = true ∨ e.session.wire.tlsa.isSome = true)
  dane : ∀ records, e.delivery.dane = some (some records) →
    ∃ verifiedBy, e.session.wire.tlsa = some verifiedBy ∧
      (e.delivery.host.name, verifiedBy) ∈ published
  policy : ∀ policy, e.delivery.policy = some policy → policy.enforced = true →
    e.delivery.dane = some none → e.session.wire.tlsa = none → e.session.wire.webPKI = true

theorem Covered.mono {published' : List (Bytes × List TLSA)} {e : Sent}
    (h : Covered published e) (hsub : published ⊆ published') : Covered published' e where
  peer := h.peer
  requireTLS := h.requireTLS
  dane records hd := by
    obtain ⟨verifiedBy, hwire, hmem⟩ := h.dane records hd
    exact ⟨verifiedBy, hwire, hsub hmem⟩
  policy := h.policy

structure Sound (port : Nat) (s : State) : Prop where
  idle : ∀ entry ∈ s.idle, Genuine port s.published entry.1 entry.2
  inUse : ∀ entry ∈ s.inUse, Genuine port s.published entry.1 entry.2
  sent : ∀ e ∈ s.sent, Covered s.published e

section Steps

variable {lim : Limits} {port : Nat} {s : State} {d : Delivery} {dp : Option (List TLSA)}
  {sess : Session}

theorem Genuine.verified (h : Genuine port published key sess)
    (htls : sess.tls = .verified) : sess.wire.webPKI = true ∨ sess.wire.tlsa.isSome = true := by
  cases hd : sess.dane with
  | false => exact .inl (h.webPKI htls hd)
  | true =>
    obtain ⟨-, records, hwire, -⟩ := h.dane hd
    exact .inr (by rw [hwire]; rfl)

theorem usable_requireTLS {needDANE : Bool} (h : usable true needDANE sess = true) :
    sess.tls = .verified ∧ sess.requireTLS = true := by
  have hflags := ((Bool.and_eq_true ..).mp h).1
  simpa using hflags

theorem usable_dane {needRequireTLS : Bool} (h : usable needRequireTLS true sess = true) :
    sess.dane = true := by
  have hflags := ((Bool.and_eq_true ..).mp h).2
  simpa using hflags

/-- A session that passed the flag tests and the policy check covers the message. -/
theorem covered_of_usable
    (hg : Genuine port published (sessionKey d.source (d.host.address port)) sess)
    (huse : usable d.requireTLS dp.isSome sess = true) (hdp : d.dane = some dp)
    (hpolicy : ¬(!d.requireTLS && dp.isNone &&
      !enforcePolicy d.policy (decide (sess.tls = .verified))) = true) :
    Covered published { delivery := d, session := sess } where
  peer := hg.peer_eq
  requireTLS hreq := by
    obtain ⟨htls, hadv⟩ := usable_requireTLS (hreq ▸ huse)
    exact ⟨hg.advertised ▸ hadv, hg.verified htls⟩
  dane records hd := by
    obtain rfl : dp = some records := Option.some.inj (hdp ▸ hd)
    obtain ⟨-, verifiedBy, hwire, hmem⟩ := hg.dane (usable_dane huse)
    exact ⟨verifiedBy, hwire, hg.peer_eq ▸ hmem⟩
  policy policy hp henf hd htlsa := by
    have hp : d.policy = some policy := hp
    obtain rfl : dp = none := Option.some.inj (hdp ▸ hd)
    have htls : sess.tls = .verified := by
      cases hreq : d.requireTLS with
      | true => exact (usable_requireTLS (hreq ▸ huse)).1
      | false =>
        have hcheck : policy.matchesMX = true ∧ sess.tls = .verified := by
          simpa [hreq, hp, enforcePolicy, henf] using hpolicy
        exact hcheck.2
    rcases hg.verified htls with hpki | hsome
    · exact hpki
    · rw [htlsa] at hsome
      cases hsome

theorem Sound.attempt (h : Sound port s) (hdp : d.dane = some dp)
    (hg : Genuine port s.published (sessionKey d.source (d.host.address port)) sess)
    (huse : usable d.requireTLS dp.isSome sess = true) (reused : Bool) (reply : Reply) :
    Sound port
      (attempt s (sessionKey d.source (d.host.address port)) d dp sess reused reply).1 := by
  unfold Outbound.attempt
  split
  · exact h
  rename_i hpolicy
  have hsent : ∀ e ∈ s.sent ++ [{ delivery := d, session := sess }], Covered s.published e :=
    Slots.forall_concat h.sent (covered_of_usable hg huse hdp hpolicy)
  cases reply with
  | accepted => exact ⟨h.idle, Slots.forall_concat h.inUse hg, hsent⟩
  | gone | refused => exact ⟨h.idle, h.inUse, hsent⟩

theorem attempt_published (reused : Bool) (reply : Reply) :
    (attempt s key d dp sess reused reply).1.published = s.published := by
  unfold attempt
  split
  · rfl
  · cases reply <;> rfl

theorem Sound.attemptNew (h : Sound port s) (hdp : d.dane = some dp)
    (hpub : ∀ records, dp = some records → (d.host.name, records) ∈ s.published)
    (conns : Nat → Connection) (reply : Reply) :
    Sound port (attemptNew s (sessionKey d.source (d.host.address port)) d dp conns reply) := by
  unfold Outbound.attemptNew
  split
  · exact h
  · rename_i sess hconn
    obtain ⟨hg, huse⟩ := connectSMTP_genuine hpub hconn
    exact h.attempt hdp hg huse false reply

theorem Sound.publish (h : Sound port s) (records : List TLSA) (host : Bytes) :
    Sound port { s with published := s.published ++ [(host, records)] } where
  idle entry he := (h.idle entry he).mono (List.subset_append_left _ _)
  inUse entry he := (h.inUse entry he).mono (List.subset_append_left _ _)
  sent e he := (h.sent e he).mono (List.subset_append_left _ _)

theorem Sound.taken (h : Sound port s) (lim : Limits) (key : Bytes)
    (needRequireTLS needDANE : Bool) :
    Sound port { s with idle := (take lim s.now key needRequireTLS needDANE s.idle).2 } :=
  ⟨fun entry he => h.idle entry ((take_spec ..).1.subset he), h.inUse, h.sent⟩

theorem Sound.deliverTo (h : Sound port s) (hdp : d.dane = some dp)
    (hpub : ∀ records, dp = some records → (d.host.name, records) ∈ s.published)
    (conns : Nat → Connection) (reply again : Reply) :
    Sound port (deliverTo lim port s d dp conns reply again) := by
  unfold Outbound.deliverTo
  dsimp only
  have hleft := h.taken lim (sessionKey d.source (d.host.address port)) d.requireTLS dp.isSome
  split
  · exact hleft.attemptNew hdp hpub conns reply
  rename_i sess htaken
  obtain ⟨hmem, huse⟩ := (take_spec ..).2 sess htaken
  have hfirst := hleft.attempt hdp (h.idle _ hmem) huse true reply
  split
  · refine hfirst.attemptNew hdp ?_ conns again
    rw [attempt_published]
    exact hpub
  · exact hfirst

theorem Sound.step (h : Sound port s) (i : Input) : Sound port (step lim port s i) := by
  cases i with
  | wait elapsed => exact ⟨h.idle, h.inUse, h.sent⟩
  | deliver d conns reply again =>
    simp only [Outbound.step]
    split
    · exact h
    · rename_i hdp
      exact h.deliverTo hdp (by simp) conns reply again
    · rename_i records hdp
      refine (h.publish records d.host.name).deliverTo hdp ?_ conns reply again
      rintro _ ⟨rfl⟩
      simp
  | finish i reusable clean reset =>
    simp only [Outbound.step]
    split
    · exact h
    rename_i key sess hi
    have hg : Genuine port s.published key sess := h.inUse _ (List.mem_of_getElem? hi)
    refine ⟨?_, fun entry he => h.inUse entry (List.mem_of_mem_eraseIdx he), h.sent⟩
    intro entry he
    split at he
    · rcases mem_put he with hold | rfl
      · exact h.idle entry hold
      · exact hg.parked _ _
    · exact h.idle entry he

end Steps

theorem sound_run (inputs : List Input) :
    Sound port (Machine.run (step lim port) State.start inputs) :=
  Machine.run_invariant (Sound port) (fun _ i h => h.step i)
    ⟨by simp [State.start], by simp [State.start], by simp [State.start]⟩ inputs

/-- Whatever was opened, parked and reused before, every MAIL FROM goes out on a session whose
establishment covers the message. -/
theorem covered_of_sent (lim : Limits) (port : Nat) (inputs : List Input) (e : Sent)
    (h : e ∈ (Machine.run (step lim port) State.start inputs).sent) :
    Covered (Machine.run (step lim port) State.start inputs).published e :=
  (sound_run inputs).sent e h

/-! Two domains share a host with a self-signed certificate and TLSA records; only the MX records
of the first domain are signed. -/

def sharedHost : MXHost :=
  { name := lit "mx.example", plain := by decide }

def selfSigned : Connection :=
  { greets := true
    starttls := true
    chainValid := false
    tlsaMatches := fun records => records.contains (lit "3 1 1 aa")
    handshakes := true
    requireTLS := true }

def toSigned : Delivery :=
  { source := none
    host := sharedHost
    requireTLS := false
    dane := some (some [lit "3 1 1 aa"])
    policy := some { enforced := true, matchesMX := true } }

def toUnsigned (requireTLS : Bool) : Delivery :=
  { toSigned with requireTLS := requireTLS, dane := some none }

def sharing (requireTLS : Bool) : List Input :=
  [.deliver toSigned (fun _ => selfSigned) .accepted .refused, .finish 0 true true true,
    .wait 1000000, .deliver (toUnsigned requireTLS) (fun _ => selfSigned) .accepted .refused]

def newSessionCache : Limits :=
  { idleTimeout := 5000000000
    maxLifetime := 300000000000
    maxUses := 100
    maxPerHost := 4
    maxTotal := 256 }

def parkedSession : Session :=
  { tls := .verified
    requireTLS := true
    dane := true
    created := 0
    idleSince := 0
    uses := 1
    wire :=
      { peer := lit "mx.example"
        webPKI := false
        tlsa := some [lit "3 1 1 aa"]
        advertised := true } }

theorem sent_of_sharing :
    (Machine.run (step newSessionCache 25) State.start (sharing requireTLS)).sent =
      [{ delivery := toSigned, session := { parkedSession with uses := 0 } },
        { delivery := toUnsigned requireTLS, session := parkedSession }] := by
  cases requireTLS <;> rfl

/-- A REQUIRETLS message rides a session that TLSA records authenticated. -/
theorem covered_on_parked :
    (parkedSession.wire.advertised = true ∧
      (parkedSession.wire.webPKI = true ∨ parkedSession.wire.tlsa.isSome = true)) ∧
    (toUnsigned true).requireTLS = true :=
  ⟨(covered_of_sent newSessionCache 25 (sharing true)
      { delivery := toUnsigned true, session := parkedSession }
      (by rw [sent_of_sharing]; simp)).requireTLS rfl, rfl⟩

/-- Under an enforced policy a message goes out on a session without web PKI verification: the
first one by the precedence of DANE, the second one because a session that TLSA records
authenticated was parked as verified. -/
theorem policy_without_webPKI :
    ∃ first second : Sent,
      (Machine.run (step newSessionCache 25) State.start (sharing false)).sent = [first, second] ∧
      first.delivery.policy = some { enforced := true, matchesMX := true } ∧
      first.session.wire.webPKI = false ∧
      second.delivery.policy = some { enforced := true, matchesMX := true } ∧
      second.delivery.dane = some none ∧ second.session.wire.webPKI = false :=
  ⟨_, _, sent_of_sharing, rfl, rfl, rfl, rfl, rfl⟩

end Elemta.Queue.Outbound
