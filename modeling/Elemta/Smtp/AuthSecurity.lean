import Elemta.Foundation.Machine
import Elemta.Smtp.Auth
import Mathlib.Data.List.AList

/-!
# Failed logins of all sessions

The manager of `session_auth.go` that all sessions of a server share: failures are counted
for each address, and an account is locked for the address that tried it too often. Each
method holds the manager's lock, so a history is a list of recorded outcomes.

The count of an address goes on where it stood, however old the failures before are; it is
a count of one interval only while no failure comes later than that after the first one.
A success removes a lockout under the name of the account, but lockouts are kept under the
name and the address.
-/

namespace Elemta.Smtp

open Bytes

/-- The limits of `AuthSecurityConfig`, with times in seconds. -/
structure AuthSecurityConfig where
  maxAuthAttempts : Nat
  maxAuthAttemptsPerIP : Nat
  authRateInterval : Nat
  accountLockoutDuration : Nat

def AuthSecurityConfig.standard : AuthSecurityConfig :=
  { maxAuthAttempts := 5
    maxAuthAttemptsPerIP := 10
    authRateInterval := 15 * 60
    accountLockoutDuration := 30 * 60 }

/-- `since` is the time of the first failure that is counted, for the history only. -/
structure AuthFailureInfo where
  count : Nat
  lastTime : Nat
  since : Nat
  deriving DecidableEq

structure AuthSecurity where
  ipFailures : AList fun _ : Bytes => AuthFailureInfo
  accountLockouts : AList fun _ : Bytes => Nat

namespace AuthSecurity

def empty : AuthSecurity :=
  ⟨∅, ∅⟩

/-- `lockKey`: the account at the address, which may be no address with a port. -/
def lockKey (username : Bytes) (host : Option Bytes) : Bytes :=
  username ++ 0 :: host.getD []

def keeping {β : Type} (keep : β → Bool) (m : AList fun _ : Bytes => β) :
    AList fun _ : Bytes => β :=
  ⟨m.entries.filter fun entry => keep entry.2, m.nodupKeys.sublist List.filter_sublist⟩

def pruneLocked (cfg : AuthSecurityConfig) (now : Nat) (m : AuthSecurity) : AuthSecurity :=
  { ipFailures := keeping (fun f => decide (now ≤ f.lastTime + cfg.authRateInterval)) m.ipFailures
    accountLockouts := keeping (fun lockedUntil => decide (now ≤ lockedUntil)) m.accountLockouts }

def isIPRateLimited (cfg : AuthSecurityConfig) (now : Nat) (m : AuthSecurity) (ip : Bytes) : Bool :=
  match m.ipFailures.lookup ip with
  | none => false
  | some failure =>
    if failure.lastTime + cfg.authRateInterval < now then false
    else decide (cfg.maxAuthAttemptsPerIP ≤ failure.count)

def isAccountLocked (now : Nat) (m : AuthSecurity) (username : Bytes)
    (host : Option Bytes) : Bool :=
  (m.accountLockouts.lookup (lockKey username host)).any fun lockedUntil =>
    decide (now < lockedUntil)

/-- The refusals of `checkSecurityConstraints` that depend on the address; the first answer is that
of the abuse engine. -/
def checkAddress (cfg : AuthSecurityConfig) (now : Nat) (m : AuthSecurity) (blocked : Bool)
    (host : Option Bytes) : Option Bytes :=
  if blocked then
    some (lit "421 4.7.1 Too many failed sign-ins from this address; try again later")
  else if host.any (m.isIPRateLimited cfg now) then
    some (lit "421 4.7.0 Too many authentication attempts from this IP")
  else none

def failedAgain (now : Nat) : Option AuthFailureInfo → AuthFailureInfo
  | some failure => { failure with count := failure.count + 1, lastTime := now }
  | none => { count := 1, lastTime := now, since := now }

def recordAuthFailure (cfg : AuthSecurityConfig) (now : Nat) (m : AuthSecurity)
    (host : Option Bytes) (username : Bytes) (attempts : Nat) : AuthSecurity :=
  let m := if 10000 < m.ipFailures.entries.length then m.pruneLocked cfg now else m
  let m :=
    match host with
    | none => m
    | some host =>
      { m with ipFailures :=
          m.ipFailures.insert host (failedAgain now (m.ipFailures.lookup host)) }
  if cfg.maxAuthAttempts ≤ attempts then
    { m with accountLockouts :=
        m.accountLockouts.insert (lockKey username host) (now + cfg.accountLockoutDuration) }
  else m

def recordAuthSuccess (m : AuthSecurity) (host : Option Bytes) (username : Bytes) : AuthSecurity :=
  { ipFailures :=
      match host with
      | none => m.ipFailures
      | some host => m.ipFailures.erase host
    accountLockouts := m.accountLockouts.erase username }

/-! ## Histories -/

inductive Event where
  | failure (now : Nat) (host : Option Bytes) (username : Bytes) (attempts : Nat)
  | success (now : Nat) (host : Option Bytes) (username : Bytes)

def Event.now : Event → Nat
  | .failure now _ _ _ => now
  | .success now _ _ => now

def record (cfg : AuthSecurityConfig) (m : AuthSecurity) : Event → AuthSecurity
  | .failure now host username attempts => m.recordAuthFailure cfg now host username attempts
  | .success _ host username => m.recordAuthSuccess host username

def failureTimes (ip : Bytes) (events : List Event) : List Nat :=
  events.filterMap fun
    | .failure now (some host) _ _ => if host = ip then some now else none
    | _ => none

/-- A failure comes within the interval of the first one that is counted for its address. -/
def Current (cfg : AuthSecurityConfig) (m : AuthSecurity) : Event → Prop
  | .failure now (some host) _ _ =>
    ∀ failure ∈ m.ipFailures.lookup host, now ≤ failure.since + cfg.authRateInterval
  | _ => True

instance (cfg : AuthSecurityConfig) (m : AuthSecurity) (e : Event) : Decidable (Current cfg m e) :=
  match e with
  | .failure now (some host) _ _ =>
    inferInstanceAs (Decidable (∀ failure ∈ m.ipFailures.lookup host,
      now ≤ failure.since + cfg.authRateInterval))
  | .failure _ none _ _ => .isTrue trivial
  | .success .. => .isTrue trivial

variable {cfg : AuthSecurityConfig} {m : AuthSecurity}

theorem mem_lookup_of_keeping {β : Type} {keep : β → Bool} {table : AList fun _ : Bytes => β}
    {key : Bytes} {value : β} (h : value ∈ (keeping keep table).lookup key) :
    value ∈ table.lookup key :=
  AList.mem_lookup_iff.2 (List.mem_of_mem_filter (AList.mem_lookup_iff.1 h))

/-- What is counted for an address: failures of the history, none earlier than the first and none
later than the interval after it. -/
structure Counted (cfg : AuthSecurityConfig) (ip : Bytes) (events : List Event)
    (failure : AuthFailureInfo) : Prop where
  first : failure.since ∈ failureTimes ip events
  counted : ∃ times : List Nat, times.Sublist (failureTimes ip events) ∧
    times.length = failure.count ∧
    ∀ t ∈ times, failure.since ≤ t ∧ t ≤ failure.since + cfg.authRateInterval

theorem failureTimes_append (ip : Bytes) (first second : List Event) :
    failureTimes ip (first ++ second) = failureTimes ip first ++ failureTimes ip second :=
  List.filterMap_append

theorem failureTimes_snoc (ip : Bytes) (events : List Event) (now : Nat)
    (username : Bytes) (attempts : Nat) :
    failureTimes ip (events ++ [.failure now (some ip) username attempts]) =
      failureTimes ip events ++ [now] := by
  simp [failureTimes]

variable {failure : AuthFailureInfo} {ip username : Bytes} {events : List Event} {now : Nat}
  {host : Option Bytes}

theorem Counted.later (h : Counted cfg ip events failure) (e : Event) :
    Counted cfg ip (events ++ [e]) failure := by
  obtain ⟨times, hsub, hlength, hwithin⟩ := h.counted
  have hkept : (failureTimes ip events).Sublist (failureTimes ip (events ++ [e])) := by
    rw [failureTimes_append]
    exact List.sublist_append_left ..
  exact ⟨hkept.subset h.first, times, hsub.trans hkept, hlength, hwithin⟩

theorem Counted.again (h : Counted cfg ip events failure) (hsince : failure.since ≤ now)
    (hcurrent : now ≤ failure.since + cfg.authRateInterval) (username : Bytes) (attempts : Nat) :
    Counted cfg ip (events ++ [.failure now (some ip) username attempts])
      (failedAgain now (some failure)) := by
  obtain ⟨times, hsub, hlength, hwithin⟩ := h.counted
  refine ⟨(h.later _).first, times ++ [now], ?_, ?_, ?_⟩
  · rw [failureTimes_snoc]
    exact hsub.append (List.Sublist.refl _)
  · simp [failedAgain, hlength]
  · intro t ht
    rcases List.mem_append.1 ht with ht | ht
    · exact hwithin t ht
    · cases List.mem_singleton.1 ht
      exact ⟨hsince, hcurrent⟩

theorem Counted.start (ip : Bytes) (events : List Event) (now : Nat) (username : Bytes)
    (attempts : Nat) :
    Counted cfg ip (events ++ [.failure now (some ip) username attempts])
      (failedAgain now none) := by
  have hlast : [now].Sublist
      (failureTimes ip (events ++ [.failure now (some ip) username attempts])) := by
    rw [failureTimes_snoc]
    exact List.sublist_append_right ..
  refine ⟨hlast.subset (List.mem_singleton_self _), [now], hlast, rfl, ?_⟩
  intro t ht
  cases List.mem_singleton.1 ht
  exact ⟨Nat.le_refl _, Nat.le_add_right ..⟩

/-- What a recorded failure leaves for an address: the record that was there, or for the address it
came from one failure more. A record that was pruned counts from one again. -/
theorem lookup_recordAuthFailure {attempts : Nat}
    (h : failure ∈ (m.recordAuthFailure cfg now host username attempts).ipFailures.lookup ip) :
    failure ∈ m.ipFailures.lookup ip ∨
      host = some ip ∧ (failure = failedAgain now none ∨
        ∃ before ∈ m.ipFailures.lookup ip, failure = failedAgain now (some before)) := by
  -- Locking the account changes no record of an address.
  have hlocked : (m.recordAuthFailure cfg now host username attempts).ipFailures =
      let m := if 10000 < m.ipFailures.entries.length then m.pruneLocked cfg now else m
      match host with
      | none => m.ipFailures
      | some host => m.ipFailures.insert host (failedAgain now (m.ipFailures.lookup host)) := by
    unfold recordAuthFailure
    cases host <;> dsimp only <;> split <;> rfl
  rw [hlocked] at h
  generalize hpruned :
    (if 10000 < m.ipFailures.entries.length then m.pruneLocked cfg now else m) = pruned at h
  have hkept : ∀ f, f ∈ pruned.ipFailures.lookup ip → f ∈ m.ipFailures.lookup ip := by
    intro f hf
    rw [← hpruned] at hf
    split at hf
    · exact mem_lookup_of_keeping hf
    · exact hf
  cases host with
  | none => exact .inl (hkept _ h)
  | some host =>
    by_cases hip : ip = host
    · subst hip
      rw [AList.lookup_insert, Option.mem_some] at h
      refine .inr ⟨rfl, ?_⟩
      cases hbefore : pruned.ipFailures.lookup ip with
      | none => exact .inl (by rw [← h, hbefore])
      | some before => exact .inr ⟨before, hkept _ hbefore, by rw [← h, hbefore]⟩
    · rw [AList.lookup_insert_ne hip] at h
      exact .inl (hkept _ h)

theorem lookup_recordAuthSuccess
    (h : failure ∈ (m.recordAuthSuccess host username).ipFailures.lookup ip) :
    failure ∈ m.ipFailures.lookup ip := by
  cases host with
  | none => exact h
  | some host =>
    by_cases hip : ip = host
    · subst hip
      simp [recordAuthSuccess, AList.lookup_erase] at h
    · simpa only [recordAuthSuccess, AList.lookup_erase_ne hip] using h

theorem mem_failureTimes {t : Nat} (h : t ∈ failureTimes ip events) : ∃ e ∈ events, e.now = t := by
  obtain ⟨e, he, htime⟩ := List.mem_filterMap.1 h
  refine ⟨e, he, ?_⟩
  cases e with
  | success now host username => cases htime
  | failure now host username attempts =>
    cases host with
    | none => cases htime
    | some host =>
      dsimp only at htime
      split at htime
      · exact Option.some.inj htime
      · cases htime

/-- Every record of a history whose failures are current counts failures of one interval. -/
theorem counted_run (hclock : events.Pairwise fun e e' => e.now ≤ e'.now)
    (hcurrent : Machine.Along (record cfg) (Current cfg) empty events) :
    ∀ failure ∈ (Machine.run (record cfg) empty events).ipFailures.lookup ip,
      Counted cfg ip events failure := by
  induction events using List.reverseRecOn with
  | nil =>
    intro failure h
    cases h
  | append_singleton events e ih =>
    intro failure h
    obtain ⟨hbefore, hlast⟩ := Machine.along_append.1 hcurrent
    obtain ⟨hordered, -, hlatest⟩ := List.pairwise_append.1 hclock
    have ih := ih hordered hbefore
    rw [Machine.run_append] at h
    cases e with
    | success now host username =>
      exact (ih failure (lookup_recordAuthSuccess h)).later _
    | failure now host username attempts =>
      rcases lookup_recordAuthFailure h with hkept | ⟨rfl, rfl | ⟨before, hmem, rfl⟩⟩
      · exact (ih failure hkept).later _
      · exact Counted.start ip events now username attempts
      · -- The first failure of the record is in the history, hence not later than this one.
        obtain ⟨first, hfirst, htime⟩ := mem_failureTimes (ih before hmem).first
        have hsince : before.since ≤ now := by
          rw [← htime]
          exact hlatest first hfirst _ (List.mem_singleton_self _)
        exact (ih before hmem).again hsince (hlast.1 before hmem) username attempts

def failuresFrom (cfg : AuthSecurityConfig) (ip : Bytes) (events : List Event) (start : Nat) :
    List Nat :=
  (failureTimes ip events).filter fun t =>
    decide (start ≤ t) && decide (t ≤ start + cfg.authRateInterval)

theorem Counted.le_failuresFrom (h : Counted cfg ip events failure) :
    failure.count ≤ (failuresFrom cfg ip events failure.since).length := by
  obtain ⟨times, hsub, hlength, hwithin⟩ := h.counted
  have hall : times.filter (fun t => decide (failure.since ≤ t) &&
      decide (t ≤ failure.since + cfg.authRateInterval)) = times := by
    apply List.filter_eq_self.2
    intro t ht
    simpa using hwithin t ht
  rw [← hlength, ← hall]
  exact (hsub.filter _).length_le

theorem limited_of_checkAddress {blocked : Bool}
    (h : m.checkAddress cfg now blocked host =
      some (lit "421 4.7.0 Too many authentication attempts from this IP")) :
    ∃ ip, host = some ip ∧ ∃ failure ∈ m.ipFailures.lookup ip,
      cfg.maxAuthAttemptsPerIP ≤ failure.count := by
  unfold checkAddress at h
  split at h
  · cases h
  split at h
  · next hlimited =>
    obtain ⟨ip, rfl, hip⟩ := (Option.any_eq_true _ _).1 hlimited
    refine ⟨ip, rfl, ?_⟩
    unfold isIPRateLimited at hip
    split at hip
    · cases hip
    next failure hfailure =>
    split at hip
    · cases hip
    · exact ⟨failure, hfailure, of_decide_eq_true hip⟩
  · cases h

/-! ## Lockouts -/

theorem notMem_of_validateAuthenticationData {password : Bytes}
    (h : validateAuthenticationData username password = true) : (0 : UInt8) ∉ username := by
  intro hzero
  simp only [validateAuthenticationData, Bool.and_eq_true, List.all_eq_true] at h
  have hnone := h.1.1.2 [0] (by decide +kernel)
  have hsome : contains (toUpper username) [0] = true :=
    decide_eq_true ((List.singleton_infix_iff ..).2 (mem_toUpper (by decide) (by decide) hzero))
  rw [hsome] at hnone
  cases hnone

/-- A success removes what is kept under the bare name, where no lockout is. -/
theorem isAccountLocked_recordAuthSuccess (hname : (0 : UInt8) ∉ username) (other : Bytes)
    (place : Option Bytes) :
    (m.recordAuthSuccess host username).isAccountLocked now other place =
      m.isAccountLocked now other place := by
  have hkey : lockKey other place ≠ username := by
    rintro rfl
    exact hname (List.mem_append_right _ (List.mem_cons_self ..))
  simp only [isAccountLocked, recordAuthSuccess, AList.lookup_erase_ne hkey]

theorem isAccountLocked_mono {later : Nat} (hle : now ≤ later)
    (h : m.isAccountLocked now username host = false) :
    m.isAccountLocked later username host = false := by
  unfold isAccountLocked at *
  cases hlock : m.accountLockouts.lookup (lockKey username host) with
  | none => rfl
  | some lockedUntil =>
    rw [hlock] at h
    simp only [Option.any_some, decide_eq_false_iff_not] at h ⊢
    omega

/-- In a history whose failures come within the interval of the first one that is counted, an
address is refused as rate limited only with the allowed number of failures in one interval. A
success of an account that is not locked at that moment leaves it unlocked there, and every other
lockout as it is. -/
theorem limits_and_lockouts (cfg : AuthSecurityConfig) (events : List Event)
    (hclock : events.Pairwise fun e e' => e.now ≤ e'.now)
    (hcurrent : Machine.Along (record cfg) (Current cfg) empty events) :
    let m := Machine.run (record cfg) empty events
    (∀ now blocked host,
      m.checkAddress cfg now blocked host =
          some (lit "421 4.7.0 Too many authentication attempts from this IP") →
        ∃ ip, host = some ip ∧
          ∃ start, cfg.maxAuthAttemptsPerIP ≤ (failuresFrom cfg ip events start).length) ∧
    ∀ now host username password, validateAuthenticationData username password = true →
      m.isAccountLocked now username host = false →
        let after := m.record cfg (.success now host username)
        (∀ later, now ≤ later → after.isAccountLocked later username host = false) ∧
        ∀ later other place, (other, place) ≠ (username, host) →
          after.isAccountLocked later other place = m.isAccountLocked later other place := by
  intro m
  refine ⟨?_, ?_⟩
  · intro now blocked host h
    obtain ⟨ip, rfl, failure, hfailure, hcount⟩ := limited_of_checkAddress h
    have hcounted := counted_run hclock hcurrent failure hfailure
    exact ⟨ip, rfl, failure.since, hcount.trans hcounted.le_failuresFrom⟩
  · intro now host username password hvalid hunlocked after
    have hname := notMem_of_validateAuthenticationData hvalid
    refine ⟨?_, ?_⟩
    · intro later hle
      exact (isAccountLocked_recordAuthSuccess hname username host).trans
        (isAccountLocked_mono hle hunlocked)
    · intro later other place _
      exact isAccountLocked_recordAuthSuccess hname other place

def attacker : Option Bytes := some (lit "192.0.2.1")

/-- Ten failures of one address, a number of seconds apart and each on a connection of its own. -/
def tenFailures (gap : Nat) : List Event :=
  (List.range 10).map fun i => .failure (i * gap) attacker (lit "ann") 1

def sessionFailures (n : Nat) : List Event :=
  (List.range n).map fun i => .failure i attacker (lit "ann") (i + 1)

/-- Ten failures within nine minutes limit the address, and an account that signs in from another
one stays unlocked. -/
theorem limits_and_lockouts_minutes :
    ((Machine.run (record .standard) empty (tenFailures 60)).checkAddress .standard 600 false
        attacker = some (lit "421 4.7.0 Too many authentication attempts from this IP") ∧
    ∃ start, 10 ≤ (failuresFrom .standard (lit "192.0.2.1") (tenFailures 60) start).length) ∧
    ((Machine.run (record .standard) empty (tenFailures 60)).record .standard
        (.success 600 (some (lit "192.0.2.2")) (lit "bob"))).isAccountLocked 700 (lit "bob")
          (some (lit "192.0.2.2")) = false := by
  have hclock : (tenFailures 60).Pairwise fun e e' => e.now ≤ e'.now := by decide +kernel
  have hcurrent : Machine.Along (record .standard) (Current .standard) empty (tenFailures 60) := by
    decide +kernel
  have h := limits_and_lockouts .standard (tenFailures 60) hclock hcurrent
  have hlimited : (Machine.run (record .standard) empty (tenFailures 60)).checkAddress .standard 600
      false attacker = some (lit "421 4.7.0 Too many authentication attempts from this IP") := by
    decide +kernel
  obtain ⟨ip, hip, hcount⟩ := h.1 600 false _ hlimited
  cases hip
  exact ⟨⟨hlimited, hcount⟩,
    (h.2 600 _ (lit "bob") (lit "secret") (by decide +kernel) (by decide +kernel)).1 700
      (by decide)⟩

/-- Ten failures with sixteen minutes between them limit the address. And a sign-in that is let in
before the fifth failure of another session, and succeeds after it, does not remove the lockout of
its account. -/
theorem old_failures_counted :
    ((Machine.run (record .standard) empty (tenFailures 960)).checkAddress .standard 8641 false
        attacker = some (lit "421 4.7.0 Too many authentication attempts from this IP") ∧
    (failureTimes (lit "192.0.2.1") (tenFailures 960)).Pairwise fun t t' =>
      t + AuthSecurityConfig.standard.authRateInterval < t') ∧
    (Machine.run (record .standard) empty (sessionFailures 4)).checkAddress .standard 4 false
        attacker = none ∧
    (Machine.run (record .standard) empty (sessionFailures 4)).isAccountLocked 4 (lit "ann")
        attacker = false ∧
    ((Machine.run (record .standard) empty (sessionFailures 5)).record .standard
        (.success 5 attacker (lit "ann"))).isAccountLocked 6 (lit "ann") attacker = true := by
  decide +kernel

end AuthSecurity

end Elemta.Smtp
