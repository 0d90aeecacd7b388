import Elemta.Foundation.Leases
import Elemta.Foundation.Machine
import Elemta.Queue.FileStore
import Mathlib.Data.List.Dedup
import Mathlib.Data.List.InsertIdx

/-!
# Claims

Workers share one store. `ClaimMessages` leases the first free messages of the active
queue to a worker, the worker's dispatcher starts an attempt on each of them, and behind
the attempt the worker releases its claim. A worker is a processor with its own id; it
has one id for all its claims. The SQL backends keep the claim in the row and drop it
whenever `Move` changes the queue; the file backend keeps the claims in a map beside the
directories.

An attempt lasts from the claim that it was handed to the release behind it.
-/

namespace Elemta.Queue.Claims

open Bytes Leases
open FileStore (queueOrder)

/-! ## The store -/

inductive Backend where
  | file
  | sql
  deriving DecidableEq

abbrev ClaimTable := Table Bytes Bytes Time

/-- Where each message is; the file backend can have it in several queues. -/
abbrev Places := Bytes → QueueType → Bool

def claimable (claims : ClaimTable) (id : Bytes) (now : Time) : Bool :=
  free claims now id

def claimMessages (claims : ClaimTable) (listing : List Bytes) (limit : Nat)
    (workerID : Bytes) (now leaseUntil : Time) : List Bytes × ClaimTable :=
  if trimSpace workerID = [] then ([], claims)
  else take { holder := workerID, expires := leaseUntil } now limit listing claims

/-- `ReleaseMessageClaim`; a blank worker id releases the claim of any worker. -/
def releaseMessageClaim (claims : ClaimTable) (id workerID : Bytes) : ClaimTable :=
  if trimSpace id = [] then claims
  else
    match claims id with
    | none => claims
    | some claim =>
      if trimSpace workerID ≠ [] ∧ claim.holder ≠ workerID then claims
      else Function.update claims id none

/-- Where `Move` leaves a message that it found in `source`. The file backend unlinks the file in
`source` last, also when that is the target. -/
def movedTo (b : Backend) (places : QueueType → Bool) (source target : QueueType) :
    QueueType → Bool :=
  fun q =>
    match b with
    | .file => if q = source then false else if q = target then true else places q
    | .sql => decide (q = target)

def updatedTo (b : Backend) (places : QueueType → Bool) (queue : QueueType) : QueueType → Bool :=
  fun q =>
    match b with
    | .file => if q = queue then true else places q
    | .sql => if queueOrder.any places then decide (q = queue) else places q

def deletedFrom (b : Backend) (places : QueueType → Bool) : QueueType → Bool :=
  fun q =>
    match b with
    | .file => places q && queueOrder.find? places != some q
    | .sql => false

/-! ## Workers -/

structure Grant where
  worker : Bytes
  id : Bytes
  since : Time
  leaseUntil : Time
  deriving DecidableEq

def granted (worker : Bytes) (since leaseUntil : Time) (id : Bytes) : Grant :=
  { worker := worker, id := id, since := since, leaseUntil := leaseUntil }

inductive Stage where
  /-- Leased, the record not read yet. -/
  | claimed
  /-- In the batch that `dispatch` walks. -/
  | batched
  | running
  /-- The attempt has moved or deleted the message. -/
  | settled
  /-- Out of `processingMessages`, the claim not released yet. -/
  | closing
  deriving DecidableEq

structure Attempt extends Grant where
  stage : Stage
  deriving DecidableEq

structure State where
  now : Time
  places : Places
  claims : ClaimTable
  /-- `processingMessages` of each worker. -/
  processing : Bytes → Bytes → Bool
  attempts : List Attempt

def State.grants (s : State) : List Grant :=
  s.attempts.map Attempt.toGrant

def State.start : State :=
  { now := 0
    places := fun _ _ => false
    claims := fun _ => none
    processing := fun _ _ => false
    attempts := [] }

def State.move (b : Backend) (s : State) (id : Bytes) (source target : QueueType) : State :=
  if s.places id source then
    { s with
      places := Function.update s.places id (movedTo b (s.places id) source target)
      claims := if b = .sql then Function.update s.claims id none else s.claims }
  else s

def State.update (b : Backend) (s : State) (id : Bytes) (queue : QueueType) : State :=
  { s with places := Function.update s.places id (updatedTo b (s.places id) queue) }

def State.delete (b : Backend) (s : State) (id : Bytes) : State :=
  { s with
    places := Function.update s.places id (deletedFrom b (s.places id))
    claims := if b = .sql then Function.update s.claims id none else s.claims }

def State.releaseClaim (s : State) (id workerID : Bytes) : State :=
  { s with claims := releaseMessageClaim s.claims id workerID }

def State.drop (s : State) (i : Nat) : State :=
  { s with attempts := s.attempts.eraseIdx i }

def State.stageAt (s : State) (i : Nat) (a : Attempt) (stage : Stage) : State :=
  { s with attempts := s.attempts.set i { a with stage := stage } }

def State.attemptAt (s : State) (i : Nat) (stages : List Stage) : Option Attempt :=
  s.attempts[i]?.filter fun a => stages.contains a.stage

inductive Input where
  | wait (elapsed : Time)
  | enqueue (id : Bytes)
  /-- The listing was read before the claim; SQL reads it in the same statement. -/
  | claim (worker : Bytes) (limit : Nat) (leaseUntil : Time) (listing : List Bytes)
  | fetch (i : Nat) (readable : Bool)
  | dispatch (i : Nat)
  /-- The dispatcher of a worker that shuts down leaves the rest of its batch. -/
  | abandon (i : Nat)
  | record (i : Nat)
  /-- The attempt moves the message from where `MoveMessage` finds it. -/
  | retire (i : Nat) (source : QueueType) (failed : Bool)
  | consume (i : Nat)
  | finish (i : Nat)
  | release (i : Nat)
  /-- The retry scan, an operator's hold, and the first call of an operator's requeue. -/
  | move (id : Bytes) (source target : QueueType)
  /-- The second call of a requeue with a blank worker id, or an operator's own call. -/
  | releaseClaim (id worker : Bytes)
  | requeued (id : Bytes)
  | forgetExpired
  deriving DecidableEq

def visible (b : Backend) (s : State) (listing : List Bytes) : List Bytes :=
  match b with
  | .file => listing.dedup
  | .sql => listing.dedup.filter fun id => s.places id .active

def step (b : Backend) (s : State) : Input → State
  | .wait elapsed => { s with now := s.now + elapsed }
  | .enqueue id =>
    -- a repeated enqueue finds its message
    if queueOrder.any (s.places id) then s
    else { s with places := Function.update s.places id fun q => decide (q = .active) }
  | .claim worker limit leaseUntil listing =>
    let claimed := claimMessages s.claims (visible b s listing) limit worker s.now leaseUntil
    { s with
      claims := claimed.2
      attempts := s.attempts ++ claimed.1.map fun id =>
        { granted worker s.now leaseUntil id with stage := .claimed } }
  | .fetch i readable =>
    match s.attemptAt i [.claimed] with
    | none => s
    | some a =>
      -- the row came with the claim, the file is read behind it
      if readable && (b == .sql || s.places a.id .active) then s.stageAt i a .batched
      else (s.releaseClaim a.id a.worker).drop i
  | .dispatch i =>
    match s.attemptAt i [.batched] with
    | none => s
    | some a =>
      if s.processing a.worker a.id then s.drop i
      else
        { s.stageAt i a .running with
          processing := Function.update s.processing a.worker
            (Function.update (s.processing a.worker) a.id true) }
  | .abandon i =>
    match s.attemptAt i [.claimed, .batched] with
    | none => s
    | some _ => s.drop i
  | .record i =>
    match s.attemptAt i [.running] with
    | none => s
    | some a => s.update b a.id .active
  | .retire i source failed =>
    match s.attemptAt i [.running] with
    | none => s
    | some a =>
      (s.move b a.id source (if failed then .failed else .deferred)).stageAt i a .settled
  | .consume i =>
    match s.attemptAt i [.running] with
    | none => s
    | some a => (s.delete b a.id).stageAt i a .settled
  | .finish i =>
    match s.attemptAt i [.running, .settled] with
    | none => s
    | some a =>
      { s.stageAt i a .closing with
        processing := Function.update s.processing a.worker
          (Function.update (s.processing a.worker) a.id false) }
  | .release i =>
    match s.attemptAt i [.closing] with
    | none => s
    | some a => (s.releaseClaim a.id a.worker).drop i
  | .move id source target => s.move b id source target
  | .releaseClaim id worker => s.releaseClaim id worker
  | .requeued id => s.update b id .active
  | .forgetExpired => { s with claims := prune s.claims s.now }

/-! ## Exclusive claims -/

structure Exclusive (s : State) : Prop where
  /-- No id is under two unexpired, unreleased claims. -/
  one : ∀ (i j : Nat) (a b : Grant), s.grants[i]? = some a → s.grants[j]? = some b → a.id = b.id →
    s.now ≤ a.leaseUntil → s.now ≤ b.leaseUntil → i = j
  /-- A release by a worker whose claim is not the one in the store changes nothing. -/
  superseded : ∀ a ∈ s.grants, s.claims a.id ≠ some { holder := a.worker, expires := a.leaseUntil } →
    releaseMessageClaim s.claims a.id a.worker = s.claims
  /-- Of two attempts that overlap, the lease of the older had expired when the newer one was
  claimed. -/
  overlap : ∀ (i j : Nat) (a b : Grant), i < j → s.grants[i]? = some a → s.grants[j]? = some b →
    a.id = b.id → a.leaseUntil < b.since

def Idle (s : State) (id : Bytes) : Prop :=
  ∀ a ∈ s.grants, a.id ≠ id

instance (s : State) (id : Bytes) : Decidable (Idle s id) :=
  inferInstanceAs (Decidable (∀ a ∈ s.grants, a.id ≠ id))

/-- A message comes back into the active queue, and loses a claim regardless of its holder, only
while no attempt on it is in progress; and a worker is not handed an id again that it still has an
attempt on. -/
def Considerate (s : State) : Input → Prop
  | .enqueue id => Idle s id
  | .claim worker _ _ listing =>
    ∀ a ∈ s.grants, a.worker = worker → a.id ∈ listing → claimable s.claims a.id s.now = false
  | .record i => ∀ a ∈ s.attempts[i]?, s.places a.id .active = true
  | .move id _ target => target = .active → Idle s id
  | .releaseClaim id _ => Idle s id
  | .requeued id => Idle s id
  | _ => True

/-! ## What a considerate step preserves -/

/-- What every reachable state has. An unexpired claim is in the store, or the store cannot hand
the message out. -/
structure Guarded (b : Backend) (now : Time) (grants : List Grant) (claims : ClaimTable)
    (active : Bytes → Bool) : Prop where
  expired : grants.Pairwise fun a a' => a.id = a'.id → a.leaseUntil < a'.since
  workers : grants.Pairwise fun a a' => a.id = a'.id → a.worker ≠ a'.worker
  named : ∀ a ∈ grants, trimSpace a.worker ≠ []
  past : ∀ a ∈ grants, a.since ≤ now
  own : ∀ a ∈ grants, ∀ c, claims a.id = some c → c.holder = a.worker → c.expires = a.leaseUntil
  held : ∀ a ∈ grants, now ≤ a.leaseUntil →
    claims a.id = some { holder := a.worker, expires := a.leaseUntil } ∨
      (b = .sql ∧ active a.id = false)

section

variable {b : Backend} {now : Time} {grants grants' : List Grant} {claims claims' : ClaimTable}
  {active active' : Bytes → Bool}

section

variable (h : Guarded b now grants claims active)

include h

theorem Guarded.shrink (hsub : grants'.Sublist grants) :
    Guarded b now grants' claims active where
  expired := h.expired.sublist hsub
  workers := h.workers.sublist hsub
  named a ha := h.named a (hsub.subset ha)
  past a ha := h.past a (hsub.subset ha)
  own a ha := h.own a (hsub.subset ha)
  held a ha := h.held a (hsub.subset ha)

theorem Guarded.wait (elapsed : Time) :
    Guarded b (now + elapsed) grants claims active where
  expired := h.expired
  workers := h.workers
  named := h.named
  past a ha := Nat.le_add_right_of_le (h.past a ha)
  own := h.own
  held a ha hnow := h.held a ha ((Nat.le_add_right _ _).trans hnow)

/-- A step that drops claims, or takes messages out of reach, but drops no current claim of a
message that stays in reach. -/
theorem Guarded.change (hclaims : ∀ a ∈ grants, claims' a.id = claims a.id ∨
      claims' a.id = none ∧ (now ≤ a.leaseUntil →
        claims a.id = some { holder := a.worker, expires := a.leaseUntil } →
        b = .sql ∧ active' a.id = false))
    (hactive : ∀ a ∈ grants, active a.id = false → active' a.id = false) :
    Guarded b now grants claims' active' where
  expired := h.expired
  workers := h.workers
  named := h.named
  past := h.past
  own a ha c hc := by
    rcases hclaims a ha with hsame | ⟨hnone, -⟩
    · exact h.own a ha c (hsame ▸ hc)
    · rw [hnone] at hc
      cases hc
  held a ha hnow := by
    rcases h.held a ha hnow with hclaim | ⟨hb, hout⟩
    · exact (hclaims a ha).imp (fun hsame => hsame.trans hclaim) fun hnone => hnone.2 hnow hclaim
    · exact .inr ⟨hb, hactive a ha hout⟩

/-- A step that touches one message, when no attempt on it is in progress or what it takes away is
also out of reach. -/
theorem Guarded.touch (id : Bytes)
    (hclaims : ∀ other, other ≠ id → claims' other = claims other)
    (hactive : ∀ other, other ≠ id → active' other = active other)
    (hid : (∀ a ∈ grants, a.id ≠ id) ∨
      (claims' id = claims id ∨ claims' id = none ∧ b = .sql ∧ active' id = false) ∧
        (active id = false → active' id = false)) :
    Guarded b now grants claims' active' := by
  refine h.change (fun a ha => ?_) (fun a ha => ?_) <;> by_cases hne : a.id = id
  · rcases hid with hidle | ⟨hsame | ⟨hnone, hout⟩, -⟩
    · exact absurd hne (hidle a ha)
    · exact .inl (hne ▸ hsame)
    · exact .inr ⟨hne ▸ hnone, fun _ _ => hne ▸ hout⟩
  · exact .inl (hclaims a.id hne)
  · rcases hid with hidle | ⟨-, hstays⟩
    · exact absurd hne (hidle a ha)
    · exact hne ▸ hstays
  · exact fun hout => (hactive a.id hne).trans hout

end

theorem releaseMessageClaim_eq (id worker : Bytes) :
    releaseMessageClaim claims id worker = claims ∨
      releaseMessageClaim claims id worker = Function.update claims id none := by
  unfold releaseMessageClaim
  split
  · exact .inl rfl
  cases claims id with
  | none => exact .inl rfl
  | some claim =>
    dsimp only
    split
    · exact .inl rfl
    · exact .inr rfl

variable {id worker : Bytes}

theorem releaseMessageClaim_other {other : Bytes} (hne : other ≠ id) :
    releaseMessageClaim claims id worker other = claims other := by
  rcases releaseMessageClaim_eq id worker with h | h <;> rw [h]
  exact Function.update_of_ne hne _ _

theorem releaseMessageClaim_cases (id worker other : Bytes) :
    releaseMessageClaim claims id worker other = claims other ∨
      releaseMessageClaim claims id worker other = none := by
  by_cases hne : other = id
  · subst hne
    rcases releaseMessageClaim_eq other worker with h | h <;> rw [h]
    · exact .inl rfl
    · exact .inr (Function.update_self _ _ _)
  · exact .inl (releaseMessageClaim_other hne)

/-- A worker's release leaves the claim of another worker alone. -/
theorem releaseMessageClaim_foreign {c : Lease Bytes Time} (hworker : trimSpace worker ≠ [])
    (hc : claims id = some c) (hne : c.holder ≠ worker) :
    releaseMessageClaim claims id worker = claims := by
  unfold releaseMessageClaim
  rw [hc]
  simp [hworker, hne]

theorem releaseMessageClaim_none (hc : claims id = none) :
    releaseMessageClaim claims id worker = claims := by
  unfold releaseMessageClaim
  rw [hc]
  simp

theorem Guarded.release (h : Guarded b now grants claims active) {i : Nat} {a : Grant}
    (ha : grants[i]? = some a) :
    Guarded b now (grants.eraseIdx i) (releaseMessageClaim claims a.id a.worker) active := by
  refine (h.shrink (List.eraseIdx_sublist grants i)).change (fun a' ha' => ?_) fun _ _ hout => hout
  obtain ⟨j, hj, hget⟩ := List.mem_eraseIdx_iff_getElem?.1 ha'
  by_cases hid : a'.id = a.id
  · have hne : a'.worker ≠ a.worker := by
      have hpair := List.pairwise_iff_getElem.1 h.workers
      obtain ⟨hi, rfl⟩ := List.getElem?_eq_some_iff.1 ha
      obtain ⟨hj', rfl⟩ := List.getElem?_eq_some_iff.1 hget
      rcases Nat.lt_or_gt_of_ne hj with hlt | hgt
      · exact hpair j i hj' hi hlt hid
      · exact (hpair i j hi hj' hgt hid.symm).symm
    refine (releaseMessageClaim_cases a.id a.worker a'.id).imp_right fun hnone => ⟨hnone, ?_⟩
    intro _ hclaim
    rw [hid] at hclaim hnone
    rw [releaseMessageClaim_foreign (h.named a (List.mem_of_getElem? ha)) hclaim hne,
      hclaim] at hnone
    cases hnone
  · exact .inl (releaseMessageClaim_other hid)

theorem Guarded.claim (h : Guarded b now grants claims active) {listing : List Bytes}
    (hnodup : listing.Nodup) (hvisible : b = .sql → ∀ id ∈ listing, active id = true)
    (hagain : ∀ a ∈ grants, a.worker = worker → a.id ∈ listing → claimable claims a.id now = false)
    (limit : Nat) (leaseUntil : Time) :
    Guarded b now
      (grants ++ (claimMessages claims listing limit worker now leaseUntil).1.map
        (granted worker now leaseUntil))
      (claimMessages claims listing limit worker now leaseUntil).2 active := by
  unfold claimMessages
  split
  · simpa using h
  rename_i hnamed
  generalize hr : take _ now limit listing claims = r
  have hsub : r.1.Sublist listing := hr ▸ take_sublist
  have htaken : ∀ id ∈ r.1, claimable claims id now = true ∧
      r.2 id = some { holder := worker, expires := leaseUntil } := by
    intro id hid
    subst hr
    exact take_taken hnodup hid
  have hother : ∀ id, id ∉ r.1 → r.2 id = claims id := by
    intro id hid
    subst hr
    exact take_other hid
  -- an id that can be claimed is under no current claim, and not under one of this worker
  have hexpired : ∀ a ∈ grants, a.id ∈ r.1 → a.leaseUntil < now := by
    intro a ha hid
    by_contra hcurrent
    rcases h.held a ha (Nat.le_of_not_lt hcurrent) with hclaim | ⟨hb, hout⟩
    · have hfree := (htaken a.id hid).1
      simp [claimable, free, hclaim, hcurrent] at hfree
    · rw [hvisible hb a.id (hsub.subset hid)] at hout
      cases hout
  have hworker : ∀ a ∈ grants, a.id ∈ r.1 → a.worker ≠ worker := by
    intro a ha hid hsame
    have hbusy := hagain a ha hsame (hsub.subset hid)
    rw [(htaken a.id hid).1] at hbusy
    cases hbusy
  have hnew : ∀ a ∈ r.1.map (granted worker now leaseUntil), a.id ∈ r.1 ∧ a.worker = worker ∧
      a.since = now ∧ a.leaseUntil = leaseUntil := by
    intro a ha
    obtain ⟨id, hid, rfl⟩ := List.mem_map.1 ha
    exact ⟨hid, rfl, rfl, rfl⟩
  have hdistinct : (r.1.map (granted worker now leaseUntil)).Pairwise fun a a' => a.id ≠ a'.id :=
    List.pairwise_map.2 (hsub.nodup hnodup)
  refine ⟨?_, ?_, ?_, ?_, ?_, ?_⟩
  · refine List.pairwise_append.2 ⟨h.expired, hdistinct.imp fun hne heq => absurd heq hne, ?_⟩
    intro a ha a' ha' hid
    obtain ⟨hmem, -, hsince, -⟩ := hnew a' ha'
    rw [hsince]
    exact hexpired a ha (hid ▸ hmem)
  · refine List.pairwise_append.2 ⟨h.workers, hdistinct.imp fun hne heq => absurd heq hne, ?_⟩
    intro a ha a' ha' hid
    obtain ⟨hmem, hholder, -, -⟩ := hnew a' ha'
    rw [hholder]
    exact hworker a ha (hid ▸ hmem)
  · intro a ha
    rcases List.mem_append.1 ha with hold | hadded
    · exact h.named a hold
    · rw [(hnew a hadded).2.1]
      exact hnamed
  · intro a ha
    rcases List.mem_append.1 ha with hold | hadded
    · exact h.past a hold
    · exact (hnew a hadded).2.2.1.le
  · intro a ha c hc hholder
    rcases List.mem_append.1 ha with hold | hadded
    · by_cases hid : a.id ∈ r.1
      · rw [(htaken a.id hid).2] at hc
        cases hc
        exact absurd hholder.symm (hworker a hold hid)
      · exact h.own a hold c (hother a.id hid ▸ hc) hholder
    · obtain ⟨hid, -, -, hlease⟩ := hnew a hadded
      rw [(htaken a.id hid).2] at hc
      cases hc
      exact hlease.symm
  · intro a ha hcurrent
    rcases List.mem_append.1 ha with hold | hadded
    · have hid : a.id ∉ r.1 := fun hid => absurd (hexpired a hold hid) (Nat.not_lt.2 hcurrent)
      rw [hother a.id hid]
      exact h.held a hold hcurrent
    · obtain ⟨hid, hholder, -, hlease⟩ := hnew a hadded
      rw [hholder, hlease]
      exact .inl (htaken a.id hid).2

end

section

variable {b : Backend} {s : State}

def State.Ok (b : Backend) (s : State) : Prop :=
  Guarded b s.now s.grants s.claims fun id => s.places id .active

variable {a : Attempt} {id : Bytes}

theorem grants_get {i : Nat} {stages : List Stage} (h : s.attemptAt i stages = some a) :
    s.grants[i]? = some a.toGrant := by
  have hget : s.attempts[i]? = some a := (Option.filter_eq_some_iff.1 h).1
  simp [State.grants, hget]

theorem grants_drop (i : Nat) : (s.drop i).grants = s.grants.eraseIdx i :=
  (List.eraseIdx_map _ _ _).symm

theorem grants_move (source target : QueueType) :
    (s.move b id source target).grants = s.grants := by
  unfold State.move
  split <;> rfl

theorem State.Ok.drop (h : s.Ok b) (i : Nat) : (s.drop i).Ok b := by
  unfold State.Ok
  rw [grants_drop]
  exact Guarded.shrink h (List.eraseIdx_sublist _ i)

theorem State.Ok.move (h : s.Ok b) (id : Bytes) (source : QueueType) {target : QueueType}
    (htarget : target = .active → Idle s id) : (s.move b id source target).Ok b := by
  unfold State.move
  split
  · refine Guarded.touch h id (fun other hne => ?_) (fun other hne => ?_) ?_
    · cases b with
      | file => rfl
      | sql => exact Function.update_of_ne hne _ _
    · exact congrFun (Function.update_of_ne hne _ _) _
    · by_cases hactive : target = .active
      · exact .inl (htarget hactive)
      · refine .inr ⟨?_, ?_⟩
        · cases b with
          | file => exact .inl rfl
          | sql => exact .inr ⟨by simp, rfl, by simp [movedTo, Ne.symm hactive]⟩
        · intro hout
          cases b with
          | file =>
            simp only [Function.update_self, movedTo, Ne.symm hactive, if_false, hout, ite_self]
          | sql => simp [movedTo, Ne.symm hactive]
  · exact h

theorem State.Ok.update (h : s.Ok b) (hid : Idle s id ∨ s.places id .active = true) :
    (s.update b id .active).Ok b := by
  refine Guarded.touch h id (fun _ _ => rfl) (fun other hne => ?_) ?_
  · exact congrFun (Function.update_of_ne hne _ _) _
  · refine hid.imp_right fun hactive => ⟨.inl rfl, fun hout => ?_⟩
    rw [hactive] at hout
    cases hout

theorem State.Ok.delete (h : s.Ok b) (id : Bytes) : (s.delete b id).Ok b := by
  refine Guarded.touch h id (fun other hne => ?_) (fun other hne => ?_) (.inr ⟨?_, ?_⟩)
  · cases b with
    | file => rfl
    | sql => exact Function.update_of_ne hne _ _
  · exact congrFun (Function.update_of_ne hne _ _) _
  · cases b with
    | file => exact .inl rfl
    | sql => exact .inr ⟨by simp [delete], rfl, by simp [delete, deletedFrom]⟩
  · intro hout
    cases b with
    | file => simp [delete, deletedFrom, hout]
    | sql => simp [delete, deletedFrom]

theorem State.Ok.releaseClaim (h : s.Ok b) (worker : Bytes) (hid : Idle s id) :
    (s.releaseClaim id worker).Ok b :=
  Guarded.touch h id (fun _ hne => releaseMessageClaim_other hne) (fun _ _ => rfl) (.inl hid)

/-- Neither the stage nor the map of the worker matters. -/
theorem State.Ok.stageAt {i : Nat} {stage : Stage} (h : s.Ok b)
    (hget : s.grants[i]? = some a.toGrant) (processing : Bytes → Bytes → Bool) :
    { s.stageAt i a stage with processing := processing }.Ok b := by
  have hsame : ({ s.stageAt i a stage with processing := processing } : State).grants = s.grants := by
    obtain ⟨hi, hat⟩ := List.getElem?_eq_some_iff.1 hget
    simp only [State.grants, State.stageAt, List.map_set] at hat ⊢
    rw [← hat]
    exact List.set_getElem_self hi
  unfold State.Ok
  rw [hsame]
  exact h

theorem visible_nodup (listing : List Bytes) : (visible b s listing).Nodup := by
  cases b with
  | file => exact List.nodup_dedup listing
  | sql => exact (List.nodup_dedup listing).filter _

theorem mem_of_visible {listing : List Bytes} (h : id ∈ visible b s listing) : id ∈ listing := by
  cases b with
  | file => exact List.mem_dedup.1 h
  | sql => exact List.mem_dedup.1 (List.mem_of_mem_filter h)

theorem step_ok (h : s.Ok b) {input : Input} (hinput : Considerate s input) :
    (step b s input).Ok b := by
  revert hinput
  fun_cases step b s input with
  | case2 | case5 | case8 | case11 | case13 | case15 | case17 | case19 | case21 => exact fun _ => h
  | case1 elapsed => exact fun _ => Guarded.wait h elapsed
  | case3 id =>
    exact fun hidle => Guarded.touch h id (fun _ _ => rfl)
      (fun other hne => congrFun (Function.update_of_ne hne _ _) _) (.inl hidle)
  | case4 worker limit leaseUntil listing =>
    intro hinput
    have hvisible : b = .sql → ∀ id ∈ visible b s listing, s.places id .active = true := by
      rintro rfl id hid
      exact (List.mem_filter.1 hid).2
    have hclaim := Guarded.claim h (visible_nodup listing) hvisible
      (fun a ha hworker hmem => hinput a ha hworker (mem_of_visible hmem)) limit leaseUntil
    simpa [State.Ok, State.grants, Function.comp_def] using hclaim
  | case6 i _ a ha => exact fun _ => State.Ok.stageAt h (grants_get ha) s.processing
  | case7 i _ a ha | case22 i a ha =>
    intro _
    unfold State.Ok
    rw [grants_drop]
    exact Guarded.release h (grants_get ha)
  | case9 i | case12 i => exact fun _ => State.Ok.drop h i
  | case10 i a ha | case20 i a ha => exact fun _ => State.Ok.stageAt h (grants_get ha) _
  | case14 i a ha =>
    exact fun hinput => State.Ok.update h (.inr (hinput a (Option.filter_eq_some_iff.1 ha).1))
  | case16 i source failed a ha =>
    intro _
    have hmoved : (s.move b a.id source (if failed then .failed else .deferred)).Ok b :=
      State.Ok.move h a.id source (by cases failed <;> simp)
    exact State.Ok.stageAt hmoved (by rw [grants_move]; exact grants_get ha) _
  | case18 i a ha => exact fun _ => State.Ok.stageAt (State.Ok.delete h a.id) (grants_get ha) s.processing
  | case23 id source => exact State.Ok.move h id source
  | case24 id worker => exact State.Ok.releaseClaim h worker
  | case25 id => exact fun hinput => State.Ok.update h (.inl hinput)
  | case26 =>
    intro _
    refine Guarded.change h (fun a ha => ?_) fun _ _ hout => hout
    refine (prune_cases s.claims s.now a.id).imp_right fun hnone => ⟨hnone, fun hnow hclaim => ?_⟩
    have hkept : prune s.claims s.now a.id = some _ := prune_of_current hclaim hnow
    exact absurd (hkept.symm.trans hnone) (by simp)

theorem State.Ok.exclusive (h : s.Ok b) : Exclusive s := by
  have hpair := List.pairwise_iff_getElem.1 h.expired
  have hoverlap : ∀ (i j : Nat) (a a' : Grant), i < j → s.grants[i]? = some a →
      s.grants[j]? = some a' → a.id = a'.id → a.leaseUntil < a'.since := by
    intro i j a a' hlt hi hj hid
    obtain ⟨hi', rfl⟩ := List.getElem?_eq_some_iff.1 hi
    obtain ⟨hj', rfl⟩ := List.getElem?_eq_some_iff.1 hj
    exact hpair i j hi' hj' hlt hid
  -- the older of two attempts has expired by now
  have hlate : ∀ (i j : Nat) (a a' : Grant), i < j → s.grants[i]? = some a →
      s.grants[j]? = some a' → a.id = a'.id → a.leaseUntil < s.now :=
    fun i j a a' hlt hi hj hid => (hoverlap i j a a' hlt hi hj hid).trans_le
      (h.past a' (List.mem_of_getElem? hj))
  refine ⟨?_, ?_, hoverlap⟩
  · intro i j a a' hi hj hid hnow hnow'
    rcases Nat.lt_trichotomy i j with hlt | heq | hgt
    · exact absurd (hlate i j a a' hlt hi hj hid) (Nat.not_lt.2 hnow)
    · exact heq
    · exact absurd (hlate j i a' a hgt hj hi hid.symm) (Nat.not_lt.2 hnow')
  · intro a ha hgone
    cases hclaim : s.claims a.id with
    | none => exact releaseMessageClaim_none hclaim
    | some c =>
      refine releaseMessageClaim_foreign (h.named a ha) hclaim fun hholder => hgone ?_
      rw [hclaim, ← hholder, ← h.own a ha c hclaim hholder]

/-- In every run whose steps are considerate, claims are exclusive. -/
theorem exclusive_of_considerate {inputs : List Input}
    (h : Machine.Along (step b) Considerate State.start inputs) :
    Exclusive (Machine.run (step b) State.start inputs) := by
  have hstart : State.start.Ok b := by
    refine ⟨List.Pairwise.nil, List.Pairwise.nil, ?_, ?_, ?_, ?_⟩ <;> intro a ha <;> cases ha
  exact State.Ok.exclusive
    (h.run_invariant (State.Ok b) (fun s input hinput hs => step_ok hs hinput) hstart)

end

/-! ## Runs -/

instance (s : State) (input : Input) : Decidable (Considerate s input) := by
  cases input <;> unfold Considerate <;> infer_instance

def attemptBy (worker : Bytes) (leaseUntil : Time) (i : Nat) : List Input :=
  [.claim worker 5 leaseUntil [lit "1-a"], .fetch i true, .dispatch i]

/-- The lease of the first attempt expires before the second one is claimed. -/
def expiryRun : List Input :=
  [.enqueue (lit "1-a")] ++ attemptBy (lit "w1") 900 0 ++ [.record 0, .wait 901] ++
    attemptBy (lit "w2") 1801 1 ++ [.retire 0 .active false]

theorem exclusive_after_expiry :
    (Machine.run (step .sql) State.start expiryRun).attempts.map Attempt.stage =
        [.settled, .running] ∧
      Exclusive (Machine.run (step .sql) State.start expiryRun) :=
  ⟨by decide +kernel, exclusive_of_considerate (by decide +kernel)⟩

/-- An operator requeues the message while the first attempt runs: the claim is released and the
record updated. -/
def requeueRun : List Input :=
  [.enqueue (lit "1-a")] ++ attemptBy (lit "w1") 900 0 ++
    [.releaseClaim (lit "1-a") [], .requeued (lit "1-a")] ++ attemptBy (lit "w2") 900 1

/-- A worker defers the message, the retry scan brings it back, and the worker claims it again
before the first attempt has released its claim. -/
def retryRun : List Input :=
  [.enqueue (lit "1-a")] ++ attemptBy (lit "w1") 900 0 ++
    [.retire 0 .active false, .finish 0, .wait 1, .move (lit "1-a") .deferred .active] ++
    attemptBy (lit "w1") 901 1

/-- Two attempts run under unexpired leases; and the release of an older attempt takes away the
newer claim of its worker, so that another worker is handed the message as well. -/
theorem claims_not_exclusive :
    ((Machine.run (step .sql) State.start requeueRun).attempts.map Attempt.stage =
        [.running, .running] ∧ ¬ Exclusive (Machine.run (step .sql) State.start requeueRun)) ∧
      ¬ Exclusive (Machine.run (step .sql) State.start retryRun) ∧
      (Machine.run (step .sql) State.start
        (retryRun ++ .release 0 :: attemptBy (lit "w2") 901 1)).attempts.map
          (fun a => (a.worker, a.stage)) = [(lit "w1", .running), (lit "w2", .running)] := by
  refine ⟨⟨by decide +kernel, fun h => ?_⟩, fun h => ?_, by decide +kernel⟩
  · have hsame := h.one 0 1 (granted (lit "w1") 0 900 (lit "1-a"))
      (granted (lit "w2") 0 900 (lit "1-a")) (by decide +kernel) (by decide +kernel) rfl
      (by decide +kernel) (by decide +kernel)
    cases hsame
  · have hkept := h.superseded (granted (lit "w1") 0 900 (lit "1-a")) (by decide +kernel)
      (by decide +kernel)
    exact absurd (congrFun hkept (lit "1-a")) (by decide +kernel)

end Elemta.Queue.Claims
