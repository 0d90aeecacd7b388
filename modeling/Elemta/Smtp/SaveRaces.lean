import Elemta.Queue.Handlers
import Elemta.Queue.Interleavings
import Elemta.Smtp.Acceptance

/-!
# Saving a message while the queue works

`saveMessage` makes the queue entry first and sets its annotations afterwards, each by
a read and a write of the whole record; a failed annotation is logged and the message
is accepted all the same. REQUIRETLS and the DSN parameters of a message are such
annotations, and a claim hands the processor the record as it is then. The session
and the operations of the queue are jobs over the file backend here, storage call by
storage call, and which storage calls of the save fail is part of its input.
-/

namespace Elemta.Smtp

open Bytes Queue Queue.FileStore

/-! ## The session as a job -/

/-- One save: the entry, the annotations in their order, and which of its calls succeed. -/
structure Save where
  msg : Message
  content : Bytes
  notes : List (Bytes × Bytes)
  now : Time
  random : Dir → Bytes
  ok : Nat → Call → Bool

inductive SavePlace where
  | start
  | noting (i : Nat) (notes : List (Bytes × Bytes))
  | writing (i : Nat) (copy : Message) (notes : List (Bytes × Bytes))
  | ended (accepted : Bool)
  deriving DecidableEq

def SavePlace.next (i : Nat) : List (Bytes × Bytes) → SavePlace
  | [] => .ended true
  | notes => .noting i notes

def Save.call (sv : Save) (s : Shared) : SavePlace → Option (Shared × SavePlace)
  | .start =>
    if sv.ok 0 .create then
      match (createMessageIfAbsent sv.random sv.msg sv.content).run s.disk with
      | (.ok _, d) => some ({ s with disk := d }, .next 1 sv.notes)
      | (.error _, d) => some ({ s with disk := d }, .ended false)
    else some (s, .ended false)
  | .noting i ((key, value) :: rest) =>
    match if sv.ok i .retrieve then retrieve s.disk sv.msg.id else none with
    | some m => some (s, .writing i ((Edit.annotate sv.now key value).apply m) rest)
    | none => some (s, .next (i + 1) rest)
  | .writing i copy rest =>
    some (if sv.ok i .update then { s with disk := (updateCall s.disk copy).2 } else s,
      .next (i + 1) rest)
  | _ => none

/-- The receiving session, or an operation of the queue on the same id. -/
inductive Party where
  | session (sv : Save)
  | queue (job : Job)

abbrev PartyPlace := SavePlace ⊕ Place

def Party.call (cfg : ManagerConfig) (id : Bytes) (s : Shared) :
    Party → PartyPlace → Option (Shared × PartyPlace)
  | .session sv, .inl place => (sv.call s place).map fun next => (next.1, .inl next.2)
  | .queue job, .inr place => (job.call cfg id s place).map fun next => (next.1, .inr next.2)
  | _, _ => none

def partyRunning : PartyPlace → Bool
  | .inl .start => false
  | .inl (.ended _) => false
  | .inl _ => true
  | .inr place => place.running

def partySucceeded : PartyPlace → Bool
  | .inl (.ended accepted) => accepted
  | .inl _ => false
  | .inr place => place.succeeded

def partySystem (cfg : ManagerConfig) (id : Bytes) :
    Interleaving.System Shared Party PartyPlace where
  call s party place := party.call cfg id s place
  running := partyRunning
  succeeded := partySucceeded
  not_running := by
    intro place h
    rcases place with (_ | _ | _ | _) | place
    · rfl
    · cases h
    · cases h
    · rfl
    · exact (jobSystem cfg id).not_running h
  exclusive
    | .session _ => false
    | .queue job => job.exclusive

/-- The session is job 0. -/
def startSave (d : Files) (sv : Save) (jobs : List Job) :
    Interleaving.Pool Shared Party PartyPlace :=
  { shared := { disk := d, locked := false }
    jobs := (.session sv, .inl .start) :: jobs.map fun job => (.queue job, .inr .waiting)
    log := [] }

/-! ## What an attempt has to know -/

/-- The save of a session's message under `id`; `signedFor` is the domain of a signed submission. -/
def sessionSave (st : SessionState) (id subject content signedFor : Bytes) (size : Nat)
    (receivedAt now : Time) (random : Dir → Bytes) (ok : Nat → Call → Bool) : Save :=
  { msg := newEnqueueMessage id st.mailFrom st.rcptTo subject size .normal receivedAt now
    content := content
    notes := dsnAnnotations st ++
      if signedFor = [] then [] else [(lit "dkim_signed", signedFor)]
    now := now
    random := random
    ok := ok }

/-- While the session saves, no operation of the queue makes a call. -/
def Undisturbed (p : Interleaving.Pool Shared Party PartyPlace) (i : Nat) : Prop :=
  i ≠ 0 → ∀ party place, p.jobs[0]? = some (party, place) → partyRunning place = false

/-! ## Records that carry the annotations -/

structure Carries (notes : List (Bytes × Bytes)) (m : Message) : Prop where
  text : m.persisted.annotations = m.annotations
  values : ∀ kv ∈ notes, m.annotations.lookup kv.1 = some (Utf8.toValid kv.2)

section

variable {notes : List (Bytes × Bytes)} {m m' : Message}

theorem Carries.congr (h : Carries notes m) (hsame : m'.annotations = m.annotations) :
    Carries notes m' := by
  refine ⟨?_, ?_⟩
  · have htext : m'.persisted.annotations = m.persisted.annotations :=
      congrArg (List.map fun kv : Bytes × Bytes => (Utf8.toValid kv.1, Utf8.toValid kv.2))
        hsame
    rw [htext, h.text, hsame]
  · rw [hsame]
    exact h.values

theorem Carries.persisted (h : Carries notes m) : Carries notes m.persisted :=
  h.congr h.text

variable {key : Bytes}

theorem lookup_filter_ne {k : Bytes} (hne : k ≠ key) (annotations : List (Bytes × Bytes)) :
    (annotations.filter fun kv => kv.1 != key).lookup k = annotations.lookup k := by
  induction annotations with
  | nil => rfl
  | cons kv rest ih =>
    obtain ⟨k', v⟩ := kv
    by_cases hkey : k' = key
    · subst hkey
      simp [ih, List.lookup_cons, beq_false_of_ne hne]
    · simp [hkey, List.lookup_cons, ih]

theorem Carries.annotate (h : Carries notes m) (hkey : Utf8.valid key = true)
    (hnew : key ∉ notes.map Prod.fst) (now : Time) (value : Bytes) :
    Carries (notes ++ [(key, value)]) ((Edit.annotate now key value).apply m).persisted := by
  have hself : Utf8.toValid key = key := Utf8.toValid_eq_self_iff.2 hkey
  -- what was stored before reads as it was written
  have hrest : ((m.annotations.filter fun kv => kv.1 != key).map
      fun kv => (Utf8.toValid kv.1, Utf8.toValid kv.2)) =
      m.annotations.filter fun kv => kv.1 != key := by
    have hall : ∀ kv ∈ m.annotations, (Utf8.toValid kv.1, Utf8.toValid kv.2) = kv := by
      have htext : m.annotations.map (fun kv => (Utf8.toValid kv.1, Utf8.toValid kv.2)) =
          m.annotations.map id := by
        rw [List.map_id]
        exact h.text
      exact List.map_inj_left.1 htext
    calc _ = (m.annotations.filter fun kv => kv.1 != key).map id :=
          List.map_congr_left fun kv hkv => hall kv (List.mem_of_mem_filter hkv)
      _ = _ := List.map_id _
  have hstored : ((Edit.annotate now key value).apply m).persisted.annotations =
      (key, Utf8.toValid value) :: m.annotations.filter fun kv => kv.1 != key := by
    have hcons : ((Edit.annotate now key value).apply m).persisted.annotations =
        (Utf8.toValid key, Utf8.toValid value) :: ((m.annotations.filter fun kv => kv.1 != key).map
          fun kv => (Utf8.toValid kv.1, Utf8.toValid kv.2)) := rfl
    rw [hcons, hself, hrest]
  refine ⟨congrArg Message.annotations (Message.persisted_persisted _), fun kv hkv => ?_⟩
  rw [hstored]
  rcases List.mem_append.1 hkv with hold | hlast
  · have hne : kv.1 ≠ key := fun heq => hnew (heq ▸ List.mem_map_of_mem hold)
    rw [List.lookup_cons, beq_false_of_ne hne, lookup_filter_ne hne]
    exact h.values kv hold
  · obtain rfl := List.mem_singleton.1 hlast
    simp

end

/-! ## The entry of an undisturbed save -/

section

variable {d d' : Files} {msg : Message} {answer : Answer}

end

/-! ## Undisturbed saves -/

def SaveInv (sv : Save) (d : Files) : SavePlace → Prop
  | .start => Absent (view d sv.msg.id)
  | .noting _ rest =>
    ∃ m content done, sv.notes = done ++ rest ∧ Complete (view d sv.msg.id) sv.msg.id m content ∧
      Carries done m
  | .writing _ copy rest =>
    ∃ m content done key value, sv.notes = done ++ (key, value) :: rest ∧
      Complete (view d sv.msg.id) sv.msg.id m content ∧ Carries done m ∧
      copy = (Edit.annotate sv.now key value).apply m
  | .ended _ => Records (Carries sv.notes) d sv.msg.id

/-- What the copies have that the queue holds: there are none before the save has ended. -/
def SavePlace.Copied (sv : Save) : SavePlace → Message → Prop
  | .ended _ => Carries sv.notes
  | _ => fun _ => False

/-- The session is at `place`, and every other job is one of the queue. -/
structure Sound (sv : Save) (p : Interleaving.Pool Shared Party PartyPlace) (place : SavePlace)
    (others : List (Party × PartyPlace)) : Prop where
  jobs : p.jobs = (.session sv, .inl place) :: others
  disk : SaveInv sv p.shared.disk place
  others : ∀ other ∈ others, ∃ job at_, other = (.queue job, .inr at_) ∧
    job.Passes (Carries sv.notes) ∧ at_.Holds (place.Copied sv)

section

variable {cfg : ManagerConfig} {sv : Save} {s s' : Shared} {d : Files}
  {content : Bytes} {m : Message}

variable {place : SavePlace} {others : List (Party × PartyPlace)}
  {p : Interleaving.Pool Shared Party PartyPlace}

end

/-! ## The annotations of a session -/

section

variable {st : SessionState} {p : Bytes × DSNRecipientParams} {k signedFor : Bytes}

variable {addr : Bytes}

variable {id subject content : Bytes} {size : Nat} {receivedAt now : Time}
  {random : Dir → Bytes} {ok : Nat → Call → Bool}

end

/-! ## Races -/

def strictSession : SessionState :=
  { SessionState.new with
    mailFrom := lit "s@x.org"
    rcptTo := [lit "r@y.net"]
    dsnParams := some { ret := some .headers, envID := [] }
    dsnRecipientParams := [(lit "r@y.net", { notify := [.never], orcpt := [] })]
    requireTLS := true }

def strictSave (ok : Nat → Call → Bool) : Save :=
  sessionSave strictSession (lit "1-a") [] (lit "text") [] 4 5 6 (tempNames (lit ".tmp_1")) ok

def attempted (ok : Nat → Call → Bool) (schedule : List Nat) :
    Interleaving.Pool Shared Party PartyPlace :=
  Machine.run (Interleaving.Pool.step (partySystem (Config.server (lit "mx")).manager (lit "1-a")))
    (startSave (fun _ => none) (strictSave ok) [.rewrite true []]) schedule

variable {p : Interleaving.Pool Shared Party PartyPlace}

end Elemta.Smtp
