import Elemta.Queue.Steps

/-!
# No recipient is bounced twice

A handoff bounces under an id of its own, which it keeps when it is resumed. A
message that is given up bounces under a fresh id each time, so there the entry
has to be out of the live queues before the next attempt. As long as that
removal succeeds, no occurrence is named as failed in two DSNs.
-/

namespace Elemta.Queue

open Bytes Bounce

def NamedOnce (w : World) : Prop :=
  ∀ k o dsn dsn', .bounced k o dsn ∈ w.ledger → .bounced k o dsn' ∈ w.ledger → dsn = dsn'

/-- What was bounced so far of the entry `m` with serial `k`: nothing that is to be tried again,
and what was handed off only under the handoff's id. -/
structure EntryOnce (ledger : List Fact) (k : Nat) (m : Message) : Prop where
  nodup : m.tracked.Nodup
  retry : ∀ o ∈ m.retryable, ∀ dsn, .bounced k o dsn ∉ ledger
  handed : ∀ h, m.handoff = .recorded h → ∀ o ∈ names h.permanent, ∀ dsn,
    .bounced k o dsn ∈ ledger → dsn = h.id

/-- The invariant, with the entry of one id left out. -/
structure OnceBut (skipped : Bytes → Prop) (w : World) : Prop where
  named : NamedOnce w
  young : ∀ k o dsn, .bounced k o dsn ∈ w.ledger → k < w.next
  entry : ∀ id m, ¬skipped id → w.store.entries id = some m → m.queueType.live = true →
    EntryOnce w.ledger (w.serial id) m

abbrev Once : World → Prop := OnceBut fun _ => False

theorem Once.initial : Once World.initial := by
  refine ⟨?_, ?_, ?_⟩
  · intro k o dsn dsn' h
    simp [World.initial] at h
  · intro k o dsn h
    simp [World.initial] at h
  · intro id m _ h
    simp [World.initial, Store.empty] at h

section

variable {cfg : Config} {env : Env} {w w' : World} {id : Bytes} {m m' : Message}

variable {k : Nat} {ledger : List Fact} {skipped : Bytes → Prop} {msg : Message}

theorem EntryOnce.congr {ledger' : List Fact} (h : EntryOnce ledger k m)
    (henv : m'.envelope = m.envelope)
    (hmem : ∀ o dsn, .bounced k o dsn ∈ ledger' → .bounced k o dsn ∈ ledger) :
    EntryOnce ledger' k m' := by
  refine ⟨?_, ?_, ?_⟩
  · rw [tracked_congr henv]
    exact h.nodup
  · intro o ho dsn hbounced
    rw [retryable_congr henv] at ho
    exact h.retry o ho dsn (hmem o dsn hbounced)
  · intro handoff hhandoff o ho dsn hbounced
    have hsame : m.handoff = .recorded handoff :=
      (congrArg Envelope.handoff henv).symm.trans hhandoff
    exact h.handed handoff hsame o ho dsn (hmem o dsn hbounced)

theorem EntryOnce.of_absent (habsent : m.handoff = .absent) (hnodup : m.occurrences.Nodup)
    (hnone : ∀ o ∈ m.occurrences, ∀ dsn, .bounced k o dsn ∉ ledger) : EntryOnce ledger k m := by
  refine ⟨?_, ?_, ?_⟩
  · rw [tracked_of_absent habsent]
    exact hnodup
  · rw [retryable_of_absent habsent]
    exact hnone
  · intro h hhandoff
    rw [habsent] at hhandoff
    cases hhandoff

theorem entryOnce_recorded {h : DsnHandoff} (hh : m.handoff = .recorded h) : EntryOnce ledger k m ↔
      (names h.permanent ++ names h.temporary).Nodup ∧
        (∀ o ∈ names h.temporary, ∀ dsn, .bounced k o dsn ∉ ledger) ∧
        ∀ o ∈ names h.permanent, ∀ dsn, .bounced k o dsn ∈ ledger → dsn = h.id := by
  rw [← tracked_of_recorded hh, ← retryable_of_recorded hh]
  refine ⟨fun hm => ⟨hm.nodup, hm.retry, hm.handed h hh⟩, fun hm => ⟨hm.1, hm.2.1, ?_⟩⟩
  intro h' hh'
  cases hh.symm.trans hh'
  exact hm.2.2

/-- Nothing is bounced anew, so only the entries have to be looked at. -/
theorem OnceBut.transfer {skipped' : Bytes → Prop} (h : OnceBut skipped w)
    (hback : ∀ {k o dsn}, .bounced k o dsn ∈ w'.ledger → .bounced k o dsn ∈ w.ledger)
    (hnext : w.next ≤ w'.next)
    (hentry : ∀ id m, ¬skipped' id → w'.store.entries id = some m → m.queueType.live = true →
      EntryOnce w'.ledger (w'.serial id) m) : OnceBut skipped' w' :=
  ⟨fun k o dsn dsn' hmem hmem' => h.named k o dsn dsn' (hback hmem) (hback hmem'),
    fun k o dsn hmem => Nat.lt_of_lt_of_le (h.young k o dsn (hback hmem)) hnext, hentry⟩

/-! ## One change at a time -/

theorem OnceBut.edits {e : Option Message} (h : OnceBut skipped w)
    (hskipped : ∀ id', skipped id' → id' = id) (hedit : Edits w id e w')
    (hnew : ∀ m', e = some m' → m'.queueType.live = true → EntryOnce w.ledger (w.serial id) m') :
    Once w' := by
  obtain ⟨store, rfl⟩ := hedit.exists_store
  refine h.transfer (fun hmem => hmem) le_rfl ?_
  intro id' m _ hentry hlive
  by_cases hid : id' = id
  · subst hid
    rw [hedit.entry] at hentry
    exact hnew m hentry hlive
  · rw [hedit.other hid] at hentry
    exact h.entry id' m (fun hskip => hid (hskipped id' hskip)) hentry hlive

theorem Once.record {facts : List Fact} (h : Once w)
    (hfacts : ∀ k o dsn, .bounced k o dsn ∉ facts) : Once (w.record facts) := by
  have hback : ∀ {k o dsn}, .bounced k o dsn ∈ (w.record facts).ledger →
      .bounced k o dsn ∈ w.ledger := by
    intro k o dsn hmem
    rcases List.mem_append.1 hmem with hold | hnew
    · exact hold
    · exact absurd hnew (hfacts k o dsn)
  refine h.transfer hback le_rfl ?_
  intro id' m hskip hentry hlive
  exact (h.entry id' m hskip hentry hlive).congr rfl fun o dsn hmem => hback hmem

/-- A new message has a serial that no DSN speaks of. -/
theorem Once.enqueued (h : Once w) (hfresh : msg.Fresh) (henq : Enqueued w msg w') : Once w' := by
  have hback : ∀ {k o dsn}, .bounced k o dsn ∈ w'.ledger → .bounced k o dsn ∈ w.ledger :=
    fun hmem => (henq.mem_ledger (by simp)).1 hmem
  refine h.transfer hback henq.next_le ?_
  intro id' m hskip hentry hlive
  rcases henq.entry_cases hentry with ⟨hold, hserial⟩ | ⟨-, rfl, hserial, -⟩
  · rw [hserial]
    exact (h.entry id' m hskip hold hlive).congr rfl fun o dsn hmem => hback hmem
  rw [hserial]
  refine .of_absent hfresh.recorded_absent ?_ ?_
  · rw [occurrences_recorded]
    exact nodup_occurrences_of_nil hfresh.unreduced
  · intro o _ dsn hmem
    exact absurd (h.young _ _ _ (hback hmem)) (Nat.lt_irrefl _)

/-- A bounce about the held message keeps the other entries apart from it. What it says about
the message itself must agree with what was said before. -/
theorem Once.bounced {site : Site} {rs : List DsnRecipient} {reason : Bytes}
    {handoffID : Option Bytes} {result : BounceResult} (h : Once w) (hheld : Held w msg.id m)
    (hb : Bounced cfg env site w msg rs reason handoffID result w')
    (hsame : ∀ o ∈ names rs, ∀ dsn, .bounced (w.serial msg.id) o dsn ∈ w.ledger →
      dsn = handoffID.getD env.freshID) : OnceBut (· = msg.id) w' := by
  have hheld' := hheld.bounced hb
  have hserial := (hb.entry hheld.entry).2
  refine ⟨?_, ?_, ?_⟩
  · intro k o dsn dsn' hmem hmem'
    rcases hb.bounced_mem hmem with hold | ⟨rfl, ho, rfl⟩
    · rcases hb.bounced_mem hmem' with hold' | ⟨rfl, ho', rfl⟩
      · exact h.named k o dsn dsn' hold hold'
      · exact hsame o ho' dsn hold
    · rcases hb.bounced_mem hmem' with hold' | ⟨-, -, rfl⟩
      · exact (hsame o ho dsn' hold').symm
      · rfl
  · intro k o dsn hmem
    have hlt := hheld'.sound.serial_lt hheld'.entry
    rw [hserial] at hlt
    rcases hb.bounced_mem hmem with hold | ⟨rfl, -, -⟩
    · cases hb with
      | skipped | failed => exact h.young k o dsn hold
      | generated original req bounced due enqueued =>
        exact Nat.lt_of_lt_of_le (h.young k o dsn hold) enqueued.next_le
    · exact hlt
  · intro id' m' hskip hentry hlive
    have hnoted : Once (w.record (failureFacts cfg.engine.host (w.serial msg.id) msg rs)) :=
      h.record (not_bounced_of_isOutcome fun f hf => failureFacts_isOutcome hf)
    -- another entry has another serial, so the new facts do not speak of it
    have hother : w'.serial id' ≠ w.serial msg.id := by
      intro hser
      exact hskip (hheld'.sound.serial_inj hentry hheld'.entry (hser.trans hserial.symm))
    cases hb with
    | skipped | failed => exact hnoted.entry id' m' not_false hentry hlive
    | generated original req bounced due enqueued =>
      have hmade := hnoted.enqueued (Request.message_fresh req _) enqueued
      refine (hmade.entry id' m' not_false hentry hlive).congr rfl ?_
      intro o dsn hmem
      rcases List.mem_append.1 hmem with hold | hnew
      · exact hold
      · obtain ⟨r, -, heq⟩ := List.mem_map.1 hnew
        exact absurd (Fact.bounced.inj heq).1.symm hother

/-! ## Attempts -/

theorem Transition.once (h : Transition cfg env id w w') (honce : Once w) : Once w' := by
  have hedits : ∀ {e : Option Message}, Edits w id e w' →
      (∀ m', e = some m' → m'.queueType.live = true → EntryOnce w.ledger (w.serial id) m') →
      Once w' :=
    fun hedit hnew => honce.edits (fun _ hskip => hskip.elim) hedit hnew
  cases h with
  | keep held edit live envelope =>
    refine hedits edit ?_
    rintro _ ⟨⟩ _
    exact (honce.entry id _ not_false held.entry held.live).congr envelope fun _ _ hmem => hmem
  | note held outcome => exact honce.record (not_bounced_of_isOutcome outcome)
  | intent held absent edit live handoff pending partition answered =>
    rename_i m m' h
    have hm := honce.entry id m not_false held.entry held.live
    -- the three groups are a partition of occurrences that were never bounced
    have hnodup : (names h.permanent ++ names h.temporary ++ names h.delivered).Nodup := by
      rw [partition.nodup_iff, ← tracked_of_absent absent]
      exact hm.nodup
    have hnone : ∀ o ∈ names h.permanent ++ names h.temporary, ∀ dsn,
        .bounced (w.serial id) o dsn ∉ w.ledger := by
      intro o ho
      refine hm.retry o ?_
      rw [retryable_of_absent absent]
      exact partition.subset (List.mem_append_left _ ho)
    refine hedits edit ?_
    rintro _ ⟨⟩ _
    refine (entryOnce_recorded handoff).2 ⟨(List.nodup_append.1 hnodup).1, ?_, ?_⟩
    · exact fun o ho => hnone o (List.mem_append_right _ ho)
    · exact fun o ho dsn hmem => absurd hmem (hnone o (List.mem_append_left _ ho) dsn)
  | bounce held handoff stable ours failed bounced =>
    rename_i m msg h rs reason result
    subst ours
    have hm := honce.entry _ m not_false held.entry held.live
    obtain ⟨hnodup, hretry, hhanded⟩ := (entryOnce_recorded handoff).1 hm
    have hbut := Once.bounced honce held bounced (by
      intro o ho
      rw [failed] at ho
      exact hhanded o ho)
    refine ⟨hbut.named, hbut.young, ?_⟩
    intro id' m' _ hentry hlive
    by_cases hid : id' = msg.id
    · subst hid
      obtain rfl := Option.some.inj ((bounced.entry held.entry).1.symm.trans hentry)
      rw [(bounced.entry held.entry).2]
      refine (entryOnce_recorded handoff).2 ⟨hnodup, ?_, ?_⟩
      · -- whoever is to be tried again is not among the failures
        intro o ho dsn hmem
        rcases bounced.bounced_mem hmem with hold | ⟨-, hfailed, -⟩
        · exact hretry o ho dsn hold
        · rw [failed] at hfailed
          exact (List.nodup_append.1 hnodup).2.2 o hfailed o ho rfl
      · intro o ho dsn hmem
        rcases bounced.bounced_mem hmem with hold | ⟨-, -, hdsn⟩
        · exact hhanded o ho dsn hold
        · exact hdsn
    · exact hbut.entry id' m' hid hentry hlive
  | complete held handoff edit live handoff' same permanent temporary answered =>
    rename_i m m' h h'
    have hm := honce.entry id m not_false held.entry held.live
    refine hedits edit ?_
    rintro _ ⟨⟩ _
    rw [entryOnce_recorded handoff] at hm
    rw [entryOnce_recorded handoff', permanent, temporary, same]
    exact hm
  | reduce held edit live absent kept answered =>
    rename_i m m'
    have hm := honce.entry id m not_false held.entry held.live
    refine hedits edit ?_
    rintro _ ⟨⟩ _
    have hsubset := kept.subset
    obtain ⟨l, hperm, hsub⟩ := kept
    refine .of_absent absent (hperm.nodup_iff.1 ((nodup_retryable hm.nodup).sublist hsub)) ?_
    intro o ho
    exact hm.retry o (hsubset ho)
  | consume held edit answered =>
    exact hedits edit nofun

/-- Giving up bounces under a fresh id, so the entry must not be left for another attempt. -/
theorem GiveUp.once (h : GiveUp cfg env id w w') (honce : Once w)
    (hok : ∀ c, env.ok .giveUp c = true) (hvalid : Utf8.valid id = true) : Once w' := by
  obtain ⟨held, absent, ours, failed, bounced, -, -, edit, -, removed⟩ := h
  subst ours
  have hm := honce.entry _ _ not_false held.entry held.live
  have hbut := Once.bounced honce held bounced (by
    intro o ho dsn hmem
    rw [failed, ← retryable_of_absent absent] at ho
    exact absurd hmem (hm.retry o ho dsn))
  refine hbut.edits (fun _ hskip => hskip) edit ?_
  intro m' hm' hlive
  rw [removed hok hvalid m' hm'] at hlive
  cases hlive

theorem Attempted.once (h : Attempted cfg env id w w') (honce : Once w)
    (hok : ∀ c, env.ok .giveUp c = true) (hvalid : Utf8.valid id = true) : Once w' :=
  h.rule Once honce (fun hstep ih => hstep.once ih) (fun hlast => hlast) fun giveUp ih =>
    giveUp.once ih hok hvalid

end

/-! ## Runs -/

/-- Inputs within which nobody is bounced twice: the removal of a message that is given up works,
and no operator takes a message out of the failed queue again. -/
def RemovesGivenUp (w : World) : Input → Prop
  | .attempt id env => (∀ c, env.ok .giveUp c = true) ∧ Utf8.valid id = true
  | .hold id _ _ _ => ∀ m, w.store.entries id = some m → m.queueType ≠ .failed
  | .requeue id _ _ _ _ => ∀ m, w.store.entries id = some m → m.queueType ≠ .failed
  | _ => True

theorem not_failed_of_lifts {w : World} {i : Input} {id : Bytes} {m : Message}
    (hinput : RemovesGivenUp w i) (hlifts : i.Lifts id) (hentry : w.store.entries id = some m) :
    m.queueType ≠ .failed := by
  cases i with
  | hold id' reason ok now =>
    obtain rfl : id' = id := hlifts
    exact hinput m hentry
  | requeue id' reason stamp ok now =>
    obtain rfl : id' = id := hlifts
    exact hinput m hentry
  | _ => exact hlifts.elim

theorem step_once (cfg : Config) {w : World} {i : Input} (hw : w.Sound)
    (hinput : RemovesGivenUp w i) (honce : Once w) : Once (step cfg w i) := by
  have heffect := step_effect cfg hw i
  generalize step cfg w i = w' at heffect ⊢
  cases heffect with
  | idle => exact honce
  | enqueued fresh enqueued => exact honce.enqueued fresh enqueued
  | rewritten entry edit envelope queue =>
    rename_i id m m'
    refine honce.edits (fun _ hskip => hskip.elim) edit ?_
    intro m'' hm'' hlive
    cases hm''
    have hlive' : m.queueType.live = true :=
      live_of_queue queue (fun hlifts => not_failed_of_lifts hinput hlifts entry) hlive
    exact (honce.entry id m not_false entry hlive').congr envelope fun _ _ hmem => hmem
  | attempted entry active attempted => exact attempted.once honce hinput.1 hinput.2
  | shrunk input wf serial next ledger removals entries gone =>
    rename_i facts
    have hrecord : Once (w.record facts) := by
      refine honce.record ?_
      intro k o dsn hmem
      obtain ⟨k', heq⟩ := removals _ hmem
      cases heq
    refine hrecord.transfer (fun hmem => by rwa [ledger] at hmem) next.ge ?_
    intro id m _ hentry hlive
    rw [ledger, serial]
    exact hrecord.entry id m not_false (entry_of_shrunk entries hentry) hlive

/-- In every run that removes what it gives up, nobody is named in two DSNs. -/
theorem run_namedOnce (cfg : Config) {inputs : List Input}
    (hrun : Machine.Along (step cfg) RemovesGivenUp World.initial inputs) :
    NamedOnce (Machine.run (step cfg) World.initial inputs) := by
  have hinv := hrun.run_invariant (fun w => w.Sound ∧ Once w) (by
    rintro w i hinput ⟨hw, honce⟩
    exact ⟨(step_effect cfg hw i).sound hw, step_once cfg hw hinput honce⟩)
    ⟨World.Sound.initial, Once.initial⟩
  exact hinv.2.named

/-- A refused message, whose permanent failure is handed to a DSN under a stable id. -/
def refusedRun : List Input :=
  [.enqueue (lit "1-a") (lit "s@x.org") [lit "a@y.org"] (lit "hi") (lit "text") .normal 5 5,
    .attempt (lit "1-a") (.reliable 10 (lit "2-b")
      (answerAll .permanentFailure (lit "550 5.1.1 unknown") none))]

theorem run_namedOnce_refusedRun :
    Machine.Along (step (.server (lit "mx.x.org"))) RemovesGivenUp World.initial refusedRun ∧
      NamedOnce (Machine.run (step (.server (lit "mx.x.org"))) World.initial refusedRun) := by
  have hrun : Machine.Along (step (.server (lit "mx.x.org"))) RemovesGivenUp World.initial
      refusedRun :=
    ⟨trivial, ⟨fun _ => rfl, by decide +kernel⟩, trivial⟩
  exact ⟨hrun, run_namedOnce _ hrun⟩

/-! ## When the removal fails -/

def unreadable (freshID : Bytes) : Env :=
  { Env.reliable 10 freshID (answerAll .delivered [] none) with
    ok := fun _ call => call != .retrieveContent }

def unreadableRun : List Input :=
  [.enqueue (lit "1-a") (lit "s@x.org") [lit "a@y.org"] (lit "hi") (lit "text") .normal 5 5,
    .attempt (lit "1-a") (unreadable (lit "2-b")),
    .attempt (lit "1-a") (unreadable (lit "3-c"))]

/-- The deletion after the first bounce needs the body as well, so the second tick bounces again. -/
theorem unreadableRun_bounces_twice :
    ¬NamedOnce (Machine.run (step (.server (lit "mx.x.org"))) World.initial unreadableRun) := by
  intro h
  have hfirst : .bounced 0 (lit "1-a:0") (lit "2-b") ∈
      (Machine.run (step (.server (lit "mx.x.org"))) World.initial unreadableRun).ledger := by
    decide +kernel
  have hsecond : .bounced 0 (lit "1-a:0") (lit "3-c") ∈
      (Machine.run (step (.server (lit "mx.x.org"))) World.initial unreadableRun).ledger := by
    decide +kernel
  exact absurd (h 0 _ _ _ hfirst hsecond) (by decide)

end Elemta.Queue
