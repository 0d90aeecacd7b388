import Elemta.Queue.Runs

/-!
# What the steps of an attempt change

Every write of an attempt replaces one entry, and every bounce adds an entry
under another id. These are the two kinds of change that the invariants of the
queue have to survive; the lemmas here say of each step of the processor which
kind it is and what the new entry looks like.
-/

namespace Elemta.Queue

open Bytes Bounce

/-- A world the machine can be in: the store is well formed, and live serials are in use once. -/
structure World.Sound (w : World) : Prop where
  wf : w.store.WF
  serial_lt : ∀ {id m}, w.store.entries id = some m → w.serial id < w.next
  serial_inj : ∀ {id m id' m'}, w.store.entries id = some m → w.store.entries id' = some m' →
    w.serial id = w.serial id' → id = id'

theorem World.Sound.initial : World.initial.Sound := by
  refine ⟨Store.WF.empty, ?_, ?_⟩
  · intro id m h
    simp [World.initial, Store.empty] at h
  · intro id m id' m' h
    simp [World.initial, Store.empty] at h

/-! ## Replacing one entry -/

/-- Only the entry of `id` changed: it is `e` now. -/
structure Edits (w : World) (id : Bytes) (e : Option Message) (w' : World) : Prop where
  store : Manager.Rewrites w.store id e w'.store
  serial : w'.serial = w.serial
  next : w'.next = w.next
  ledger : w'.ledger = w.ledger

variable {id : Bytes} {msg : Message} {e : Option Message} {w w' : World}

section

variable (h : Edits w id e w')

include h

theorem Edits.exists_store : ∃ store, w' = { w with store } := by
  refine ⟨w'.store, ?_⟩
  cases w'
  cases h.serial
  cases h.next
  cases h.ledger
  rfl

theorem Edits.entry : w'.store.entries id = e := by
  rw [h.store.entries, Function.update_self]

theorem Edits.other {other : Bytes} (hne : other ≠ id) :
    w'.store.entries other = w.store.entries other := by
  rw [h.store.entries, Function.update_of_ne hne]

theorem Edits.unused {other : Bytes} (hne : other ≠ id)
    (hother : w.store.Unused other) : w'.store.Unused other :=
  ⟨by rw [h.other hne, hother.entry], by rw [h.store.contents other hne, hother.content],
    by rw [h.store.tombstones other hne, hother.tombstone]⟩

end

variable {m : Message}

theorem Edits.sound (h : Edits w id e w') (hw : w.Sound) (hentry : w.store.entries id = some m) :
    w'.Sound := by
  -- an entry of the new world stands under an id that had one before
  have hback : ∀ {other x}, w'.store.entries other = some x →
      ∃ y, w.store.entries other = some y := by
    intro other x hx
    by_cases hid : other = id
    · exact ⟨m, hid ▸ hentry⟩
    · exact ⟨x, by rw [← h.other hid, hx]⟩
  obtain ⟨store, rfl⟩ := h.exists_store
  refine ⟨h.store.wf, ?_, ?_⟩
  · intro other x hx
    obtain ⟨y, hy⟩ := hback hx
    exact hw.serial_lt hy
  · intro a x b y hx hy
    obtain ⟨x', hx'⟩ := hback hx
    obtain ⟨y', hy'⟩ := hback hy
    exact hw.serial_inj hx' hy'

section

variable {cfg : Config} {env : Env} {w : World} {id : Bytes} {m : Message}

section

variable (site : Site) (hw : w.Sound) (hentry : w.store.entries id = some m)

include site hw hentry

theorem addAttempt_edits (result errorMsg : Bytes) :
    ∃ m', Edits w id (some m') (addAttempt env site w id result errorMsg) ∧
      m'.envelope = m.envelope ∧ m'.queueType = m.queueType := by
  obtain ⟨m', hrw, henv, hqueue⟩ :=
    Manager.addAttempt_keeps (env.ok site) (env.now site) hw.wf hentry result errorMsg
  exact ⟨m', ⟨hrw, rfl, rfl, rfl⟩, henv, hqueue⟩

theorem moveMessage_edits (target : QueueType) (reason : Bytes) :
    ∃ m', Edits w id (some m') (moveMessage cfg env site w id target reason) ∧
      m'.envelope = m.envelope ∧ (m'.queueType = m.queueType ∨ m'.queueType = target) := by
  obtain ⟨m', hrw, henv, hqueue⟩ := Manager.moveMessage_keeps (env.ok site) (env.now site)
    cfg.manager env.jitter hw.wf hentry target reason
  exact ⟨m', ⟨hrw, rfl, rfl, rfl⟩, henv, hqueue⟩

theorem deleteMessage_edits :
    Edits w id (some m) (deleteMessage cfg env site w id) ∨
      Edits w id none (deleteMessage cfg env site w id) := by
  rcases Manager.deleteMessage_cases (env.ok site) (env.now site) cfg.manager hw.wf hentry with
    hrw | hrw
  · exact .inl ⟨hrw, rfl, rfl, rfl⟩
  · exact .inr ⟨hrw, rfl, rfl, rfl⟩

end

theorem updateMessage_edits {site : Site} (hw : w.Sound)
    (h : updateMessage env site w msg = some w') :
    Edits w msg.id (some (Store.recorded msg)) w' := by
  obtain ⟨store, hstore, rfl⟩ := Option.map_eq_some_iff.1 h
  exact ⟨Manager.tryUpdate_rewrites hw.wf hstore, rfl, rfl, rfl⟩

theorem observePartial_edits (hw : w.Sound) (hentry : w.store.entries msg.id = some m)
    (delivered : List Bytes) (temporary permanent : Nat) :
    ∃ m', Edits w msg.id (some m') (observePartial env w msg delivered temporary permanent) ∧
      m'.envelope = m.envelope ∧ m'.queueType = m.queueType := by
  unfold observePartial
  split
  · exact ⟨m, ⟨Manager.Rewrites.refl hw.wf hentry, rfl, rfl, rfl⟩, rfl, rfl⟩
  · exact addAttempt_edits .partialAttempt hw hentry _ _

end

/-! ## Adding an entry -/

/-- An enqueue either finds the message known or adds it under an id that had no entry. -/
inductive Enqueued (w : World) (msg : Message) (w' : World) : Prop where
  | known (wf : w'.store.WF) (entries : w'.store.entries = w.store.entries)
      (unused : ∀ {id}, id ≠ msg.id → w.store.Unused id → w'.store.Unused id)
      (serial : w'.serial = w.serial) (next : w'.next = w.next) (ledger : w'.ledger = w.ledger)
      (remembered : ∀ m content, w.store.Remembered m content → w'.store.Remembered m content)
  | created (wf : w'.store.WF) (absent : w.store.entries msg.id = none)
      (unused : ∀ {id}, id ≠ msg.id → w.store.Unused id → w'.store.Unused id)
      (entries : w'.store.entries =
        Function.update w.store.entries msg.id (some (Store.recorded msg)))
      (serial : w'.serial = Function.update w.serial msg.id w.next)
      (next : w'.next = w.next + 1)
      (ledger : w'.ledger = w.ledger ++ msg.occurrences.map (.accepted msg.id w.next))
      (remembered : ∀ m content, w.store.Remembered m content → w'.store.Remembered m content)

theorem World.enqueue_cases {content : Bytes} (hw : w.store.WF)
    (h : w.enqueue msg content = some w') : Enqueued w msg w' := by
  unfold World.enqueue at h
  cases hcreate : w.store.createMessageIfAbsent msg content with
  | none => simp [hcreate] at h
  | some answer =>
    obtain ⟨created, store⟩ := answer
    have hwf := hw.createMessageIfAbsent hcreate
    have hentries := Store.entries_of_createMessageIfAbsent hw hcreate
    have hunused : ∀ {id}, id ≠ msg.id → w.store.Unused id → store.Unused id :=
      fun hne hid => hid.of_createMessageIfAbsent hne hcreate
    have hremembered : ∀ m c, w.store.Remembered m c → store.Remembered m c :=
      fun _ _ hm => hm.enqueue hw hcreate
    cases created with
    | false =>
      have hw' : w' = { w with store := store } := by simpa [hcreate] using h.symm
      subst hw'
      exact .known hwf hentries hunused rfl rfl rfl hremembered
    | true =>
      obtain rfl := Option.some.inj (by simpa [hcreate] using h)
      cases Store.creates_of_createMessageIfAbsent hcreate with
      | created tombstone entry => exact .created hwf entry hunused hentries rfl rfl rfl hremembered

section

variable (h : Enqueued w msg w')

include h

theorem Enqueued.entry (hentry : w.store.entries id = some m) :
    w'.store.entries id = some m ∧ w'.serial id = w.serial id := by
  cases h with
  | known wf entries unused serial next ledger =>
    rw [entries, serial]
    exact ⟨hentry, rfl⟩
  | created wf absent unused entries serial next ledger =>
    have hne : id ≠ msg.id := by
      rintro rfl
      rw [absent] at hentry
      cases hentry
    rw [entries, serial, Function.update_of_ne hne, Function.update_of_ne hne]
    exact ⟨hentry, rfl⟩

theorem Enqueued.ledger_subset : w.ledger ⊆ w'.ledger := by
  cases h with
  | known wf entries unused serial next ledger =>
    rw [ledger]
    exact List.Subset.refl _
  | created wf absent unused entries serial next ledger =>
    rw [ledger]
    exact List.subset_append_left _ _

theorem Enqueued.next_le : w.next ≤ w'.next := by
  cases h with
  | known wf entries unused serial next ledger => exact next.ge
  | created wf absent unused entries serial next ledger => exact next ▸ Nat.le_succ _

/-- An entry was there, or is the new one under a serial that no older entry has. -/
theorem Enqueued.entry_cases (hm : w'.store.entries id = some m) :
    (w.store.entries id = some m ∧ w'.serial id = w.serial id) ∨
      (id = msg.id ∧ m = Store.recorded msg ∧ w'.serial id = w.next ∧ w'.next = w.next + 1 ∧
        ∀ o ∈ msg.occurrences, .accepted id w.next o ∈ w'.ledger) := by
  cases h with
  | known wf entries unused serial next ledger =>
    rw [entries] at hm
    exact .inl ⟨hm, by rw [serial]⟩
  | created wf absent unused entries serial next ledger =>
    by_cases hid : id = msg.id
    · subst hid
      rw [entries, Function.update_self] at hm
      refine .inr ⟨rfl, (Option.some.inj hm).symm, by rw [serial, Function.update_self], next, ?_⟩
      intro o ho
      rw [ledger]
      exact List.mem_append_right _ (List.mem_map.2 ⟨o, ho, rfl⟩)
    · rw [entries, Function.update_of_ne hid] at hm
      exact .inl ⟨hm, by rw [serial, Function.update_of_ne hid]⟩

/-- What is on record was there, or says that the new entry was accepted. -/
theorem Enqueued.ledger_cases {f : Fact} (hf : f ∈ w'.ledger) :
    f ∈ w.ledger ∨ ∃ o ∈ msg.occurrences, f = .accepted msg.id w.next o ∧
      w'.store.entries msg.id = some (Store.recorded msg) ∧ w'.serial msg.id = w.next := by
  cases h with
  | known wf entries unused serial next ledger => exact .inl (ledger ▸ hf)
  | created wf absent unused entries serial next ledger =>
    rw [ledger] at hf
    rcases List.mem_append.1 hf with hold | hnew
    · exact .inl hold
    · obtain ⟨o, ho, rfl⟩ := List.mem_map.1 hnew
      exact .inr ⟨o, ho, rfl, by rw [entries, Function.update_self],
        by rw [serial, Function.update_self]⟩

theorem Enqueued.mem_ledger {f : Fact} (hf : ∀ id k o, f ≠ .accepted id k o) :
    f ∈ w'.ledger ↔ f ∈ w.ledger := by
  refine ⟨fun hmem => ?_, fun hmem => h.ledger_subset hmem⟩
  rcases h.ledger_cases hmem with hold | ⟨o, -, heq, -⟩
  · exact hold
  · exact absurd heq (hf _ _ _)

theorem Enqueued.sound (hw : w.Sound) : w'.Sound := by
  have hnext := h.next_le
  refine ⟨?_, ?_, ?_⟩
  · cases h with
    | known wf => exact wf
    | created wf => exact wf
  · intro id m hm
    rcases h.entry_cases hm with ⟨hold, hser⟩ | ⟨-, -, hser, hlt, -⟩
    · have := hw.serial_lt hold
      omega
    · omega
  · intro id m id' m' hm hm' hser
    rcases h.entry_cases hm with ⟨hold, hs⟩ | ⟨hid, -, hs, -⟩ <;>
      rcases h.entry_cases hm' with ⟨hold', hs'⟩ | ⟨hid', -, hs', -⟩
    · exact hw.serial_inj hold hold' (by omega)
    · have := hw.serial_lt hold
      omega
    · have := hw.serial_lt hold'
      omega
    · rw [hid, hid']

end

theorem World.Sound.record (hw : w.Sound) (facts : List Fact) : (w.record facts).Sound :=
  ⟨hw.wf, hw.serial_lt, hw.serial_inj⟩

inductive Bounced (cfg : Config) (env : Env) (site : Site) (w : World) (msg : Message)
    (rs : List DsnRecipient) (reason : Bytes) (handoffID : Option Bytes) :
    BounceResult → World → Prop where
  | skipped (original : Bytes)
      (none_due : bounceRequest cfg.engine original msg reason handoffID env.freshID
        (env.now site) = none) :
      Bounced cfg env site w msg rs reason handoffID .skipped
        (w.record (failureFacts cfg.engine.host (w.serial msg.id) msg rs))
  | failed :
      Bounced cfg env site w msg rs reason handoffID .failed
        (w.record (failureFacts cfg.engine.host (w.serial msg.id) msg rs))
  | generated (original : Bytes) (req : Request) (bounced : World)
      (due : bounceRequest cfg.engine original msg reason handoffID env.freshID
        (env.now site) = some req)
      (enqueued : Enqueued (w.record (failureFacts cfg.engine.host (w.serial msg.id) msg rs))
        (req.message (env.now site)) bounced) :
      Bounced cfg env site w msg rs reason handoffID .generated
        (bounced.record (bounceFacts (w.serial msg.id) req rs))

theorem generateBounce_cases (cfg : Config) (env : Env) (site : Site) (hw : w.Sound) (msg : Message)
    (rs : List DsnRecipient) (reason : Bytes) (handoffID : Option Bytes) :
    Bounced cfg env site w msg rs reason handoffID
      (generateBounce cfg env site w msg rs reason handoffID).1
      (generateBounce cfg env site w msg rs reason handoffID).2 := by
  unfold generateBounce
  simp only
  split
  · rename_i hreq
    exact .skipped _ hreq
  rename_i req hreq
  split
  · exact .failed
  rename_i bounced hbounced
  split at hbounced
  · exact .generated _ req bounced hreq (World.enqueue_cases hw.wf hbounced)
  · simp at hbounced

section

variable {cfg : Config} {env : Env} {site : Site} {w w' : World} {msg : Message}
  {rs : List DsnRecipient} {reason : Bytes} {handoffID : Option Bytes}
  {result : BounceResult}

theorem Bounced.sound (h : Bounced cfg env site w msg rs reason handoffID result w')
    (hw : w.Sound) : w'.Sound := by
  cases h with
  | skipped original none_due => exact hw.record _
  | failed => exact hw.record _
  | generated original req bounced due enqueued => exact (enqueued.sound (hw.record _)).record _

variable {id : Bytes} {m : Message}

theorem Enqueued.unused (h : Enqueued w msg w') (hne : id ≠ msg.id) (hid : w.store.Unused id) :
    w'.store.Unused id := by
  cases h with
  | known wf entries unused serial next ledger => exact unused hne hid
  | created wf absent unused entries serial next ledger => exact unused hne hid

variable {content : Bytes}

theorem Enqueued.remembered (h : Enqueued w msg w') (hm : w.store.Remembered m content) :
    w'.store.Remembered m content := by
  cases h with
  | known wf entries unused serial next ledger remembered => exact remembered m content hm
  | created wf absent unused entries serial next ledger remembered =>
    exact remembered m content hm

theorem Bounced.remembered (h : Bounced cfg env site w msg rs reason handoffID result w')
    (hm : w.store.Remembered m content) : w'.store.Remembered m content := by
  cases h with
  | skipped original none_due => exact hm
  | failed => exact hm
  | generated original req bounced due enqueued =>
    have hbounced : bounced.store.Remembered m content := enqueued.remembered hm
    exact hbounced

theorem bounceRequest_id {eng : Engine} {original freshID : Bytes} {now : Time} {req : Request}
    (h : bounceRequest eng original msg reason handoffID freshID now = some req) :
    req.id = handoffID.getD freshID ∧ req.reported = recipientsToNotify msg := by
  unfold bounceRequest at h
  simp only at h
  split at h
  · simp at h
  split at h
  · simp at h
  split at h
  · simp at h
  · rw [← Option.some.inj h]
    exact ⟨rfl, rfl⟩

theorem Bounced.unused (h : Bounced cfg env site w msg rs reason handoffID result w')
    (hne : id ≠ handoffID.getD env.freshID) (hid : w.store.Unused id) : w'.store.Unused id := by
  cases h with
  | skipped original none_due => exact hid
  | failed => exact hid
  | generated original req bounced due enqueued =>
    have hreq : (req.message (env.now site)).id = handoffID.getD env.freshID :=
      (bounceRequest_id due).1
    exact enqueued.unused (hreq ▸ hne) hid

/-- A bounce under an unused id is accepted by storage that works. -/
theorem generateBounce_ne_failed (hok : env.ok site .create = true)
    (hfresh : w.store.Unused (handoffID.getD env.freshID)) :
    (generateBounce cfg env site w msg rs reason handoffID).1 ≠ .failed := by
  unfold generateBounce
  simp only [hok, if_true]
  split
  · simp
  rename_i req hreq
  have hid : (req.message (env.now site)).id = handoffID.getD env.freshID :=
    (bounceRequest_id hreq).1
  have hunused : w.store.Unused (req.message (env.now site)).id := hid ▸ hfresh
  have hcreate := hunused.createMessageIfAbsent req.content
  simp [World.enqueue, World.record, hcreate]

theorem Bounced.entry (h : Bounced cfg env site w msg rs reason handoffID result w')
    (hentry : w.store.entries id = some m) :
    w'.store.entries id = some m ∧ w'.serial id = w.serial id := by
  cases h with
  | skipped original none_due => exact ⟨hentry, rfl⟩
  | failed => exact ⟨hentry, rfl⟩
  | generated original req bounced due enqueued => exact enqueued.entry hentry

end

end Elemta.Queue
