import Elemta.Mailbox.Steps

/-!
# References to bodies

A body that a message or a held copy refers to is ready, and neither an append nor a pass
of the collector is about to change that: an append has a body of its own until it is
published, and a pass has locked the rows that it may retire.
-/

namespace Elemta.Mailbox

open Bytes Slots

/-! ## Who refers to a body -/

section Accounts

variable {s : System} {a a' b : Account} {key : Key}

theorem mem_of_account {id : Bytes} (h : s.account id = some a) : a ∈ s.accounts ∧ a.id = id :=
  ⟨List.mem_of_find?_eq_some h, by simpa using List.find?_some h⟩

theorem referenced_iff : s.referenced key = true ↔ ∃ a ∈ s.accounts, key ∈ a.refs := by
  simp [System.referenced]

theorem mem_commit (hid : a'.id = a.id) (h : b ∈ (s.commit a a').accounts) :
    b = a' ∨ (b ∈ s.accounts ∧ b.id ≠ a.id) := by
  obtain ⟨c, hc, rfl⟩ := List.mem_map.1 h
  by_cases hca : c.id = a'.id
  · exact .inl (by simp [hca])
  · refine .inr ?_
    simp only [hca, if_false]
    exact ⟨hc, hid ▸ hca⟩

theorem referenced_commit (hid : a'.id = a.id) (h : (s.commit a a').referenced key = true) :
    key ∈ a'.refs ∨ s.referenced key = true := by
  obtain ⟨b, hb, hkey⟩ := referenced_iff.1 h
  rcases mem_commit hid hb with rfl | ⟨hold, -⟩
  · exact .inl hkey
  · exact .inr (referenced_iff.2 ⟨b, hold, hkey⟩)

/-- What nobody refers to stays so when a transaction takes up nothing new. -/
theorem referenced_commit_subset (ha : a ∈ s.accounts) (hid : a'.id = a.id) (hrefs : a'.refs ⊆ a.refs)
    (h : s.referenced key = false) : (s.commit a a').referenced key = false := by
  refine Bool.eq_false_iff.2 fun htrue => ?_
  rcases referenced_commit hid htrue with hnew | hold
  · exact Bool.eq_false_iff.1 h (referenced_iff.2 ⟨a, ha, hrefs hnew⟩)
  · exact Bool.eq_false_iff.1 h hold

theorem account_commit (hid : a'.id = a.id) (id : Bytes) :
    (s.commit a a').account id = (s.account id).map fun b => if b.id = a.id then a' else b := by
  have hsame : ((fun b : Account => b.id == id) ∘ fun b => if b.id = a.id then a' else b) =
      fun b => b.id == id := by
    funext b
    by_cases h : b.id = a.id
    · simp [h, hid]
    · simp [h]
  simp only [System.account, System.commit, List.find?_map, hsame, hid]

theorem ids_commit (a a' : Account) :
    (s.commit a a').accounts.map Account.id = s.accounts.map Account.id := by
  simp only [System.commit, List.map_map]
  refine List.map_congr_left fun b _ => ?_
  by_cases h : b.id = a'.id
  · simp [h]
  · simp [h]

end Accounts

/-! ## What belongs together -/

/-- An append has a body row of its own, which is not ready before the append publishes it. -/
def AppendOk (s : System) (p : Append) : Prop :=
  match p.phase with
  | .reserve => s.bodyState p.upload.key = none
  | .stage => s.bodyState p.upload.key = none
  | .put => s.bodyState p.upload.key ≠ some .ready
  | .summarize => s.bodyState p.upload.key ≠ some .ready
  | .publish => s.bodyState p.upload.key ≠ some .ready
  | _ => True

def Pass.deleting (p : Pass) : List Key :=
  match p.phase with
  | .delete keys => keys
  | .postpone key rest => key :: rest
  | _ => []

def Pass.early (p : Pass) : Bool :=
  match p.phase with
  | .mark => true
  | .unmark => true
  | .select => true
  | _ => false

structure PassOk (s : System) (p : Pass) : Prop where
  marked : p.isOpen = true → ∀ key ∈ p.marked,
    s.referenced key = false ∧ (s.bodyState key = some .ready ∨ s.bodyState key = some .retiring)
  selected : p.isOpen = true → ∀ key ∈ p.selected,
    s.bodyState key = some .ready → s.referenced key = false
  retired : p.isOpen = true → p.retired ⊆ p.selected
  early : p.early = true → p.retired = []
  todo : ∀ keys, p.phase = .recheck keys → keys ⊆ p.selected
  deleting : ∀ key ∈ p.deleting, s.bodyState key = some .retiring

structure Wired (s : System) : Prop where
  accounts : (s.accounts.map Account.id).Nodup
  sound : ∀ a ∈ s.accounts, a.Sound
  folders : ∀ a ∈ s.accounts, ∀ f ∈ a.folders, f.id < s.nextFolder
  keys : (s.appends.map fun p => p.upload.key).Nodup
  drawn : ∀ p ∈ s.appends, p.upload.key < s.nextKey
  fresh : ∀ key, s.nextKey ≤ key → s.bodyState key = none
  ready : ∀ key, s.referenced key = true → s.bodyState key = some .ready
  orphans : ∀ key row, s.bodies key = some row → row.orphanedAt ≠ none →
    s.referenced key = false ∧ row.state ≠ .staging
  appends : ∀ p ∈ s.appends, AppendOk s p
  passes : ∀ p ∈ s.passes, PassOk s p
  collected : ∀ key ∈ s.collected, s.bodyState key = some .retiring

section Wiring

variable {s s' : System} {a a' : Account} {i : Nat} {p : Append} {key : Key}

theorem AppendOk.congr (h : AppendOk s p) (hbody : s'.bodyState p.upload.key = s.bodyState p.upload.key) :
    AppendOk s' p := by
  unfold AppendOk at h ⊢
  rw [hbody]
  exact h

/-- Nobody comes to refer to a body. -/
theorem PassOk.mono {p : Pass} (h : PassOk s p) (hstate : s'.bodyState = s.bodyState)
    (hrefs : ∀ key, s.referenced key = false → s'.referenced key = false) : PassOk s' p := by
  refine ⟨fun ho key hkey => ?_, fun ho key hkey hready => ?_, h.retired, h.early, h.todo, ?_⟩
  · obtain ⟨href, hsettled⟩ := h.marked ho key hkey
    exact ⟨hrefs key href, hstate ▸ hsettled⟩
  · exact hrefs key (h.selected ho key hkey (hstate ▸ hready))
  · exact hstate ▸ h.deleting

section

variable (h : Wired s) (haccounts : s'.accounts = s.accounts)
  (hfolder : s'.nextFolder = s.nextFolder) (hkey : s'.nextKey = s.nextKey)
  (happends : s'.appends = s.appends) (hpasses : s'.passes = s.passes)
  (hcollected : s'.collected = s.collected)

include h haccounts hfolder hkey happends hpasses hcollected

/-- Nothing else of the state matters. -/
theorem Wired.congr (hstate : s'.bodyState = s.bodyState)
    (hrows : ∀ key row, s'.bodies key = some row →
      ∃ old, s.bodies key = some old ∧ old.orphanedAt = row.orphanedAt ∧ old.state = row.state) :
    Wired s' := by
  have hrefs : s'.referenced = s.referenced := by
    funext key
    simp only [System.referenced, haccounts]
  refine ⟨haccounts ▸ h.accounts, haccounts ▸ h.sound, ?_, happends ▸ h.keys, ?_, ?_, ?_, ?_, ?_, ?_, ?_⟩
  · rw [haccounts, hfolder]
    exact h.folders
  · rw [happends, hkey]
    exact h.drawn
  · rw [hkey, hstate]
    exact h.fresh
  · rw [hrefs, hstate]
    exact h.ready
  · intro key row hrow horphan
    obtain ⟨old, hold, hmark, hold'⟩ := hrows key row hrow
    rw [hrefs, ← hold']
    exact h.orphans key old hold (hmark ▸ horphan)
  · rw [happends]
    exact fun p hp => (h.appends p hp).congr (congrFun hstate _)
  · rw [hpasses]
    exact fun p hp => (h.passes p hp).mono hstate fun key hno => (congrFun hrefs key).trans hno
  · rw [hcollected, hstate]
    exact h.collected

theorem Wired.tables (hbodies : s'.bodies = s.bodies) : Wired s' := by
  refine h.congr haccounts hfolder hkey happends hpasses hcollected ?_ fun key row hrow => ?_
  · funext key
    simp only [System.bodyState, hbodies]
  · exact ⟨row, hbodies ▸ hrow, rfl, rfl⟩

end

theorem Wired.commit (h : Wired s) (new : List Nat) (ha : a ∈ s.accounts) (hid : a'.id = a.id)
    (hsound : a.Sound → a'.Sound) (hrefs : a'.refs ⊆ a.refs)
    (hids : ∀ f ∈ a'.folders, f.id ∈ a.folders.map Folder.id ++ new)
    (hnew : ∀ id ∈ new, id < s.nextFolder) : Wired (s.commit a a') where
  accounts := (ids_commit a a').symm ▸ h.accounts
  sound b hb := by
    rcases mem_commit hid hb with rfl | ⟨hold, -⟩
    · exact hsound (h.sound a ha)
    · exact h.sound b hold
  folders b hb f hf := by
    rcases mem_commit hid hb with rfl | ⟨hold, -⟩
    · rcases List.mem_append.1 (hids f hf) with hin | hfresh
      · obtain ⟨g, hg, hgid⟩ := List.mem_map.1 hin
        exact hgid ▸ h.folders a ha g hg
      · exact hnew f.id hfresh
    · exact h.folders b hold f hf
  keys := h.keys
  drawn := h.drawn
  fresh := h.fresh
  ready key hkey := by
    rcases referenced_commit hid hkey with hin | hold
    · exact h.ready key (referenced_iff.2 ⟨a, ha, hrefs hin⟩)
    · exact h.ready key hold
  orphans key row hrow horphan := by
    obtain ⟨href, hstate⟩ := h.orphans key row hrow horphan
    exact ⟨referenced_commit_subset ha hid hrefs href, hstate⟩
  appends p hp := (h.appends p hp).congr rfl
  passes p hp := (h.passes p hp).mono rfl fun key hkey => referenced_commit_subset ha hid hrefs hkey
  collected := h.collected

theorem Wired.commit_step (h : Wired s) (ha : a ∈ s.accounts) {new : List Nat}
    (hstep : Account.Step new a a') (hnew : ∀ id ∈ new, id < s.nextFolder) : Wired (s.commit a a') :=
  h.commit new ha hstep.id hstep.sound hstep.refs hstep.ids hnew

section

variable (h : Wired s) (hp : s.appends[i]? = some p)

include h hp

theorem key_ne {j : Nat} {q : Append}
    (hq : s.appends[j]? = some q) (hne : j ≠ i) : q.upload.key ≠ p.upload.key := by
  intro heq
  have hmap : (s.appends.map fun p => p.upload.key)[j]? = (s.appends.map fun p => p.upload.key)[i]? := by
    simp only [List.getElem?_map, hp, hq, Option.map_some, heq]
  obtain ⟨hj, -⟩ := List.getElem?_eq_some_iff.1 hq
  exact hne ((List.getElem?_inj (by simpa using hj) h.keys).1 hmap)

theorem Wired.keys_set (phase : AppendPhase) :
    ((s.appends.set i { p with phase := phase }).map fun p => p.upload.key).Nodup := by
  have hsame : (s.appends.set i { p with phase := phase }).map (fun p => p.upload.key) =
      s.appends.map fun p => p.upload.key := map_set_of_eq _ hp rfl
  exact hsame ▸ h.keys

theorem Wired.drawn_set (phase : AppendPhase) :
    ∀ q ∈ s.appends.set i { p with phase := phase }, q.upload.key < s.nextKey :=
  forall_set h.drawn (h.drawn p (List.mem_of_getElem? hp))

end

variable {phase : AppendPhase} {row : Option BodyRow}

theorem Wired.setAppend (h : Wired s) (hp : s.appends[i]? = some p)
    (hok : AppendOk s { p with phase := phase }) : Wired (s.setAppend i p phase) :=
  { h with
    keys := h.keys_set hp phase
    drawn := h.drawn_set hp phase
    appends := forall_set h.appends hok
    passes := fun q hq => (h.passes q hq).mono rfl fun _ href => href }

theorem bodyState_setBody : (s.setBody key row).bodyState key = row.map BodyRow.state := by
  simp [System.bodyState, System.setBody]

theorem bodyState_setBody_ne {other : Key} (h : other ≠ key) :
    (s.setBody key row).bodyState other = s.bodyState other := by
  simp [System.bodyState, System.setBody, h]

theorem Wired.not_referenced (h : Wired s) (hstate : s.bodyState key ≠ some .ready) :
    s.referenced key = false :=
  Bool.eq_false_iff.2 fun href => hstate (h.ready key href)

theorem Wired.not_collected (h : Wired s) (href : s.referenced key = true) : key ∉ s.collected := by
  intro hcollected
  cases (h.ready key href).symm.trans (h.collected key hcollected)

/-- One row changes that the pass has not marked and is not about to delete. -/
theorem PassOk.except {p : Pass} (h : PassOk s p) (hdeleting : s.bodyState key ≠ some .retiring)
    (hmarked : p.isOpen = true → key ∉ p.marked)
    (hselected : p.isOpen = true → key ∈ p.selected → s'.bodyState key ≠ some .ready)
    (hstate : ∀ k, k ≠ key → s'.bodyState k = s.bodyState k)
    (hrefs : ∀ k, k ≠ key → s.referenced k = false → s'.referenced k = false) : PassOk s' p := by
  refine ⟨fun ho k hk => ?_, fun ho k hk hready => ?_, h.retired, h.early, h.todo, fun k hk => ?_⟩
  · have hother : k ≠ key := fun heq => hmarked ho (heq ▸ hk)
    obtain ⟨href, hsettled⟩ := h.marked ho k hk
    exact ⟨hrefs k hother href, (hstate k hother).symm ▸ hsettled⟩
  · have hother : k ≠ key := by
      rintro rfl
      exact hselected ho hk hready
    exact hrefs k hother (h.selected ho k hk ((hstate k hother).symm.trans hready))
  · have hother : k ≠ key := by
      rintro rfl
      exact hdeleting (h.deleting k hk)
    exact (hstate k hother).trans (h.deleting k hk)

theorem eq_staging (hold : s.bodyState key = none ∨ s.bodyState key = some .staging)
    {state : BodyState} (h : s.bodyState key = some state) : state = .staging := by
  rcases hold with hold | hold
  · cases hold.symm.trans h
  · exact Option.some.inj (h.symm.trans hold)

/-- A staging row comes or goes: nobody refers to it, and no pass has marked or retired it. -/
theorem PassOk.setBody {p : Pass} (h : PassOk s p)
    (hold : s.bodyState key = none ∨ s.bodyState key = some .staging)
    (hrow : row = none ∨ ∃ r, row = some r ∧ r.state = .staging ∧ r.orphanedAt = none) :
    PassOk (s.setBody key row) p := by
  refine h.except (fun hretiring => ?_) (fun ho hk => ?_) (fun _ _ hready => ?_)
    (fun k => bodyState_setBody_ne) fun _ _ href => href
  · cases eq_staging hold hretiring
  · rcases (h.marked ho key hk).2 with hsettled | hsettled
    · cases eq_staging hold hsettled
    · cases eq_staging hold hsettled
  · rw [bodyState_setBody] at hready
    rcases hrow with rfl | ⟨r, rfl, hstaging, -⟩
    · cases hready
    · cases hstaging.symm.trans (Option.some.inj hready)

theorem Wired.setBody (h : Wired s) (hp : s.appends[i]? = some p)
    (hold : s.bodyState p.upload.key = none ∨ s.bodyState p.upload.key = some .staging)
    (hrow : row = none ∨ ∃ r, row = some r ∧ r.state = .staging ∧ r.orphanedAt = none)
    (hok : AppendOk (s.setBody p.upload.key row) { p with phase := phase }) :
    Wired ((s.setBody p.upload.key row).setAppend i p phase) := by
  have hp' := h.drawn p (List.mem_of_getElem? hp)
  refine ⟨h.accounts, h.sound, h.folders, h.keys_set hp phase, h.drawn_set hp phase,
    fun k hk => ?_, fun k hk => ?_, fun k r hr horphan => ?_, fun q hq => ?_, fun q hq => ?_,
    fun k hk => ?_⟩
  · have hother : k ≠ p.upload.key := by
      rintro rfl
      exact Nat.not_lt.2 hk hp'
    exact (bodyState_setBody_ne hother).trans (h.fresh k hk)
  · have hother : k ≠ p.upload.key := by
      rintro rfl
      cases eq_staging hold (h.ready _ hk)
    exact (bodyState_setBody_ne hother).trans (h.ready k hk)
  · by_cases hother : k = p.upload.key
    · subst hother
      have hr' : row = some r := by simpa [System.setBody, System.setAppend] using hr
      rcases hrow with hnone | ⟨r', hr'', -, hclean⟩
      · rw [hnone] at hr'
        cases hr'
      · cases hr'.symm.trans hr''
        exact absurd hclean horphan
    · have hr' : s.bodies k = some r := by
        simpa [System.setBody, System.setAppend, hother] using hr
      exact h.orphans k r hr' horphan
  · rcases mem_set_cases hq with rfl | ⟨j, hj, hq⟩
    · exact hok
    · exact (h.appends q (List.mem_of_getElem? hq)).congr
        (bodyState_setBody_ne (key_ne h hp hq hj))
  · exact ((h.passes q hq).setBody hold hrow).mono rfl fun _ href => href
  · have hother : k ≠ p.upload.key := by
      rintro rfl
      cases eq_staging hold (h.collected _ hk)
    exact (bodyState_setBody_ne hother).trans (h.collected k hk)

theorem not_locked {p : Pass} (h : s.locked key = false) (hp : p ∈ s.passes) (ho : p.isOpen = true) :
    key ∉ p.marked ∧ key ∉ p.selected := by
  have hno := List.any_eq_false.1 h p hp
  simp only [Pass.locks, ho, Bool.true_and, Bool.or_eq_true, decide_eq_true_eq, not_or] at hno
  exact ⟨hno.1.1, hno.2⟩

theorem bodyState_setReady (hold : s.bodyState key = some .staging) :
    (s.setReady key).bodyState key = some .ready := by
  obtain ⟨row, hrow, -⟩ := Option.map_eq_some_iff.1 hold
  simp [System.setReady, bodyState_setBody, hrow]

/-- The only new reference is the one to the append's own body. -/
theorem not_referenced_publish (ha : a ∈ s.accounts) (hpub : a.Published p.upload a')
    (hother : key ≠ p.upload.key) (hno : s.referenced key = false) :
    (s.commit a a').referenced key = false := by
  refine Bool.eq_false_iff.2 fun htrue => ?_
  rcases referenced_commit hpub.id htrue with hnew | hbefore
  · rcases List.mem_cons.1 (hpub.refs hnew) with heq | hin
    · exact hother heq
    · exact Bool.eq_false_iff.1 hno (referenced_iff.2 ⟨a, ha, hin⟩)
  · exact Bool.eq_false_iff.1 hno hbefore

section

variable (h : Wired s)

include h

/-- The staging row of an append becomes the body of a message. -/
theorem Wired.publish (hp : s.appends[i]? = some p) (ha : a ∈ s.accounts)
    (hpub : a.Published p.upload a') (hold : s.bodyState p.upload.key = some .staging)
    (hlock : s.locked p.upload.key = false)
    (hphase : AppendOk ((s.commit a a').setReady p.upload.key) { p with phase := phase }) :
    Wired (((s.commit a a').setReady p.upload.key).setAppend i p phase) := by
  have hdrawn := h.drawn p (List.mem_of_getElem? hp)
  have hother : ∀ k, k ≠ p.upload.key →
      ((s.commit a a').setReady p.upload.key).bodyState k = s.bodyState k := fun k hk =>
    bodyState_setBody_ne hk
  have hself : ((s.commit a a').setReady p.upload.key).bodyState p.upload.key = some .ready :=
    bodyState_setReady hold
  have hrefs : ∀ k, k ≠ p.upload.key → s.referenced k = false →
      (s.commit a a').referenced k = false := fun k => not_referenced_publish ha hpub
  refine ⟨(ids_commit a a').symm ▸ h.accounts, fun b hb => ?_, fun b hb f hf => ?_,
    h.keys_set hp phase, h.drawn_set hp phase, fun k hk => ?_, fun k hk => ?_,
    fun k r hr horphan => ?_, fun q hq => ?_, fun q hq => ?_, fun k hk => ?_⟩
  · rcases mem_commit hpub.id hb with rfl | ⟨hin, -⟩
    · exact hpub.sound (h.sound a ha)
    · exact h.sound b hin
  · rcases mem_commit hpub.id hb with rfl | ⟨hin, -⟩
    · obtain ⟨g, hg, hgid⟩ := List.mem_map.1 (hpub.ids f hf)
      exact hgid ▸ h.folders a ha g hg
    · exact h.folders b hin f hf
  · have hk' : k ≠ p.upload.key := by
      rintro rfl
      exact Nat.not_lt.2 hk hdrawn
    exact (hother k hk').trans (h.fresh k hk)
  · by_cases hk' : k = p.upload.key
    · rw [hk']
      exact hself
    · refine (hother k hk').trans (h.ready k ?_)
      by_contra hno
      exact Bool.eq_false_iff.1 (hrefs k hk' (Bool.eq_false_iff.2 hno)) hk
  · -- a staging row has never been marked
    have hk' : k ≠ p.upload.key := by
      rintro rfl
      obtain ⟨old, hrow, hstate⟩ := Option.map_eq_some_iff.1 hold
      have hr' : { old with state := BodyState.ready } = r := by
        simpa [System.setReady, System.setBody, System.setAppend, System.commit, hrow] using hr
      have hmark : old.orphanedAt ≠ none := by
        rw [← hr'] at horphan
        exact horphan
      exact (h.orphans _ old hrow hmark).2 hstate
    have hr' : s.bodies k = some r := by
      simpa [System.setReady, System.setBody, System.setAppend, System.commit, hk'] using hr
    obtain ⟨href, hstate⟩ := h.orphans k r hr' horphan
    exact ⟨hrefs k hk' href, hstate⟩
  · rcases mem_set_cases hq with rfl | ⟨j, hj, hq⟩
    · exact hphase
    · exact (h.appends q (List.mem_of_getElem? hq)).congr (hother _ (key_ne h hp hq hj))
  · have hfree := not_locked hlock hq
    exact (h.passes q hq).except (by rw [hold]; nofun) (fun ho => (hfree ho).1)
      (fun ho hk => absurd hk (hfree ho).2) hother hrefs
  · have hk' : k ≠ p.upload.key := by
      rintro rfl
      cases hold.symm.trans (h.collected _ hk)
    exact (hother k hk').trans (h.collected k hk)

/-! ## Appends -/

theorem Wired.refuse (a : Account) (p : Append) : Wired (s.refuse a p) :=
  h.tables rfl rfl rfl rfl rfl rfl rfl

theorem Wired.setReserved (ha : a ∈ s.accounts) (reserved : Int) :
    Wired (s.commit a { a with reserved := reserved }) :=
  h.commit [] ha rfl (fun hsound => ⟨hsound.ids, hsound.balanced⟩) (List.Subset.refl _)
    (fun _ hf => List.mem_append_left _ (List.mem_map_of_mem hf)) nofun

theorem Wired.setStored (key : Key) (present : Bool) : Wired (s.setStored key present) :=
  h.tables rfl rfl rfl rfl rfl rfl rfl

theorem Wired.appendStep (hp : s.appends[i]? = some p) (outcome : Outcome)
    (begun : Time) : Wired (s.appendStep i p outcome begun) := by
  have hok := h.appends p (List.mem_of_getElem? hp)
  refine appendStep_rule h fun s' phase hmove => ?_
  cases hmove with
  | givenUp | unstaged | failed | left | unreleased => exact h.setAppend hp trivial
  | refused | overfull => exact (h.refuse _ p).setAppend hp trivial
  | reserved hphase hacc =>
    simp only [AppendOk, hphase] at hok
    exact (h.setReserved (mem_of_account hacc).1 _).setAppend hp hok
  | leaked _ hacc | released _ hacc =>
    exact (h.setReserved (mem_of_account hacc).1 _).setAppend hp trivial
  | staged hphase hstate hclean hnext =>
    simp only [AppendOk, hphase] at hok
    refine h.setBody hp (.inl hok) (.inr ⟨_, rfl, hstate, hclean⟩) ?_
    rcases hnext with rfl | rfl
    · simp [AppendOk, bodyState_setBody, hstate]
    · trivial
  | put hphase hnext =>
    simp only [AppendOk, hphase] at hok
    refine (h.setStored _ true).setAppend hp ?_
    rcases hnext with rfl | rfl
    · exact hok
    · trivial
  | summarized hphase =>
    simp only [AppendOk, hphase] at hok
    exact h.setAppend hp hok
  | published _ hacc hlock hpub hstaging hnext =>
    refine h.publish hp (mem_of_account hacc).1 hpub hstaging hlock ?_
    rcases hnext with rfl | ⟨-, rfl⟩
    · trivial
    · trivial
  | deleted _ hnext =>
    refine (h.setStored _ false).setAppend hp ?_
    rcases hnext with rfl | rfl
    · trivial
    · trivial
  | unlisted _ hstaging => exact h.setBody hp (.inr hstaging) (.inl rfl) trivial

/-! ## Other transactions -/

theorem Wired.drawIds : Wired s.drawIds :=
  { h with
    folders := fun a ha f hf => Nat.lt_succ_of_lt (h.folders a ha f hf)
    passes := fun p hp => (h.passes p hp).mono rfl fun _ href => href }

theorem Wired.fresh_folder (ha : a ∈ s.accounts) : s.nextFolder ∉ a.folders.map Folder.id := by
  intro hmem
  obtain ⟨f, hf, hid⟩ := List.mem_map.1 hmem
  exact Nat.lt_irrefl _ (hid ▸ h.folders a ha f hf)

end

/-- The id of a new folder is drawn whatever becomes of the transaction. -/
theorem Wired.drawn_folder : ∀ id ∈ [s.nextFolder], id < s.drawIds.nextFolder :=
  List.forall_mem_singleton.2 (Nat.lt_succ_self _)

theorem Wired.transact (h : Wired s) (id : Bytes) (tx : Tx) (outcome : Outcome) :
    Wired (s.transact id tx outcome) :=
  transact_rule (fun _ => h.fresh_folder) tx h h.drawIds fun _ _ hacc hstep =>
    h.drawIds.commit_step (mem_of_account hacc).1 hstep drawn_folder

theorem Wired.addAccount (h : Wired s) (hnew : s.account a.id = none) (hsound : a.Sound)
    (hrefs : a.refs = []) (hfolders : ∀ f ∈ a.folders, f.id < s.nextFolder) :
    Wired { s with accounts := s.accounts ++ [a] } := by
  have hno : ∀ key, s.referenced key = false →
      ({ s with accounts := s.accounts ++ [a] } : System).referenced key = false := by
    intro key hkey
    simpa [System.referenced, hrefs] using hkey
  refine ⟨nodup_concat h.accounts fun hmem => ?_, forall_concat h.sound hsound,
    forall_concat h.folders hfolders, h.keys, h.drawn, h.fresh, fun key hkey => ?_,
    fun key row hrow horphan => ?_, h.appends, fun p hp => (h.passes p hp).mono rfl hno, h.collected⟩
  · obtain ⟨b, hb, hid⟩ := List.mem_map.1 hmem
    exact absurd (List.find?_eq_none.1 hnew b hb) (by simp [hid])
  · refine h.ready key ?_
    by_contra hfalse
    exact Bool.eq_false_iff.1 (hno key (Bool.eq_false_iff.2 hfalse)) hkey
  · obtain ⟨href, hstate⟩ := h.orphans key row hrow horphan
    exact ⟨hno key href, hstate⟩

theorem Wired.ensureAccount (h : Wired s) (id address : Bytes) (quota : Int) :
    Wired (s.ensureAccount id address quota) := by
  refine ensureAccount_rule (fun _ => h.fresh_folder) h (fun a hnone hstep => ?_)
    fun a b hacc hstep => ?_
  · have hsound : (emptyAccount id (toLower address) quota).Sound := ⟨List.nodup_nil, rfl⟩
    refine h.drawIds.addAccount (hstep.id.symm ▸ hnone) (hstep.sound hsound)
      (List.subset_nil.1 hstep.refs) fun f hf => ?_
    rcases List.mem_append.1 (hstep.ids f hf) with hid | hid
    · cases hid
    · exact drawn_folder f.id hid
  · have hd : Wired { s.drawIds with
        lowered := Function.update s.lowered id (s.lowered id || lowers a.quota quota) } :=
      h.drawIds.tables rfl rfl rfl rfl rfl rfl rfl
    have hb : a.Sound → (a.redirected address quota).Sound := fun hsound =>
      ⟨hsound.ids, hsound.balanced⟩
    exact hd.commit [s.nextFolder] (mem_of_account hacc).1 hstep.id
      (fun hsound => hstep.sound (hb hsound)) hstep.refs hstep.ids drawn_folder

theorem Wired.remove (h : Wired s) (i : Nat) (outcome : Outcome) : Wired (s.remove i outcome) := by
  have hfinish : ∀ r, Wired (s.finish i r) := fun r => h.tables rfl rfl rfl rfl rfl rfl rfl
  refine remove_rule outcome h hfinish fun r a a' removed _ _ hacc hrun => ?_
  exact ((hfinish r).commit_step (mem_of_account hacc).1 (Removal.run_step hrun) nofun).tables
    rfl rfl rfl rfl rfl rfl rfl

theorem Wired.beginAppend (h : Wired s) (p : Append) (hkey : p.upload.key = s.nextKey)
    (hphase : p.phase = .reserve) :
    Wired { s with nextKey := s.nextKey + 1, appends := s.appends ++ [p] } := by
  have hnone : s.bodyState p.upload.key = none := h.fresh _ (Nat.le_of_eq hkey.symm)
  refine ⟨h.accounts, h.sound, h.folders, nodup_concat h.keys fun hmem => ?_,
    forall_concat (fun q hq => Nat.lt_succ_of_lt (h.drawn q hq)) (hkey ▸ Nat.lt_succ_self _),
    fun key hk => h.fresh key (Nat.le_of_succ_le hk), h.ready, h.orphans,
    forall_concat (fun q hq => (h.appends q hq).congr rfl) ?_,
    fun q hq => (h.passes q hq).mono rfl fun _ href => href, h.collected⟩
  · obtain ⟨q, hq, hqkey⟩ := List.mem_map.1 hmem
    exact Nat.lt_irrefl _ (hkey ▸ hqkey ▸ h.drawn q hq)
  · unfold AppendOk
    rw [hphase]
    exact hnone

end Wiring

end Elemta.Mailbox
