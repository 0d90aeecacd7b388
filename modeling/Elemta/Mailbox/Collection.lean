import Elemta.Mailbox.Publication

/-!
# Collecting with a grace period

A pass marks the published bodies that it finds unreferenced with the time at which it
began, and a later pass retires a body that was marked more than the grace period before
its own beginning. So the grace is counted from the beginning of the marking pass, which is
a little before the pass sees that nobody refers to the body, and sometimes before the last
reference goes. From the moment it is seen to the moment it is retired, nobody refers to
it.
-/

namespace Elemta.Mailbox

open Bytes Slots

/-- The last reference to the body went at that time or before. -/
def FreedBy (s : System) (key : Key) (time : Time) : Prop :=
  ∃ t, s.freed key = some t ∧ t ≤ time

def AfterGrace (cfg : GcConfig) (r : Retirement) : Prop :=
  ∃ freed seen, r.freed = some freed ∧ r.seen = some seen ∧ freed ≤ seen ∧ r.marking ≤ seen ∧
    r.marking + cfg.grace < r.begun ∧ r.begun ≤ r.done

/-- An open pass has marked bodies that were free by then, and has selected bodies whose grace is
over. -/
structure PassTimed (cfg : GcConfig) (s : System) (p : Pass) : Prop where
  begun : p.begun ≤ s.clock
  markedAt : p.begun ≤ p.markedAt
  marked : ∀ key ∈ p.marked, FreedBy s key p.markedAt
  selected : ∀ key ∈ p.selected, ∀ row, s.bodies key = some row → row.state = .ready →
    ∃ t, row.orphanedAt = some t ∧ t + cfg.grace < p.begun
  apart : ∀ key ∈ p.selected, key ∉ p.marked
  early : p.early = true → p.selected = []

structure Timed (cfg : GcConfig) (s : System) : Prop where
  freed : ∀ key t, s.freed key = some t → t ≤ s.clock
  gone : ∀ key, s.bodyState key = some .ready → s.referenced key = false → s.freed key ≠ none
  marks : ∀ key row t, s.bodies key = some row → row.orphanedAt = some t →
    ∃ seen, s.seen key = some seen ∧ t ≤ seen ∧ FreedBy s key seen
  passes : ∀ p ∈ s.passes, p.isOpen = true → PassTimed cfg s p
  apart : Apart Pass.locks s.passes
  retirements : ∀ r ∈ s.retirements, AfterGrace cfg r

section Timing

variable {cfg : GcConfig} {s s' : System} {i : Nat} {p : Pass} {key : Key} {a a' : Account}

theorem PassTimed.congr (h : PassTimed cfg s p) (hclock : s.clock ≤ s'.clock)
    (hmarked : ∀ key ∈ p.marked, s'.freed key = s.freed key)
    (hrows : ∀ key ∈ p.selected, ∀ row, s'.bodies key = some row → row.state = .ready →
      ∃ old, s.bodies key = some old ∧ old.state = .ready ∧ old.orphanedAt = row.orphanedAt) :
    PassTimed cfg s' p where
  begun := Nat.le_trans h.begun hclock
  markedAt := h.markedAt
  marked key hkey := by
    unfold FreedBy
    rw [hmarked key hkey]
    exact h.marked key hkey
  selected key hkey row hrow hready := by
    obtain ⟨old, hold, hstate, hmark⟩ := hrows key hkey row hrow hready
    rw [← hmark]
    exact h.selected key hkey old hold hstate
  apart := h.apart
  early := h.early

/-- A step that frees no body and marks none. -/
theorem Timed.congr (h : Timed cfg s) (hclock : s.clock ≤ s'.clock) (hfreed : s'.freed = s.freed)
    (hseen : s'.seen = s.seen) (hpasses : s'.passes = s.passes)
    (hretirements : s'.retirements = s.retirements)
    (hrefs : ∀ key, s.referenced key = true → s'.referenced key = true)
    (hrows : ∀ key row, s'.bodies key = some row →
      ∃ old, s.bodies key = some old ∧ old.orphanedAt = row.orphanedAt ∧ old.state = row.state) :
    Timed cfg s' where
  freed key t ht := Nat.le_trans (h.freed key t (hfreed ▸ ht)) hclock
  gone key hready hno := by
    rw [hfreed]
    obtain ⟨row, hrow, hstate⟩ := Option.map_eq_some_iff.1 hready
    obtain ⟨old, hold, -, hsame⟩ := hrows key row hrow
    refine h.gone key ?_ (Bool.eq_false_iff.2 fun htrue => Bool.eq_false_iff.1 hno (hrefs key htrue))
    simp [System.bodyState, hold, hsame, hstate]
  marks key row t hrow hmark := by
    obtain ⟨old, hold, hsame, -⟩ := hrows key row hrow
    unfold FreedBy
    rw [hseen, hfreed]
    exact h.marks key old t hold (hsame.trans hmark)
  passes p hp hopen := by
    rw [hpasses] at hp
    refine (h.passes p hp hopen).congr hclock (fun key _ => congrFun hfreed key) ?_
    intro key _ row hrow hready
    obtain ⟨old, hold, hmark, hstate⟩ := hrows key row hrow
    exact ⟨old, hold, hstate.trans hready, hmark⟩
  apart := hpasses ▸ h.apart
  retirements := hretirements ▸ h.retirements

theorem Timed.tables (h : Timed cfg s) (hclock : s'.clock = s.clock) (hfreed : s'.freed = s.freed)
    (hseen : s'.seen = s.seen) (hpasses : s'.passes = s.passes)
    (hretirements : s'.retirements = s.retirements) (haccounts : s'.accounts = s.accounts)
    (hbodies : s'.bodies = s.bodies) : Timed cfg s' := by
  refine h.congr (Nat.le_of_eq hclock.symm) hfreed hseen hpasses hretirements (fun key href => ?_)
    fun key row hrow => ⟨row, hbodies ▸ hrow, rfl, rfl⟩
  simp only [System.referenced, haccounts]
  exact href

/-! ## Transactions on accounts -/

theorem freed_commit (ha : a ∈ s.accounts) (hno : s.referenced key = false) :
    (s.commit a a').freed key = s.freed key := by
  have hnot : key ∉ a.refs := fun hin =>
    Bool.eq_false_iff.1 hno (referenced_iff.2 ⟨a, ha, hin⟩)
  simp [System.commit, hnot]

/-- A body that was referred to and is not any more has been freed. -/
theorem freed_of_commit (hw : Wired s) (ha : a ∈ s.accounts) (hid : a'.id = a.id)
    (hbefore : s.referenced key = true) (hafter : (s.commit a a').referenced key = false) :
    (s.commit a a').freed key = some s.clock := by
  obtain ⟨b, hb, hkey⟩ := referenced_iff.1 hbefore
  have hnot : ∀ c ∈ (s.commit a a').accounts, key ∉ c.refs := fun c hc hin =>
    Bool.eq_false_iff.1 hafter (referenced_iff.2 ⟨c, hc, hin⟩)
  have hkept := hnot _ (List.mem_map_of_mem hb)
  by_cases hown : b.id = a'.id
  · -- the account that referred to it is the one that has changed
    obtain rfl : b = a := List.inj_on_of_nodup_map hw.accounts hb ha (hown.trans hid)
    rw [if_pos hown] at hkept
    simp [System.commit, hkey, hkept]
  · rw [if_neg hown] at hkept
    exact absurd hkey hkept

theorem Timed.commit (h : Timed cfg s) (hw : Wired s) (ha : a ∈ s.accounts) (hid : a'.id = a.id) :
    Timed cfg (s.commit a a') where
  freed key t ht := by
    simp only [System.commit] at ht
    split at ht
    · cases ht
      exact Nat.le_refl _
    · exact h.freed key t ht
  gone key hready hno := by
    by_cases hbefore : s.referenced key = true
    · rw [freed_of_commit hw ha hid hbefore hno]
      exact Option.some_ne_none _
    · have hbefore : s.referenced key = false := Bool.eq_false_iff.2 hbefore
      rw [freed_commit ha hbefore]
      exact h.gone key hready hbefore
  marks key row t hrow hmark := by
    have hno := (hw.orphans key row hrow (hmark ▸ Option.some_ne_none t)).1
    unfold FreedBy
    rw [freed_commit ha hno]
    exact h.marks key row t hrow hmark
  passes p hp hopen :=
    (h.passes p hp hopen).congr (Nat.le_refl _)
      (fun key hkey => freed_commit ha ((hw.passes p hp).marked hopen key hkey).1)
      fun key _ row hrow hready => ⟨row, hrow, hready, rfl⟩
  apart := h.apart
  retirements := h.retirements

/-! ## Appends -/

theorem Timed.setBody (h : Timed cfg s) {row : Option BodyRow}
    (hrow : row = none ∨ ∃ r, row = some r ∧ r.state = .staging ∧ r.orphanedAt = none) :
    Timed cfg (s.setBody key row) := by
  -- the rows that matter are ready or marked, and were there before
  have hold : ∀ k r, (s.setBody key row).bodies k = some r → r.state = .ready ∨ r.orphanedAt ≠ none →
      s.bodies k = some r := by
    intro k r hr hmatters
    by_cases hk : k = key
    · subst hk
      simp only [System.setBody, Function.update_self] at hr
      rcases hrow with hnone | ⟨r', hr', hstaging, hclean⟩
      · rw [hnone] at hr
        cases hr
      rw [hr'] at hr
      cases hr
      rcases hmatters with hready | hmark
      · rw [hstaging] at hready
        cases hready
      · exact absurd hclean hmark
    · simp only [System.setBody, Function.update_of_ne hk] at hr
      exact hr
  refine ⟨h.freed, fun k hready hno => ?_, fun k r t hr hmark => ?_, fun p hp hopen => ?_, h.apart,
    h.retirements⟩
  · obtain ⟨r, hr, hstate⟩ := Option.map_eq_some_iff.1 hready
    refine h.gone k ?_ hno
    simp [System.bodyState, hold k r hr (.inl hstate), hstate]
  · exact h.marks k r t (hold k r hr (.inr (hmark ▸ Option.some_ne_none t))) hmark
  · refine (h.passes p hp hopen).congr (Nat.le_refl _) (fun _ _ => rfl) fun k _ r hr hready => ?_
    exact ⟨r, hold k r hr (.inl hready), hready, rfl⟩

variable {row : BodyRow} {q : Pass} {begun : Time}

theorem Timed.setReady (h : Timed cfg s) (hrow : s.bodies key = some row)
    (hclean : row.orphanedAt = none) (href : s.referenced key = true)
    (hlock : s.locked key = false) : Timed cfg (s.setReady key) := by
  have hself : (s.setReady key).bodies key = some { row with state := .ready } := by
    simp [System.setReady, System.setBody, hrow]
  have hother : ∀ k, k ≠ key → (s.setReady key).bodies k = s.bodies k := fun k hk =>
    Function.update_of_ne hk _ _
  refine ⟨h.freed, fun k hready hno => ?_, fun k r t hr hmark => ?_, fun p hp hopen => ?_, h.apart,
    h.retirements⟩
  · have hk : k ≠ key := by
      rintro rfl
      exact Bool.eq_false_iff.1 hno href
    rw [System.bodyState, hother k hk] at hready
    exact h.gone k hready hno
  · have hk : k ≠ key := by
      rintro rfl
      cases hself.symm.trans hr
      exact Option.some_ne_none t (hmark.symm.trans hclean)
    exact h.marks k r t ((hother k hk).symm.trans hr) hmark
  · refine (h.passes p hp hopen).congr (Nat.le_refl _) (fun _ _ => rfl) fun k hk r hr hready => ?_
    have hne : k ≠ key := fun heq => (not_locked hlock hp hopen).2 (heq ▸ hk)
    exact ⟨r, (hother k hne).symm.trans hr, hready, rfl⟩

theorem Timed.setAppend (h : Timed cfg s) (i : Nat) (p : Append) (phase : AppendPhase) :
    Timed cfg (s.setAppend i p phase) :=
  h.tables rfl rfl rfl rfl rfl rfl rfl

theorem Timed.appendStep (h : Timed cfg s) (hw : Wired s) (i : Nat) (p : Append) (outcome : Outcome)
    (begun : Time) : Timed cfg (s.appendStep i p outcome begun) := by
  refine appendStep_rule h fun s' phase hmove => setAppend ?_ i p phase
  cases hmove with
  | givenUp | unstaged | summarized | failed | left | unreleased => exact h
  | refused | overfull | put | deleted => exact h.tables rfl rfl rfl rfl rfl rfl rfl
  | reserved _ hacc | leaked _ hacc | released _ hacc =>
    exact h.commit hw (mem_of_account hacc).1 rfl
  | staged _ hstate hclean => exact h.setBody (.inr ⟨_, rfl, hstate, hclean⟩)
  | unlisted => exact h.setBody (.inl rfl)
  | @published a a' _ _ hacc hlock hpub hstaging =>
    -- a staging row has not been marked, and no pass has it locked
    obtain ⟨ha, -⟩ := mem_of_account hacc
    obtain ⟨row, hrow, hstate⟩ := Option.map_eq_some_iff.1 hstaging
    have hclean : row.orphanedAt = none := by
      by_contra hmark
      exact (hw.orphans _ row hrow hmark).2 hstate
    have hnew : (s.commit a a').referenced p.upload.key = true := by
      refine referenced_iff.2 ⟨a', ?_, hpub.mem_refs⟩
      exact List.mem_map.2 ⟨a, ha, if_pos hpub.id.symm⟩
    exact (h.commit hw ha hpub.id).setReady hrow hclean hnew hlock

/-! ## Passes -/

theorem locks_of_closed (hclosed : p.isOpen = false) : p.locks key = false := by
  simp [Pass.locks, hclosed]

theorem locks_of_locked (h : s.locked key = false) (hp : p ∈ s.passes) : p.locks key = false :=
  Bool.eq_false_iff.2 (List.any_eq_false.1 h p hp)

/-- A pass goes on, and locks no row that another pass has locked. -/
theorem Timed.setPass (h : Timed cfg s) (hp : s.passes[i]? = some p)
    (hok : q.isOpen = true → PassTimed cfg s q)
    (hlocks : ∀ key, q.locks key = true → p.locks key = true ∨ s.locked key = false) :
    Timed cfg (s.setPass i q) where
  freed := h.freed
  gone := h.gone
  marks := h.marks
  passes r hr hopen := by
    have hsame : ∀ {r : Pass}, PassTimed cfg s r → PassTimed cfg (s.setPass i q) r := fun hr =>
      hr.congr (Nat.le_refl _) (fun _ _ => rfl) fun _ _ row hrow hready => ⟨row, hrow, hready, rfl⟩
    rcases List.mem_or_eq_of_mem_set hr with hold | rfl
    · exact hsame (h.passes r hold hopen)
    · exact hsame (hok hopen)
  apart := h.apart.set hp fun key hlock => (hlocks key hlock).imp id fun hfree q hq =>
    locks_of_locked hfree hq
  retirements := h.retirements

/-- The transaction of the pass is over, or was closed already. -/
theorem Timed.close (h : Timed cfg s) (hp : s.passes[i]? = some p) (hq : q.isOpen = false) :
    Timed cfg (s.setPass i q) := by
  refine h.setPass hp (fun hopen => ?_) fun key hlock => ?_
  · rw [hq] at hopen
    cases hopen
  · rw [locks_of_closed hq] at hlock
    cases hlock

theorem locks_iff (hopen : p.isOpen = true) :
    p.locks key = true ↔ (key ∈ p.marked ∨ key ∈ p.unmarked) ∨ key ∈ p.selected := by
  simp [Pass.locks, hopen]

/-- What a pass retires has been seen free and marked, and the grace is over. -/
theorem Timed.retirementsOf (h : Timed cfg s) (hw : Wired s) (hp : p ∈ s.passes)
    (hopen : p.isOpen = true) : ∀ r ∈ s.retirementsOf p, AfterGrace cfg r := by
  intro r hr
  have htimed := h.passes p hp hopen
  obtain ⟨key, hkey, hsome⟩ := List.mem_filterMap.1 hr
  split at hsome
  · rename_i expires t hrow
    cases hsome
    obtain ⟨seen, hseen, hmarking, freed, hfreed, hle⟩ := h.marks key _ t hrow rfl
    have hselected := (hw.passes p hp).retired hopen hkey
    obtain ⟨t', ht', hgrace⟩ := htimed.selected key hselected _ hrow rfl
    cases ht'
    exact ⟨freed, seen, hfreed, hseen, hle, hmarking, hgrace, htimed.begun⟩
  · cases hsome

theorem Timed.commitPass (h : Timed cfg s) (hw : Wired s) (hp : s.passes[i]? = some p)
    (hopen : p.isOpen = true) (hq : q.isOpen = false) :
    Timed cfg ((s.commitPass p).setPass i q) := by
  have hmem := List.mem_of_getElem? hp
  have htimed := h.passes p hmem hopen
  have hretired := (hw.passes p hmem).retired hopen
  have hi : i < s.passes.length := (List.getElem?_eq_some_iff.1 hp).1
  refine ⟨h.freed, fun key hready hno => ?_, fun key row t hrow hmark => ?_, fun r hr hropen => ?_,
    (h.close hp hq).apart, fun r hr => ?_⟩
  · have hready : (s.commitPass p).bodyState key = some .ready := hready
    by_cases hkey : key ∈ p.retired
    · exact absurd hready (bodyState_commitPass_ne hkey (by decide))
    · rw [bodyState_commitPass_of_notMem hkey] at hready
      exact h.gone key hready hno
  · obtain ⟨old, hold, rfl⟩ := Option.map_eq_some_iff.1 hrow
    -- what is retired keeps the mark that it had, and is not marked by this pass
    have hkept : key ∉ p.marked → old.orphanedAt = some t →
        ∃ seen, ((s.commitPass p).setPass i q).seen key = some seen ∧ t ≤ seen ∧
          FreedBy ((s.commitPass p).setPass i q) key seen := by
      intro hnot hmark
      obtain ⟨seen, hseen, hle, hfree⟩ := h.marks key old t hold hmark
      exact ⟨seen, (if_neg hnot).trans hseen, hle, hfree⟩
    unfold Pass.write at hmark
    split at hmark
    · rename_i hret
      exact hkept (htimed.apart key (hretired hret)) hmark
    split at hmark
    · rename_i hin
      cases hmark
      exact ⟨p.markedAt, if_pos hin, htimed.markedAt, htimed.marked key hin⟩
    rename_i hnot
    split at hmark
    · cases hmark
    · exact hkept hnot hmark
  · obtain ⟨j, hj⟩ := List.mem_iff_getElem?.1 hr
    have hji : i ≠ j := by
      rintro rfl
      simp only [System.setPass, System.commitPass, List.getElem?_set_self hi] at hj
      cases hj
      rw [hq] at hropen
      cases hropen
    have hj : s.passes[j]? = some r := by
      simpa only [System.setPass, System.commitPass, List.getElem?_set_ne hji] using hj
    -- the rows that another pass has selected are not touched
    refine (h.passes r (List.mem_of_getElem? hj) hropen).congr (Nat.le_refl _) (fun _ _ => rfl) ?_
    intro key hkey row hrow hready
    have hlocked : r.locks key = true := (locks_iff hropen).2 (.inr hkey)
    have hfree := Bool.eq_false_iff.1 (h.apart j i r p hj hp (Ne.symm hji) key hlocked)
    rw [Ne, locks_iff hopen, not_or, not_or] at hfree
    obtain ⟨old, hold, rfl⟩ := Option.map_eq_some_iff.1 hrow
    have hnot : key ∉ p.retired := fun hret => hfree.2 (hretired hret)
    have hsame : p.write key old = old := by
      simp [Pass.write, hnot, hfree.1.1, hfree.1.2]
    rw [hsame] at hready ⊢
    exact ⟨old, hold, hready, rfl⟩
  · rcases List.mem_append.1 hr with hold | hnew
    · exact h.retirements r hold
    · exact h.retirementsOf hw hmem hopen r hnew

theorem markable_free (h : s.markable key = true) : s.locked key = false := by
  unfold System.markable at h
  split at h
  · cases h
  · simp only [Bool.and_eq_true, Bool.not_eq_true'] at h
    exact h.2

theorem unmarkable_free (h : s.unmarkable key = true) : s.locked key = false := by
  unfold System.unmarkable at h
  split at h
  · cases h
  · simp only [Bool.and_eq_true, Bool.not_eq_true'] at h
    exact h.2

theorem candidate_free (h : s.candidate cfg begun key = true) : s.locked key = false := by
  unfold System.candidate at h
  split at h
  · cases h
  · simp only [Bool.and_eq_true, Bool.not_eq_true'] at h
    exact h.1

theorem candidate_grace (h : s.candidate cfg begun key = true) (hrow : s.bodies key = some row)
    (hready : row.state = .ready) : ∃ t, row.orphanedAt = some t ∧ t + cfg.grace < begun := by
  simp only [System.candidate, hrow, hready, Bool.and_eq_true] at h
  obtain ⟨-, hgrace, -⟩ := h
  split at hgrace
  · cases hgrace
  · rename_i t ht
    exact ⟨t, ht, of_decide_eq_true hgrace⟩

/-- A body that the marking statement takes is ready and nobody's, so its last reference has gone. -/
theorem Timed.freedBy (h : Timed cfg s) (hmark : s.markable key = true) : FreedBy s key s.clock := by
  obtain ⟨hno, hready⟩ := markable_spec hmark
  obtain ⟨t, ht⟩ := Option.ne_none_iff_exists'.1 (h.gone key hready hno)
  exact ⟨t, ht, h.freed key t ht⟩

theorem Timed.passStep (h : Timed cfg s) (hw : Wired s) (hp : s.passes[i]? = some p)
    (choice : List Key) (outcome : Outcome) : Timed cfg (s.passStep cfg i p choice outcome) := by
  have hmem := List.mem_of_getElem? hp
  have htimed : ∀ phase, p.phase = phase → ({ p with phase := phase } : Pass).isOpen = true →
      p.isOpen = true ∧ PassTimed cfg s p := by
    rintro _ rfl hopen
    exact ⟨hopen, h.passes p hmem hopen⟩
  have hearly : ∀ phase, p.phase = phase → ({ p with phase := phase } : Pass).early = true →
      PassTimed cfg s p → p.selected = [] := by
    rintro _ rfl hearly htimed
    exact htimed.early hearly
  refine passStep_rule choice h fun s' q hmove => ?_
  cases hmove with
  | ended | listed | unlisted => exact h.close hp rfl
  | marked hphase choice =>
    obtain ⟨hopen, htimed⟩ := htimed _ hphase rfl
    have hearly := hearly _ hphase rfl htimed
    refine h.setPass hp (fun _ => ⟨htimed.begun, htimed.begun, fun key hkey => ?_, htimed.selected,
      fun key hkey => ?_, fun _ => hearly⟩) fun key hlock => ?_
    · exact h.freedBy (List.mem_filter.1 hkey).2
    · rw [hearly] at hkey
      cases hkey
    · rcases (locks_iff rfl).1 hlock with (hmark | hunmark) | hsel
      · exact .inr (markable_free (List.mem_filter.1 hmark).2)
      · exact .inl ((locks_iff hopen).2 (.inl (.inr hunmark)))
      · exact .inl ((locks_iff hopen).2 (.inr hsel))
  | unmarked hphase choice =>
    obtain ⟨hopen, htimed⟩ := htimed _ hphase rfl
    refine h.setPass hp (fun _ => ⟨htimed.begun, htimed.markedAt, htimed.marked, htimed.selected,
      htimed.apart, fun _ => hearly _ hphase rfl htimed⟩) fun key hlock => ?_
    rcases (locks_iff rfl).1 hlock with (hmark | hunmark) | hsel
    · exact .inl ((locks_iff hopen).2 (.inl (.inl hmark)))
    · exact .inr (unmarkable_free (List.mem_filter.1 hunmark).2)
    · exact .inl ((locks_iff hopen).2 (.inr hsel))
  | selected hphase choice =>
    obtain ⟨hopen, htimed⟩ := htimed _ hphase rfl
    refine h.setPass hp (fun _ => ⟨htimed.begun, htimed.markedAt, htimed.marked,
      fun key hkey row hrow hready => ?_, fun key hkey => ?_, nofun⟩) fun key hlock => ?_
    · exact candidate_grace (List.mem_filter.1 hkey).2 hrow hready
    · have hfree := candidate_free (List.mem_filter.1 hkey).2
      exact (not_locked hfree hmem hopen).1
    · rcases (locks_iff rfl).1 hlock with hmark | hsel
      · exact .inl ((locks_iff hopen).2 (.inl hmark))
      · exact .inr (candidate_free (List.mem_filter.1 hsel).2)
  | rechecked hphase =>
    obtain ⟨hopen, htimed⟩ := htimed _ hphase rfl
    refine h.setPass hp (fun _ => ⟨htimed.begun, htimed.markedAt, htimed.marked, htimed.selected,
      htimed.apart, nofun⟩) fun k hlock => ?_
    have hheld := (locks_iff rfl).1 hlock
    exact .inl ((locks_iff hopen).2 hheld)
  | committed hphase hnext =>
    refine h.commitPass hw hp (htimed _ hphase rfl).1 ?_
    rcases hnext with rfl | rfl
    · rfl
    · rfl
  | @collected key _ _ _ hnext =>
    have hdeleted : Timed cfg (s.collect key) := h.tables rfl rfl rfl rfl rfl rfl rfl
    refine hdeleted.close hp ?_
    rcases hnext with rfl | rfl
    · rfl
    · rfl
  | @postponed key _ _ _ hnext =>
    have hpostponed : Timed cfg (s.postpone key) :=
      h.congr (Nat.le_refl _) rfl rfl rfl rfl (fun _ href => href) fun _ _ => row_of_postpone
    refine hpostponed.close hp ?_
    rcases hnext with rfl | rfl
    · rfl
    · rfl

theorem Timed.beginPass (h : Timed cfg s) :
    Timed cfg (step cfg s .beginPass) where
  freed := h.freed
  gone := h.gone
  marks := h.marks
  passes p hp hopen := by
    have hsame : ∀ {r : Pass}, PassTimed cfg s r → PassTimed cfg (step cfg s .beginPass) r := fun hr =>
      hr.congr (Nat.le_refl _) (fun _ _ => rfl) fun _ _ row hrow hready => ⟨row, hrow, hready, rfl⟩
    rcases List.mem_append.1 hp with hold | hlast
    · exact hsame (h.passes p hold hopen)
    · rw [List.mem_singleton.1 hlast]
      exact ⟨Nat.le_refl _, Nat.le_refl _, nofun, nofun, nofun, fun _ => rfl⟩
  -- the new pass has locked nothing
  apart := h.apart.concat fun _ => rfl
  retirements := h.retirements

theorem Timed.step (h : Timed cfg s) (hw : Wired s) (input : Input) : Timed cfg (step cfg s input) := by
  cases input with
  | wait elapsed =>
    exact h.congr (Nat.le_add_right _ _) rfl rfl rfl rfl (fun _ href => href)
      fun _ row hrow => ⟨row, hrow, rfl, rfl⟩
  | ensureAccount id address quota =>
    refine ensureAccount_rule (fun _ => hw.fresh_folder) h (fun a _ _ => ?_) fun a b hacc hstep => ?_
    · refine h.congr (Nat.le_refl _) rfl rfl rfl rfl (fun key href => ?_)
        fun _ row hrow => ⟨row, hrow, rfl, rfl⟩
      obtain ⟨b, hb, hkey⟩ := referenced_iff.1 href
      exact referenced_iff.2 ⟨b, List.mem_append_left _ hb, hkey⟩
    · exact (h.commit hw (mem_of_account hacc).1 hstep.id).tables rfl rfl rfl rfl rfl rfl rfl
  | setPolicy | beginRemoval => exact h.tables rfl rfl rfl rfl rfl rfl rfl
  | beginAppend account folder size checksum flags date token =>
    exact h.tables rfl rfl rfl rfl rfl rfl rfl
  | append i outcome begun => exact append_rule h fun _ _ => h.appendStep hw i _ outcome begun
  | crash i => exact crash_rule h fun _ _ => h.setAppend i _ _
  | transact account tx outcome =>
    refine transact_rule (fun _ => hw.fresh_folder) tx h
      (h.tables rfl rfl rfl rfl rfl rfl rfl) fun _ _ hacc hstep => ?_
    exact (h.commit hw (mem_of_account hacc).1 hstep.id).tables rfl rfl rfl rfl rfl rfl rfl
  | remove i outcome =>
    refine remove_rule outcome h (fun _ => h.tables rfl rfl rfl rfl rfl rfl rfl)
      fun r a a' removed _ _ hacc hrun => ?_
    exact (h.commit hw (mem_of_account hacc).1 (Removal.run_step hrun).id).tables
      rfl rfl rfl rfl rfl rfl rfl
  | beginPass => exact h.beginPass
  | pass i choice outcome => exact pass_rule h fun p hp => h.passStep hw hp choice outcome

end Timing

theorem timed_init (cfg : GcConfig) : Timed cfg System.init where
  freed := nofun
  gone := nofun
  marks := nofun
  passes := nofun
  apart := apart_nil
  retirements := nofun

theorem timed_run (cfg : GcConfig) (inputs : List Input) :
    Timed cfg (Machine.run (step cfg) System.init inputs) := by
  have hinv : Wired (Machine.run (step cfg) System.init inputs) ∧
      Timed cfg (Machine.run (step cfg) System.init inputs) :=
    Machine.run_invariant (fun s => Wired s ∧ Timed cfg s)
      (fun _ input hinv => ⟨hinv.1.step input, hinv.2.step hinv.1 input⟩)
      ⟨wired_init, timed_init cfg⟩ inputs
  exact hinv.2

/-- A body that a message or a held copy refers to is ready and in the store, and no collector has
deleted it. A published body is retired more than the grace period after the beginning of the pass
that marked it, and nobody has referred to it since that pass saw so. -/
theorem referenced_bodies_stay (cfg : GcConfig) (inputs : List Input)
    (h : Machine.Along (step cfg) (fun s input => reported s input = true) System.init inputs) :
    (∀ a ∈ (Machine.run (step cfg) System.init inputs).accounts, ∀ key ∈ a.refs,
      (Machine.run (step cfg) System.init inputs).bodyState key = some .ready ∧
      (Machine.run (step cfg) System.init inputs).stored key = true ∧
      key ∉ (Machine.run (step cfg) System.init inputs).collected) ∧
    ∀ r ∈ (Machine.run (step cfg) System.init inputs).retirements, AfterGrace cfg r := by
  obtain ⟨hw, hkept⟩ := kept_run h
  refine ⟨fun a ha key hkey => ?_, (timed_run cfg inputs).retirements⟩
  have href := referenced_iff.2 ⟨a, ha, hkey⟩
  exact ⟨hw.ready key href, hkept.bodies key href, hw.not_collected href⟩

section Runs

def wholePass (i : Nat) (keys : List Key) : List Input :=
  [.beginPass, .pass i keys .done, .pass i [] .done, .pass i keys .done] ++
    List.replicate (keys.length + 1) (.pass i keys .done) ++ [.pass i keys .done, .pass i [] .done]

/-- Two messages, of which one is removed, marked by one pass and retired by the next. -/
def oneCollected : List Input :=
  [account, upload 30] ++ published 0 ++ [upload 20] ++ published 1 ++
    [.beginRemoval (lit "a") (.expunge (lit "INBOX") [1] false), .remove 0 .done, .wait second] ++
    wholePass 0 [0] ++ [.wait (8 * dayTime)] ++ wholePass 1 [0]

theorem referenced_bodies_stay_oneCollected :
    ((Machine.run (step weekOfGrace) System.init oneCollected).retirements.map Retirement.key) = [0] ∧
    ((∀ a ∈ (Machine.run (step weekOfGrace) System.init oneCollected).accounts, ∀ key ∈ a.refs,
      (Machine.run (step weekOfGrace) System.init oneCollected).bodyState key = some .ready ∧
      (Machine.run (step weekOfGrace) System.init oneCollected).stored key = true ∧
      key ∉ (Machine.run (step weekOfGrace) System.init oneCollected).collected) ∧
    ∀ r ∈ (Machine.run (step weekOfGrace) System.init oneCollected).retirements,
      AfterGrace weekOfGrace r) :=
  ⟨by decide +kernel, referenced_bodies_stay weekOfGrace oneCollected (by decide +kernel)⟩

/-- The last reference goes five seconds after a pass has begun and before it marks; the next pass
retires the body a week after the beginning of the first one. -/
def freedInPass : List Input :=
  [account, upload 80] ++ published 0 ++
    [.beginPass, .wait (5 * second),
     .beginRemoval (lit "a") (.expunge (lit "INBOX") [1] false), .remove 0 .done,
     .pass 0 [0] .done, .pass 0 [] .done, .pass 0 [] .done, .pass 0 [] .done,
     .wait (7 * dayTime - 4 * second), .beginPass, .pass 1 [] .done, .pass 1 [] .done,
     .pass 1 [0] .done, .pass 1 [] .done, .pass 1 [] .done]

theorem retired_before_grace :
    ∃ r ∈ (Machine.run (step weekOfGrace) System.init freedInPass).retirements,
      ∃ freed, r.freed = some freed ∧ r.done < freed + weekOfGrace.grace := by
  refine ⟨{ key := 0, freed := some (5 * second), marking := 0, seen := some (5 * second),
            begun := 7 * dayTime + second, done := 7 * dayTime + second }, ?_, 5 * second, rfl, ?_⟩
  · decide +kernel
  · decide

end Runs

end Elemta.Mailbox
