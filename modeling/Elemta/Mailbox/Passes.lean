import Elemta.Mailbox.References

/-!
# Passes of the collector

Each statement of a pass, and each deletion behind its transaction, leaves every body that
somebody refers to ready. With the appends and the other transactions this gives the
invariant of every run.
-/

namespace Elemta.Mailbox

open Bytes Slots

section Passes

variable {s : System} {i : Nat} {key : Key}

variable {p : Pass} {cfg : GcConfig}

theorem Wired.setPass (h : Wired s) (hok : PassOk s p) : Wired (s.setPass i p) :=
  { h with
    passes := forall_set (fun q hq => (h.passes q hq).mono rfl fun _ href => href)
      (hok.mono rfl fun _ href => href) }

theorem Pass.early_of_closed (hopen : p.isOpen = false) : p.early = false := by
  unfold Pass.isOpen at hopen
  unfold Pass.early
  cases hphase : p.phase with
  | mark | unmark | select =>
    rw [hphase] at hopen
    cases hopen
  | _ => rfl

theorem passOk_deleting (hopen : p.isOpen = false)
    (hdeleting : ∀ key ∈ p.deleting, s.bodyState key = some .retiring) : PassOk s p where
  marked ho := absurd (hopen.symm.trans ho) Bool.false_ne_true
  selected ho := absurd (hopen.symm.trans ho) Bool.false_ne_true
  retired ho := absurd (hopen.symm.trans ho) Bool.false_ne_true
  early he := absurd ((Pass.early_of_closed hopen).symm.trans he) Bool.false_ne_true
  todo keys hphase := by
    unfold Pass.isOpen at hopen
    rw [hphase] at hopen
    cases hopen
  deleting := hdeleting

theorem passOk_closed (hopen : p.isOpen = false) (hdeleting : p.deleting = []) : PassOk s p := by
  refine passOk_deleting hopen fun key hkey => ?_
  rw [hdeleting] at hkey
  cases hkey

theorem write_state (row : BodyRow) :
    (p.write key row).state = if key ∈ p.retired then .retiring else row.state := by
  fun_cases Pass.write p key row <;> simp [*]

theorem bodyState_commitPass :
    (s.commitPass p).bodyState key =
      (s.bodyState key).map fun state => if key ∈ p.retired then .retiring else state := by
  simp only [System.bodyState, System.commitPass, Option.map_map]
  congr 1
  funext row
  exact write_state row

theorem bodyState_commitPass_of_notMem (h : key ∉ p.retired) :
    (s.commitPass p).bodyState key = s.bodyState key := by
  rw [bodyState_commitPass]
  cases s.bodyState key with
  | none => rfl
  | some state => simp [h]

/-- What is retired is in no other state. -/
theorem bodyState_commitPass_ne {state : BodyState} (h : key ∈ p.retired)
    (hne : state ≠ .retiring) : (s.commitPass p).bodyState key ≠ some state := by
  rw [bodyState_commitPass]
  cases s.bodyState key with
  | none => simp
  | some old => simpa [h] using hne.symm

theorem bodyState_commitPass_retiring (h : s.bodyState key = some .retiring) :
    (s.commitPass p).bodyState key = some .retiring := by
  rw [bodyState_commitPass, h]
  simp

theorem PassOk.commitPass {q : Pass} (h : PassOk s q) : PassOk (s.commitPass p) q := by
  refine ⟨fun ho key hkey => ?_, fun ho key hkey hready => ?_, h.retired, h.early, h.todo, fun key hkey => ?_⟩
  · obtain ⟨href, hsettled⟩ := h.marked ho key hkey
    refine ⟨href, ?_⟩
    by_cases hret : key ∈ p.retired
    · rw [bodyState_commitPass]
      rcases hsettled with hs | hs
      · simp [hs, hret]
      · simp [hs]
    · rw [bodyState_commitPass_of_notMem hret]
      exact hsettled
  · have hret : key ∉ p.retired := by
      intro hret
      exact bodyState_commitPass_ne hret (by decide) hready
    rw [bodyState_commitPass_of_notMem hret] at hready
    exact h.selected ho key hkey hready
  · exact bodyState_commitPass_retiring (h.deleting key hkey)

theorem AppendOk.commitPass {q : Append} (h : AppendOk s q) : AppendOk (s.commitPass p) q := by
  have hnone : s.bodyState q.upload.key = none → (s.commitPass p).bodyState q.upload.key = none := by
    intro hnone
    rw [bodyState_commitPass, hnone]
    rfl
  have hnot : s.bodyState q.upload.key ≠ some .ready →
      (s.commitPass p).bodyState q.upload.key ≠ some .ready := by
    intro hne
    by_cases hret : q.upload.key ∈ p.retired
    · exact bodyState_commitPass_ne hret (by decide)
    · rw [bodyState_commitPass_of_notMem hret]
      exact hne
  unfold AppendOk at h ⊢
  split at h
  · exact hnone h
  · exact hnone h
  · exact hnot h
  · exact hnot h
  · exact hnot h
  · trivial

theorem Wired.commitPass (h : Wired s) (hp : PassOk s p) (hopen : p.isOpen = true) :
    Wired (s.commitPass p) := by
  -- a body that somebody refers to is ready, so it is not among those that are retired
  have hkept : ∀ key, s.referenced key = true → key ∉ p.retired := by
    intro key href hret
    have hno := hp.selected hopen key (hp.retired hopen hret) (h.ready key href)
    rw [hno] at href
    cases href
  refine ⟨h.accounts, h.sound, h.folders, h.keys, h.drawn, fun key hk => ?_, fun key hkey => ?_,
    fun key row hrow horphan => ?_, fun q hq => (h.appends q hq).commitPass,
    fun q hq => (h.passes q hq).commitPass, fun key hkey => ?_⟩
  · rw [bodyState_commitPass, h.fresh key hk]
    rfl
  · rw [bodyState_commitPass_of_notMem (hkept key hkey)]
    exact h.ready key hkey
  · obtain ⟨old, hold, rfl⟩ := Option.map_eq_some_iff.1 hrow
    rw [write_state]
    unfold Pass.write at horphan
    split at horphan
    · rename_i hret
      exact ⟨(h.orphans key old hold horphan).1, by simp [hret]⟩
    rename_i hret
    rw [if_neg hret]
    split at horphan
    · rename_i hmark
      obtain ⟨href, hsettled⟩ := hp.marked hopen key hmark
      refine ⟨href, fun hstaging => ?_⟩
      simp only [System.bodyState, hold, Option.map_some, hstaging] at hsettled
      rcases hsettled with hs | hs
      · cases hs
      · cases hs
    · split at horphan
      · exact absurd rfl horphan
      · exact h.orphans key old hold horphan
  · exact bodyState_commitPass_retiring (h.collected key hkey)

theorem markable_spec (h : s.markable key = true) :
    s.referenced key = false ∧ s.bodyState key = some .ready := by
  unfold System.markable at h
  split at h
  · cases h
  · rename_i row hrow
    simp only [Bool.and_eq_true, beq_iff_eq, Bool.not_eq_true'] at h
    exact ⟨h.1.2, by simp [System.bodyState, hrow, h.1.1.1]⟩

theorem candidate_spec {begun : Time} (h : s.candidate cfg begun key = true)
    (hready : s.bodyState key = some .ready) : s.referenced key = false := by
  unfold System.candidate at h
  split at h
  · cases h
  rename_i row hrow
  have hstate : row.state = .ready := by simpa [System.bodyState, hrow] using hready
  simp only [hstate, Bool.and_eq_true, Bool.not_eq_true'] at h
  exact h.2.2

theorem Wired.collect (h : Wired s) (hretiring : s.bodyState key = some .retiring) :
    Wired (s.collect key) :=
  { h with
    passes := fun p hp => (h.passes p hp).mono rfl fun _ href => href
    collected := forall_concat h.collected hretiring }

theorem bodyState_postpone (key other : Key) :
    (s.postpone key).bodyState other = s.bodyState other := by
  unfold System.postpone
  by_cases hk : other = key
  · subst hk
    rw [bodyState_setBody, Option.map_map]
    rfl
  · exact bodyState_setBody_ne hk

theorem row_of_postpone {k : Key} {row : BodyRow} (hrow : (s.postpone key).bodies k = some row) :
    ∃ old, s.bodies k = some old ∧ old.orphanedAt = row.orphanedAt ∧ old.state = row.state := by
  by_cases hk : k = key
  · subst hk
    simp only [System.postpone, System.setBody, Function.update_self] at hrow
    obtain ⟨old, hold, rfl⟩ := Option.map_eq_some_iff.1 hrow
    exact ⟨old, hold, rfl, rfl⟩
  · simp only [System.postpone, System.setBody, Function.update_of_ne hk] at hrow
    exact ⟨row, hrow, rfl, rfl⟩

theorem Wired.postpone (h : Wired s) (key : Key) : Wired (s.postpone key) :=
  h.congr rfl rfl rfl rfl rfl rfl (funext (bodyState_postpone key)) fun _ _ => row_of_postpone

/-- A pass goes on from one statement to the next, with what the statement has found. -/
theorem Wired.passStep (h : Wired s) (hp : p ∈ s.passes) (choice : List Key) (outcome : Outcome) :
    Wired (s.passStep cfg i p choice outcome) := by
  have hok := h.passes p hp
  have hopen : ∀ phase, p.phase = phase → ({ p with phase := phase } : Pass).isOpen = true →
      p.isOpen = true := by
    rintro _ rfl hopen
    exact hopen
  have hearly : ∀ phase, p.phase = phase → ({ p with phase := phase } : Pass).early = true →
      p.retired = [] := by
    rintro _ rfl hearly
    exact hok.early hearly
  -- what a pass has still to delete is retiring, so nobody refers to it
  have hdel : ∀ {key rest}, p.phase = .delete (key :: rest) ∨ p.phase = .postpone key rest →
      ∀ k ∈ key :: rest, s.bodyState k = some .retiring := by
    rintro key rest (hphase | hphase)
    · simpa only [Pass.deleting, hphase] using hok.deleting
    · simpa only [Pass.deleting, hphase] using hok.deleting
  refine passStep_rule choice h fun s' q hmove => ?_
  cases hmove with
  | ended => exact h.setPass (passOk_closed rfl rfl)
  | marked hphase choice =>
    have hopen := hopen _ hphase rfl
    refine h.setPass ⟨fun _ key hkey => ?_, fun _ => hok.selected hopen, fun _ => hok.retired hopen,
      fun _ => hearly _ hphase rfl, nofun, nofun⟩
    obtain ⟨href, hready⟩ := markable_spec (List.mem_filter.1 hkey).2
    exact ⟨href, .inl hready⟩
  | unmarked hphase choice =>
    have hopen := hopen _ hphase rfl
    exact h.setPass ⟨fun _ => hok.marked hopen, fun _ => hok.selected hopen,
      fun _ => hok.retired hopen, fun _ => hearly _ hphase rfl, nofun, nofun⟩
  | selected hphase choice =>
    refine h.setPass ⟨fun _ => hok.marked (hopen _ hphase rfl), fun _ key hkey hready => ?_,
      fun _ => ?_, nofun, fun keys hkeys => ?_, nofun⟩
    · exact candidate_spec (List.mem_filter.1 hkey).2 hready
    · rw [hearly _ hphase rfl]
      exact List.nil_subset _
    · cases hkeys
      exact List.Subset.refl _
  | rechecked hphase hretired =>
    have hopen := hopen _ hphase rfl
    obtain ⟨hkey, hrest⟩ := List.cons_subset.1 (hok.todo _ hphase)
    refine h.setPass ⟨fun _ => hok.marked hopen, fun _ => hok.selected hopen, fun _ k hk => ?_,
      nofun, fun keys hkeys => ?_, nofun⟩
    · rcases List.mem_append.1 (hretired hk) with hold | hlast
      · exact hok.retired hopen hold
      · rw [List.mem_singleton.1 hlast]
        exact hkey
    · cases hkeys
      exact hrest
  | committed hphase hnext =>
    refine (h.commitPass hok (hopen _ hphase rfl)).setPass ?_
    rcases hnext with rfl | rfl
    · exact passOk_closed rfl rfl
    · exact passOk_closed rfl rfl
  | listed _ hkeys => exact h.setPass (passOk_deleting rfl hkeys)
  | collected hphase hnext =>
    have hdel := hdel (.inl hphase)
    refine (h.collect (hdel _ List.mem_cons_self)).setPass ?_
    rcases hnext with rfl | rfl
    · exact passOk_deleting rfl hdel
    · exact passOk_closed rfl rfl
  | @postponed key rest phase hphase hnext =>
    have hdel := hdel (.inr hphase)
    refine (h.postpone key).setPass ?_
    rcases hnext with rfl | rfl
    · refine passOk_deleting rfl fun k hk => ?_
      exact (bodyState_postpone key k).trans (hdel k (List.mem_cons_of_mem _ hk))
    · exact passOk_closed rfl rfl
  | unlisted hphase =>
    refine h.setPass (passOk_deleting rfl fun k hk => ?_)
    exact hdel (.inr hphase) k (List.mem_cons_of_mem _ hk)

theorem Wired.beginPass (h : Wired s) (hok : PassOk s p) :
    Wired { s with passes := s.passes ++ [p] } :=
  { h with
    passes := forall_concat (fun q hq => (h.passes q hq).mono rfl fun _ href => href)
      (hok.mono rfl fun _ href => href) }

end Passes

/-! ## Every run -/

theorem Wired.step {cfg : GcConfig} {s : System} (h : Wired s) (input : Input) :
    Wired (step cfg s input) := by
  cases input with
  | wait | setPolicy | beginRemoval => exact h.tables rfl rfl rfl rfl rfl rfl rfl
  | ensureAccount id address quota => exact h.ensureAccount id address quota
  | beginAppend account folder size checksum flags date token => exact h.beginAppend _ rfl rfl
  | append i outcome begun => exact append_rule h fun p hp => h.appendStep hp outcome begun
  | crash i => exact crash_rule h fun p hp => h.setAppend hp trivial
  | transact account tx outcome => exact h.transact account tx outcome
  | remove i outcome => exact h.remove i outcome
  | beginPass =>
    exact h.beginPass ⟨fun _ => nofun, fun _ => nofun, fun _ => List.nil_subset _, fun _ => rfl, nofun,
      nofun⟩
  | pass i choice outcome =>
    exact pass_rule h fun p hp => h.passStep (List.mem_of_getElem? hp) choice outcome

theorem wired_init : Wired System.init where
  accounts := List.nodup_nil
  sound := nofun
  folders := nofun
  keys := List.nodup_nil
  drawn := nofun
  fresh _ _ := rfl
  ready _ hkey := absurd hkey Bool.false_ne_true
  orphans := nofun
  appends := nofun
  passes := nofun
  collected := nofun

theorem wired_run (cfg : GcConfig) (inputs : List Input) :
    Wired (Machine.run (step cfg) System.init inputs) :=
  Machine.run_invariant Wired (fun _ input h => h.step input) wired_init inputs

end Elemta.Mailbox
