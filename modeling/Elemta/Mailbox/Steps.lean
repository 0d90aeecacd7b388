import Elemta.Mailbox.System

/-!
# What a step of the engine can do

For each kind of step, the states that it can lead to: a property of the state before that
holds in each of them holds after the step. The invariants of the engine are proved from
these rules.
-/

namespace Elemta.Mailbox

open Bytes

section Steps

variable {s : System} {i : Nat} {p : Append} {key : Key} {outcome : Outcome} {P : System → Prop}

/-! ## Appends -/

variable {begun : Time} {a a' : Account} {id : Bytes} {cfg : GcConfig}

theorem leased_staging (h : s.leased key begun = true) : s.bodyState key = some .staging := by
  unfold System.leased at h
  split at h
  · cases h
  · rename_i row hrow
    simp only [Bool.and_eq_true, beq_iff_eq] at h
    simp [System.bodyState, hrow, h.1]

/-- What a step of an append does besides going on to the phase. -/
inductive AppendMove (s : System) (p : Append) (outcome : Outcome) : System → AppendPhase → Prop
  | givenUp (hphase : p.phase = .reserve) : AppendMove s p outcome s .finished
  | refused {a : Account} (hphase : p.phase = .reserve) (hacc : s.account p.account = some a)
      (hover : a.overbooked p.upload.size = true) :
      AppendMove s p outcome (s.refuse a p) .finished
  | reserved {a : Account} (hphase : p.phase = .reserve) (hacc : s.account p.account = some a) :
      AppendMove s p outcome (s.commit a { a with reserved := a.reserved + p.upload.size }) .stage
  /-- Nobody will give the reservation back. -/
  | leaked {a : Account} (hphase : p.phase = .reserve) (hacc : s.account p.account = some a)
      (hlost : outcome = .lost) :
      AppendMove s p outcome (s.commit a { a with reserved := a.reserved + p.upload.size }) .finished
  | staged {row : BodyRow} {phase : AppendPhase} (hphase : p.phase = .stage)
      (hstate : row.state = .staging) (hclean : row.orphanedAt = none)
      (hnext : phase = .put ∨ phase = .release) :
      AppendMove s p outcome (s.setBody p.upload.key (some row)) phase
  | unstaged (hphase : p.phase = .stage) : AppendMove s p outcome s .release
  | put {phase : AppendPhase} (hphase : p.phase = .put)
      (hnext : phase = .summarize ∨ phase = .deleteBody) :
      AppendMove s p outcome (s.setStored p.upload.key true) phase
  | summarized (hphase : p.phase = .summarize) : AppendMove s p outcome s .publish
  | failed (hphase : p.phase = .put ∨ p.phase = .summarize ∨ p.phase = .publish) :
      AppendMove s p outcome s .deleteBody
  | overfull {a : Account} (hphase : p.phase = .publish) (hacc : s.account p.account = some a)
      (hover : a.overfull p.upload.size = true) :
      AppendMove s p outcome (s.refuse a p) .deleteBody
  /-- The staging row becomes the body of a message, whether the append knows it or not. -/
  | published {a a' : Account} {phase : AppendPhase} (hphase : p.phase = .publish)
      (hacc : s.account p.account = some a) (hlock : s.locked p.upload.key = false)
      (hpub : a.Published p.upload a') (hstaging : s.bodyState p.upload.key = some .staging)
      (hnext : phase = .finished ∨ outcome = .lost ∧ phase = .deleteBody) :
      AppendMove s p outcome ((s.commit a a').setReady p.upload.key) phase
  | deleted {phase : AppendPhase} (hphase : p.phase = .deleteBody)
      (hnext : phase = .deleteRow ∨ phase = .release) :
      AppendMove s p outcome (s.setStored p.upload.key false) phase
  | left (hphase : p.phase = .deleteBody ∨ p.phase = .deleteRow) :
      AppendMove s p outcome s .release
  | unlisted (hphase : p.phase = .deleteRow) (hstaging : s.bodyState p.upload.key = some .staging) :
      AppendMove s p outcome (s.setBody p.upload.key none) .release
  | unreleased (hphase : p.phase = .release)
      (hfailed : s.account p.account = none ∨ outcome = .failed) :
      AppendMove s p outcome s .finished
  | released {a : Account} (hphase : p.phase = .release) (hacc : s.account p.account = some a) :
      AppendMove s p outcome (s.commit a { a with reserved := a.reserved - p.upload.size }) .finished

theorem reserveStep_rule (hphase : p.phase = .reserve)
    (hmove : ∀ s' phase, AppendMove s p outcome s' phase → P (s'.setAppend i p phase)) :
    P (s.reserveStep i p outcome) := by
  fun_cases System.reserveStep s i p outcome with
  | case2 outcome a hacc e he =>
    by_cases hquota : e = .quota
    · subst hquota
      exact hmove _ _ (.refused hphase hacc (Account.reserve_quota he))
    · rw [if_neg hquota]
      exact hmove _ _ (.givenUp hphase)
  | case4 a hacc a' hres =>
    obtain rfl := Account.reserve_ok hres
    exact hmove _ _ (.reserved hphase hacc)
  | case6 a hacc a' hres =>
    obtain rfl := Account.reserve_ok hres
    exact hmove _ _ (.leaked hphase hacc rfl)
  | _ => exact hmove _ _ (.givenUp hphase)

theorem publishStep_rule (h : P s) (hphase : p.phase = .publish)
    (hmove : ∀ s' phase, AppendMove s p outcome s' phase → P (s'.setAppend i p phase))
    (begun : Time) : P (s.publishStep i p outcome begun) := by
  have hfailed : P (s.setAppend i p .deleteBody) := hmove _ _ (.failed (.inr (.inr hphase)))
  fun_cases System.publishStep s i p outcome begun with
  | case1 => exact h
  | case3 outcome _ a hacc e he =>
    by_cases hquota : e = .quota
    · subst hquota
      exact hmove _ _ (.overfull hphase hacc (Account.publish_quota he))
    · rw [if_neg hquota]
      exact hfailed
  | case5 hlock a hacc a' r hpub =>
    obtain ⟨hleased, hpub⟩ := publish_published hpub
    exact hmove _ _ (.published hphase hacc (Bool.eq_false_iff.2 hlock) hpub
      (leased_staging hleased) (.inl rfl))
  | case7 hlock a hacc a' r hpub =>
    obtain ⟨hleased, hpub⟩ := publish_published hpub
    exact hmove _ _ (.published hphase hacc (Bool.eq_false_iff.2 hlock) hpub
      (leased_staging hleased) (.inr ⟨rfl, rfl⟩))
  | _ => exact hfailed

theorem appendStep_rule (h : P s)
    (hmove : ∀ s' phase, AppendMove s p outcome s' phase → P (s'.setAppend i p phase)) :
    P (s.appendStep i p outcome begun) := by
  unfold System.appendStep
  split
  · exact reserveStep_rule ‹_› hmove
  · cases outcome with
    | done => exact hmove _ _ (.staged ‹_› rfl rfl (.inl rfl))
    | failed => exact hmove _ _ (.unstaged ‹_›)
    | lost => exact hmove _ _ (.staged ‹_› rfl rfl (.inr rfl))
  · cases outcome with
    | done => exact hmove _ _ (.put ‹_› (.inl rfl))
    | failed => exact hmove _ _ (.failed (.inl ‹_›))
    | lost => exact hmove _ _ (.put ‹_› (.inr rfl))
  · split
    · exact hmove _ _ (.summarized ‹_›)
    · exact hmove _ _ (.failed (.inr (.inl ‹_›)))
  · exact publishStep_rule h ‹_› hmove _
  · cases outcome with
    | done => exact hmove _ _ (.deleted ‹_› (.inl rfl))
    | failed => exact hmove _ _ (.left (.inl ‹_›))
    | lost => exact hmove _ _ (.deleted ‹_› (.inr rfl))
  · rename_i hphase
    split
    · exact h
    split
    · rename_i hstaging
      exact hmove _ _ (.unlisted hphase hstaging.2)
    · exact hmove _ _ (.left (.inr hphase))
  · rename_i hphase
    unfold System.releaseStep
    split
    · exact hmove _ _ (.unreleased hphase (.inl ‹_›))
    split
    · exact hmove _ _ (.released hphase ‹_›)
    · rename_i hfailed
      exact hmove _ _ (.unreleased hphase (.inr (by simpa [Outcome.effective] using hfailed)))
  · exact h

/-! ## Other transactions -/

theorem Tx.run_step (hfresh : s.nextFolder ∉ a.folders.map Folder.id) {tx : Tx}
    (hrun : tx.run s a = .ok a') : Account.Step [s.nextFolder] a a' := by
  -- all but `Create` make no folder
  have hweaken : Account.Step [] a a' → Account.Step [s.nextFolder] a a' := fun hstep =>
    { hstep with
      ids := fun f hf => List.mem_append_left _ (by simpa using hstep.ids f hf) }
  cases tx with
  | mutateFlags name uids flags op since =>
    obtain ⟨⟨_, modified⟩, hok, rfl⟩ := ok_of_map hrun
    exact hweaken (mutateFlagsIf_step hok)
  | copyMove src dst uids move =>
    obtain ⟨⟨_, r⟩, hok, rfl⟩ := ok_of_map hrun
    exact hweaken (copyMove_step hok)
  | create name => exact create_step hfresh hrun
  | rename old new => exact hweaken (rename_step hrun)

theorem transact_rule (hfresh : ∀ a ∈ s.accounts, s.nextFolder ∉ a.folders.map Folder.id)
    (tx : Tx) (h : P s) (hdrawn : P s.drawIds)
    (hcommit : ∀ a a', s.account id = some a → Account.Step [s.nextFolder] a a' →
      P (s.drawIds.commit a a')) : P (s.transact id tx outcome) := by
  fun_cases System.transact s id tx outcome with
  | case1 | case2 => exact h
  | case3 | case5 => exact hdrawn
  | case4 a hacc _ a' hrun =>
    exact hcommit a a' hacc (Tx.run_step (hfresh a (List.mem_of_find?_eq_some hacc)) hrun)

def Account.redirected (a : Account) (address : Bytes) (quota : Int) : Account :=
  { a with address := toLower address, quota := quota }

theorem ensureAccount_rule (hfresh : ∀ a ∈ s.accounts, s.nextFolder ∉ a.folders.map Folder.id)
    {address : Bytes} {quota : Int} (h : P s) (hnew : ∀ a, s.account id = none →
      Account.Step [s.nextFolder] (emptyAccount id (toLower address) quota) a →
      P { s.drawIds with accounts := s.accounts ++ [a] }) (hold : ∀ a b, s.account id = some a →
      Account.Step [s.nextFolder] (a.redirected address quota) b →
      P (({ s.drawIds with
            lowered := Function.update s.lowered id
              (s.lowered id || lowers a.quota quota) } : System).commit a b)) :
    P (s.ensureAccount id address quota) := by
  have hnext : s.drawIds.nextFolder - 1 = s.nextFolder := Nat.add_sub_cancel s.nextFolder 1
  have hfresh' {a : Account} (hacc : s.account id = some a) :
      s.nextFolder ∉ (a.redirected address quota).folders.map Folder.id :=
    hfresh a (List.mem_of_find?_eq_some hacc)
  fun_cases System.ensureAccount s id address quota with
  | case1 => exact h
  | case2 _ _ hnone => exact hnew _ hnone (.refl _ _)
  | case3 _ _ hnone _ a hok => exact hnew a hnone (ensureInbox_step List.not_mem_nil hok)
  | case4 _ _ a hacc => exact hold a _ hacc (.refl _ _)
  | case5 _ _ a hacc _ _ b hok => exact hold a b hacc (ensureInbox_step (hfresh' hacc) hok)

/-! ## Removals -/

def System.finish (s : System) (i : Nat) (r : Removal) : System :=
  { s with removals := s.removals.set i { r with finished := true } }

theorem Removal.run_step {r : Removal} {now : Time} {removed : List Message}
    (hrun : r.run a now = .ok (a', removed)) : Account.Step [] a a' := by
  unfold Removal.run at hrun
  split at hrun
  · exact expunge_step hrun
  · exact deleteFolder_step hrun

theorem remove_rule (outcome : Outcome) (h : P s)
    (hfinish : ∀ r, P (s.finish i r))
    (hcommit : ∀ r a a' removed, s.removals[i]? = some r → r.finished = false →
      s.account r.account = some a → r.run a s.clock = .ok (a', removed) →
      P { (s.finish i r).commit a a' with
          unheld := s.unheld ++
            if s.policy a.address then removed.filter fun m => !hasCopy a' m else [] }) :
    P (s.remove i outcome) := by
  fun_cases System.remove s i outcome with
  | case1 | case2 | case5 => exact h
  | case3 r | case4 r | case7 r => exact hfinish r
  | case6 r hr hover _ a hacc a' removed hrun =>
    exact hcommit r a a' removed hr (Bool.eq_false_iff.2 hover) hacc hrun

/-! ## Passes -/

def System.collect (s : System) (key : Key) : System :=
  { s.setStored key false with collected := s.collected ++ [key] }

/-- The row of a deleted body is looked at again in a day. -/
def System.postpone (s : System) (key : Key) : System :=
  s.setBody key ((s.bodies key).map fun row => { row with expires := s.clock + dayTime })

/-- What a step of a pass does besides going on, and what it leaves to the next. -/
inductive PassMove (cfg : GcConfig) (s : System) (p : Pass) : System → Pass → Prop
  | ended : PassMove cfg s p s { p with phase := .finished }
  | marked (hphase : p.phase = .mark) (choice : List Key) :
      PassMove cfg s p s
        { p with marked := choice.filter s.markable, markedAt := s.clock, phase := .unmark }
  | unmarked (hphase : p.phase = .unmark) (choice : List Key) :
      PassMove cfg s p s { p with unmarked := choice.filter s.unmarkable, phase := .select }
  | selected (hphase : p.phase = .select) (choice : List Key) :
      PassMove cfg s p s
        { p with
          selected := choice.filter (s.candidate cfg p.begun)
          phase := .recheck (choice.filter (s.candidate cfg p.begun)) }
  | rechecked {key : Key} {rest retired : List Key} (hphase : p.phase = .recheck (key :: rest))
      (hretired : retired ⊆ p.retired ++ [key]) :
      PassMove cfg s p s { p with retired := retired, phase := .recheck rest }
  | committed {phase : PassPhase} (hphase : p.phase = .recheck [])
      (hnext : phase = .list ∨ phase = .finished) :
      PassMove cfg s p (s.commitPass p) { p with phase := phase }
  | listed {keys : List Key} (hphase : p.phase = .list)
      (hkeys : ∀ key ∈ keys, s.bodyState key = some .retiring) :
      PassMove cfg s p s { p with phase := .delete keys }
  | collected {key : Key} {rest : List Key} {phase : PassPhase}
      (hphase : p.phase = .delete (key :: rest))
      (hnext : phase = .postpone key rest ∨ phase = .finished) :
      PassMove cfg s p (s.collect key) { p with phase := phase }
  | postponed {key : Key} {rest : List Key} {phase : PassPhase}
      (hphase : p.phase = .postpone key rest) (hnext : phase = .delete rest ∨ phase = .finished) :
      PassMove cfg s p (s.postpone key) { p with phase := phase }
  | unlisted {key : Key} {rest : List Key} (hphase : p.phase = .postpone key rest) :
      PassMove cfg s p s { p with phase := .delete rest }

theorem passStep_rule {p : Pass} (choice : List Key) (h : P s)
    (hmove : ∀ s' q, PassMove cfg s p s' q → P (s'.setPass i q)) :
    P (s.passStep cfg i p choice outcome) := by
  have hover : P (s.setPass i { p with phase := .finished }) := hmove _ _ .ended
  unfold System.passStep
  split
  · split
    · exact hmove _ _ (.marked ‹_› choice)
    · exact hover
  · split
    · exact hmove _ _ (.unmarked ‹_› choice)
    · exact hover
  · split
    · exact hmove _ _ (.selected ‹_› choice)
    · exact hover
  · rename_i key rest hphase
    split
    · split
      · exact hmove _ _ (.rechecked hphase (List.subset_append_left _ _))
      · exact hmove _ _ (.rechecked hphase (List.Subset.refl _))
    · exact hover
  · cases outcome with
    | done => exact hmove _ _ (.committed ‹_› (.inl rfl))
    | failed => exact hover
    | lost => exact hmove _ _ (.committed ‹_› (.inr rfl))
  · rename_i hphase
    split
    · refine hmove _ _ (.listed hphase fun key hkey => ?_)
      have hretiring := (List.mem_filter.1 hkey).2
      split at hretiring
      · cases hretiring
      · rename_i row hrow
        simp only [Bool.and_eq_true, beq_iff_eq] at hretiring
        simp [System.bodyState, hrow, hretiring.1]
    · exact hover
  · exact hover
  · rename_i key rest hphase
    cases outcome with
    | done => exact hmove _ _ (.collected hphase (.inl rfl))
    | failed => exact hover
    | lost => exact hmove _ _ (.collected hphase (.inr rfl))
  · rename_i key rest hphase
    by_cases hpost : outcome.effective = true ∧ s.bodyState key = some .retiring
    · simp only [if_pos hpost]
      split
      · exact hmove _ _ (.postponed hphase (.inl rfl))
      · exact hmove _ _ (.postponed hphase (.inr rfl))
    simp only [if_neg hpost]
    split
    · exact hmove _ _ (.unlisted hphase)
    · exact hover
  · exact h

/-! ## Inputs that name an append or a pass -/

theorem append_rule (h : P s)
    (hstep : ∀ p, s.appends[i]? = some p → P (s.appendStep i p outcome begun)) :
    P (step cfg s (.append i outcome begun)) := by
  simp only [step]
  split
  · exact h
  · exact hstep _ ‹_›

theorem crash_rule (h : P s)
    (hcrash : ∀ p, s.appends[i]? = some p → P (s.setAppend i p .finished)) :
    P (step cfg s (.crash i)) := by
  simp only [step]
  split
  · exact h
  · exact hcrash _ ‹_›

theorem pass_rule {choice : List Key} (h : P s)
    (hstep : ∀ p, s.passes[i]? = some p → P (s.passStep cfg i p choice outcome)) :
    P (step cfg s (.pass i choice outcome)) := by
  simp only [step]
  split
  · exact h
  · exact hstep _ ‹_›

end Steps

end Elemta.Mailbox
