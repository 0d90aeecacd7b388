import Elemta.Mailbox.Collection

/-!
# Legal hold

A removal asks whether its account is on hold before its transaction begins, and keeps
copies by that answer. When no hold comes upon an account while one of its removals that
will keep no copies is on its way, every removal that commits under a hold leaves copies,
and the bodies of held copies are never collected.
-/

namespace Elemta.Mailbox

open Bytes Slots

/-- The removal has been told that the account is not on hold, and has not ended. -/
def Removal.unaware (r : Removal) : Bool :=
  !r.finished && !r.held

/-- A hold does not come upon an account that a removal takes not to be held. -/
def heralded (s : System) : Input → Bool
  | .setPolicy address true =>
    s.removals.all fun r =>
      !r.unaware || (s.account r.account).map Account.address != some address
  | .ensureAccount id address _ =>
    !s.policy (toLower address) || s.removals.all fun r => !r.unaware || r.account != id
  | _ => true

structure Copying (s : System) : Prop where
  removals : ∀ r ∈ s.removals, r.unaware = true → s.onHold r.account = false
  unheld : s.unheld = []

section Copies

variable {s s' : System} {i : Nat} {a a' : Account}

/-! ## A removal makes its copies -/

theorem hasCopy_holding {f : Folder} {messages : List Message} {reason : Bytes} {m : Message}
    (hm : m ∈ messages) : hasCopy (a.holding true f messages reason) m = true := by
  refine List.any_eq_true.2 ⟨heldCopy f reason m, ?_, by simp [heldCopy]⟩
  exact List.mem_append_right _ (List.mem_map_of_mem hm)

variable {r : Removal} {id own address : Bytes}

theorem Removal.run_copies {now : Time} {removed : List Message}
    (h : r.run a now = .ok (a', removed)) (hheld : r.held = true) :
    ∀ m ∈ removed, hasCopy a' m = true := by
  intro m hm
  unfold Removal.run at h
  rw [hheld] at h
  split at h
  · rcases Account.expunge_ok h with ⟨rfl, -⟩ | ⟨f, -, -, rfl⟩
    · cases hm
    · exact hasCopy_holding hm
  · obtain ⟨f, -, rfl, rfl⟩ := Account.deleteFolder_ok h
    exact hasCopy_holding hm

/-! ## Who is on hold -/

theorem onHold_of_address (h : (s'.account id).map Account.address =
    (s.account id).map Account.address) (hpolicy : s'.policy = s.policy) :
    s'.onHold id = s.onHold id := by
  unfold System.onHold
  cases hs : s.account id with
  | none =>
    cases hs' : s'.account id with
    | none => rfl
    | some b => simp [hs, hs'] at h
  | some a =>
    cases hs' : s'.account id with
    | none => simp [hs, hs'] at h
    | some b =>
      simp only [hs, hs', Option.map_some, Option.some.injEq] at h
      simp only [h, hpolicy]

theorem onHold_commit (hacc : s.account own = some a) (hid : a'.id = a.id) (id : Bytes) :
    (s.commit a a').onHold id = if id = own then s.policy a'.address else s.onHold id := by
  obtain ⟨-, hown⟩ := mem_of_account hacc
  by_cases hsame : id = own
  · subst hsame
    simp only [System.onHold, account_commit hid, hacc, Option.map_some, if_true]
    rfl
  rw [if_neg hsame]
  refine onHold_of_address ?_ rfl
  rw [account_commit hid]
  cases hs : s.account id with
  | none => rfl
  | some b =>
    have hne : b.id ≠ a.id := by
      rw [(mem_of_account hs).2, hown]
      exact hsame
    rw [Option.map_some, if_neg hne]

section

variable (h : Copying s)

include h

theorem Copying.tables (hremovals : s'.removals = s.removals) (haccounts : s'.accounts = s.accounts)
    (hpolicy : s'.policy = s.policy) (hunheld : s'.unheld = s.unheld) : Copying s' := by
  refine ⟨fun r hr hunaware => ?_, hunheld.trans h.unheld⟩
  rw [hremovals] at hr
  have hsame : s'.account r.account = s.account r.account := by
    simp only [System.account, haccounts]
  exact (onHold_of_address (congrArg _ hsame) hpolicy).trans (h.removals r hr hunaware)

/-- An account changes, and a removal of it has nothing to learn from its address. -/
theorem Copying.commit (hacc : s.account own = some a) (hid : a'.id = a.id)
    (hown : ∀ r ∈ s.removals, r.unaware = true → r.account = own → s.policy a'.address = false) :
    Copying (s.commit a a') := by
  refine ⟨fun r hr hunaware => ?_, h.unheld⟩
  rw [onHold_commit hacc hid]
  split
  · rename_i hsame
    exact hown r hr hunaware hsame
  · exact h.removals r hr hunaware

/-- A transaction leaves the address of its account alone. -/
theorem Copying.commit_same (hacc : s.account own = some a) (hid : a'.id = a.id)
    (haddress : a'.address = a.address) : Copying (s.commit a a') := by
  refine h.commit hacc hid fun r hr hunaware hsame => ?_
  have hfree := h.removals r hr hunaware
  rw [hsame] at hfree
  simp only [System.onHold, hacc] at hfree
  rw [haddress]
  exact hfree

theorem Copying.appendStep (p : Append) (outcome : Outcome) (begun : Time) :
    Copying (s.appendStep i p outcome begun) := by
  refine appendStep_rule h fun s' phase hmove => ?_
  have hset : Copying s' → Copying (s'.setAppend i p phase) := fun hs => hs.tables rfl rfl rfl rfl
  cases hmove with
  | reserved _ hacc | leaked _ hacc | released _ hacc => exact hset (h.commit_same hacc rfl rfl)
  | published _ hacc _ hpub =>
    exact (h.commit_same hacc hpub.id hpub.address).tables rfl rfl rfl rfl
  | _ => exact h.tables rfl rfl rfl rfl

/-! ## Removals and changes of the hold -/

theorem Copying.finish : Copying (s.finish i r) :=
  ⟨forall_set h.removals nofun, h.unheld⟩

theorem Copying.remove (outcome : Outcome) : Copying (s.remove i outcome) := by
  refine remove_rule outcome h (fun _ => h.finish) fun r a a' removed hr hover hacc hrun => ?_
  have hstep := Removal.run_step hrun
  have hcommitted : Copying ((s.finish i r).commit a a') :=
    h.finish.commit_same hacc hstep.id hstep.address
  refine ⟨hcommitted.removals, ?_⟩
  rw [h.unheld]
  split
  · rename_i hpolicy
    -- the account is on hold, so the removal knows it
    have hheld : r.held = true := by
      by_contra hno
      have hunaware : r.unaware = true := by
        simp [Removal.unaware, hover, Bool.eq_false_iff.2 hno]
      have hfree := h.removals r (List.mem_of_getElem? hr) hunaware
      simp only [System.onHold, hacc, hpolicy] at hfree
      cases hfree
    refine List.filter_eq_nil_iff.2 fun m hm => ?_
    rw [Removal.run_copies hrun hheld m hm]
    exact Bool.false_ne_true
  · rfl

theorem Copying.setPolicy {hold : Bool} (hheralded : heralded s (.setPolicy address hold) = true) :
    Copying { s with policy := Function.update s.policy address hold } := by
  refine ⟨fun r hr hunaware => ?_, h.unheld⟩
  have hfree := h.removals r hr hunaware
  have hnot : hold = true → (s.account r.account).map Account.address ≠ some address := by
    rintro rfl
    have hall := List.all_eq_true.1 hheralded r hr
    simpa [hunaware] using hall
  have haccount : ({ s with policy := Function.update s.policy address hold } : System).account r.account =
      s.account r.account := rfl
  unfold System.onHold at hfree ⊢
  rw [haccount]
  cases hacc : s.account r.account with
  | none => rfl
  | some a =>
    simp only [hacc, Option.map_some, ne_eq, Option.some.injEq] at hfree hnot ⊢
    by_cases haddress : a.address = address
    · rw [haddress, Function.update_self]
      exact Bool.eq_false_iff.2 fun htrue => hnot htrue haddress
    · rw [Function.update_of_ne haddress]
      exact hfree

theorem Copying.ensureAccount (hw : Wired s) {quota : Int}
    (hheralded : heralded s (.ensureAccount id address quota) = true) :
    Copying (s.ensureAccount id address quota) := by
  -- a removal of the account is aware of the hold that comes with the address
  have hown : ∀ r ∈ s.removals, r.unaware = true → r.account = id →
      s.policy (toLower address) = false := by
    intro r hr hunaware hid
    simp only [heralded, Bool.or_eq_true, Bool.not_eq_true', List.all_eq_true, bne_iff_ne] at hheralded
    rcases hheralded with hpolicy | hall
    · exact hpolicy
    rcases hall r hr with haware | hother
    · rw [hunaware] at haware
      cases haware
    · exact absurd hid hother
  refine ensureAccount_rule (fun _ => hw.fresh_folder) h (fun a hnone hstep => ?_)
    fun a b hacc hstep => ?_
  · refine ⟨fun r hr hunaware => ?_, h.unheld⟩
    have hfree := h.removals r hr hunaware
    by_cases hid : r.account = id
    · have hpolicy : s.policy a.address = false := hstep.address ▸ hown r hr hunaware hid
      have hfound : ({ s.drawIds with accounts := s.accounts ++ [a] } : System).account r.account =
          some a := by
        have hnone' : List.find? (fun b => b.id == r.account) s.accounts = none := hid ▸ hnone
        have haid : a.id = r.account := hstep.id.trans hid.symm
        simp [System.account, List.find?_append, hnone', haid]
      simp only [System.onHold, hfound]
      exact hpolicy
    · have hsame : ({ s.drawIds with accounts := s.accounts ++ [a] } : System).account r.account =
          s.account r.account := by
        have haid : (a.id == r.account) = false :=
          beq_eq_false_iff_ne.2 fun heq => hid (heq.symm.trans hstep.id)
        simp [System.account, List.find?_append, haid]
      rw [onHold_of_address (congrArg _ hsame) rfl]
      exact hfree
  · have hdrawn : Copying { s.drawIds with
        lowered := Function.update s.lowered id (s.lowered id || lowers a.quota quota) } :=
      h.tables rfl rfl rfl rfl
    refine hdrawn.commit hacc hstep.id fun r hr hunaware hid => ?_
    have hpolicy := hown r hr hunaware hid
    rw [hstep.address]
    exact hpolicy

theorem Copying.step {cfg : GcConfig} (hw : Wired s) {input : Input}
    (hheralded : heralded s input = true) : Copying (step cfg s input) := by
  cases input with
  | wait | beginAppend | beginPass => exact h.tables rfl rfl rfl rfl
  | ensureAccount id address quota => exact h.ensureAccount hw hheralded
  | setPolicy address hold => exact h.setPolicy hheralded
  | append i outcome begun => exact append_rule h fun _ _ => h.appendStep _ outcome begun
  | crash i => exact crash_rule h fun _ _ => h.tables rfl rfl rfl rfl
  | transact account tx outcome =>
    have hdrawn : Copying s.drawIds := h.tables rfl rfl rfl rfl
    exact transact_rule (fun _ => hw.fresh_folder) tx h hdrawn fun _ _ hacc hstep =>
      hdrawn.commit_same hacc hstep.id hstep.address
  | beginRemoval account kind =>
    refine ⟨forall_concat h.removals fun hunaware => ?_, h.unheld⟩
    -- what the removal was told is still so
    have hfree : s.onHold account = false := by simpa [Removal.unaware] using hunaware
    exact hfree
  | remove i outcome => exact h.remove outcome
  | pass i choice outcome =>
    refine pass_rule h fun _ _ => ?_
    refine passStep_rule choice h fun _ _ hmove => ?_
    cases hmove <;> exact h.tables rfl rfl rfl rfl

end

end Copies

/-- No message is gone from an account on hold without its held copy, and the bodies of held copies
are never collected. -/
theorem removals_leave_copies (cfg : GcConfig) (inputs : List Input)
    (h : Machine.Along (step cfg) (fun s input => heralded s input = true) System.init inputs) :
    (Machine.run (step cfg) System.init inputs).unheld = [] ∧
    ∀ a ∈ (Machine.run (step cfg) System.init inputs).accounts, ∀ copy ∈ a.held,
      (Machine.run (step cfg) System.init inputs).bodyState copy.body = some .ready ∧
      copy.body ∉ (Machine.run (step cfg) System.init inputs).collected := by
  obtain ⟨hw, hcopying⟩ := h.run_invariant (fun s => Wired s ∧ Copying s)
    (fun _ input hheralded hinv => ⟨hinv.1.step input, hinv.2.step hinv.1 hheralded⟩)
    ⟨wired_init, nofun, rfl⟩
  refine ⟨hcopying.unheld, fun a ha copy hcopy => ?_⟩
  have href : (Machine.run (step cfg) System.init inputs).referenced copy.body = true :=
    referenced_iff.2 ⟨a, ha, mem_refs.2 (.inr ⟨copy, hcopy, rfl⟩)⟩
  exact ⟨hw.ready _ href, hw.not_collected href⟩

section Runs

/-- One message is removed before the hold and one under it, which a collector then leaves alone. -/
def heldInTime : List Input :=
  [account, upload 30] ++ published 0 ++ [upload 20] ++ published 1 ++
    [.beginRemoval (lit "a") (.expunge (lit "INBOX") [1] false), .remove 0 .done,
     .setPolicy (lit "ann@example.org") true,
     .beginRemoval (lit "a") (.expunge (lit "INBOX") [2] false), .remove 1 .done, .wait second] ++
    wholePass 0 [0, 1]

theorem removals_leave_copies_heldInTime :
    ((Machine.run (step weekOfGrace) System.init heldInTime).accounts.map fun a =>
      (a.messages.length, a.held.map Held.body)) = [(0, [1])] ∧
    (Machine.run (step weekOfGrace) System.init heldInTime).unheld = [] ∧
    ∀ a ∈ (Machine.run (step weekOfGrace) System.init heldInTime).accounts, ∀ copy ∈ a.held,
      (Machine.run (step weekOfGrace) System.init heldInTime).bodyState copy.body = some .ready ∧
      copy.body ∉ (Machine.run (step weekOfGrace) System.init heldInTime).collected :=
  ⟨by decide +kernel, removals_leave_copies weekOfGrace heldInTime (by decide +kernel)⟩

/-- The hold comes between the question and the transaction: the message goes without a copy. -/
theorem removed_without_copy :
    ((Machine.run (step weekOfGrace) System.init
        ([account, upload 80] ++ published 0 ++
          [.beginRemoval (lit "a") (.expunge (lit "INBOX") [1] false),
           .setPolicy (lit "ann@example.org") true, .remove 0 .done])).unheld.map Message.uid) = [1] := by
  decide +kernel

end Runs

end Elemta.Mailbox
