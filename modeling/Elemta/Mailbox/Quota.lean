import Elemta.Mailbox.Publication
import Mathlib.Algebra.BigOperators.Group.List.Basic
import Mathlib.Algebra.Order.BigOperators.Group.List
import Mathlib.Algebra.Order.Group.Int

/-!
# Quota

What an account uses is what its messages take up, and it stays within a quota that has
not been lowered, in every run. The bytes that appends have reserved are another matter:
the reservation is a number in the account's row that only its append takes back, so it
outlives an append whose process dies, and it is taken back twice when the append is wrong
about its second transaction. Where neither happens, the number is the sum of the uploads
in progress, and an append is refused for quota only if it does not fit beside them.
-/

namespace Elemta.Mailbox

open Bytes Slots

/-! ## Staying within the quota -/

def WithinQuotas (s : System) : Prop :=
  ∀ a ∈ s.accounts, s.lowered a.id = false → a.WithinQuota

section Within

variable {s s' : System} {i : Nat} {p : Append}

theorem WithinQuotas.tables (h : WithinQuotas s) (haccounts : s'.accounts = s.accounts)
    (hlowered : s'.lowered = s.lowered) : WithinQuotas s' := by
  unfold WithinQuotas
  rw [haccounts, hlowered]
  exact h

variable {a a' : Account}

theorem WithinQuotas.commit (h : WithinQuotas s) (hid : a'.id = a.id)
    (hwithin : s.lowered a.id = false → a'.WithinQuota) : WithinQuotas (s.commit a a') := by
  intro b hb hlowered
  rcases mem_commit hid hb with rfl | ⟨hold, -⟩
  · exact hwithin (hid ▸ hlowered)
  · exact h b hold hlowered

theorem WithinQuotas.commit_step (h : WithinQuotas s) (hw : Wired s) (ha : a ∈ s.accounts)
    {new : List Nat} (hstep : Account.Step new a a') : WithinQuotas (s.commit a a') :=
  h.commit hstep.id fun hlowered => hstep.within (hw.sound a ha) (h a ha hlowered)

theorem WithinQuotas.setReserved (h : WithinQuotas s) (ha : a ∈ s.accounts) (reserved : Int) :
    WithinQuotas (s.commit a { a with reserved :=reserved }) :=
  h.commit rfl fun hlowered => h a ha hlowered

theorem WithinQuotas.appendStep (h : WithinQuotas s) (outcome : Outcome) (begun : Time) :
    WithinQuotas (s.appendStep i p outcome begun) := by
  refine appendStep_rule h fun s' phase hmove => ?_
  cases hmove with
  | reserved _ hacc | leaked _ hacc | released _ hacc =>
    exact h.setReserved (mem_of_account hacc).1 _
  | published _ _ _ hpub => exact h.commit hpub.id fun _ => hpub.within
  | _ => exact h

theorem within_redirected {address : Bytes} {quota : Int} (h : a.WithinQuota)
    (hraised : lowers a.quota quota = false) : (a.redirected address quota).WithinQuota := by
  intro hpos
  have hpos : 0 < quota := hpos
  simp only [lowers, hpos, decide_true, Bool.true_and, Bool.or_eq_false_iff, decide_eq_false_iff_not,
    not_le, not_lt] at hraised
  calc a.used ≤ a.quota := h hraised.1
    _ ≤ quota := hraised.2

theorem WithinQuotas.ensureAccount (h : WithinQuotas s) (hw : Wired s) (id address : Bytes)
    (quota : Int) : WithinQuotas (s.ensureAccount id address quota) := by
  refine ensureAccount_rule (fun _ => hw.fresh_folder) h (fun a _ hstep => forall_concat h fun _ => ?_)
    fun a b hacc hstep c hc hlowered => ?_
  · have hsound : (emptyAccount id (toLower address) quota).Sound := ⟨List.nodup_nil, rfl⟩
    exact hstep.within hsound fun hpos => Int.le_of_lt hpos
  · obtain ⟨ha, hid⟩ := mem_of_account hacc
    rcases mem_commit hstep.id hc with rfl | ⟨hold, hne⟩
    · have hcid : c.id = id := hstep.id.trans hid
      simp only [System.commit, hcid, Function.update_self, Bool.or_eq_false_iff] at hlowered
      have hwithin := h a ha (hid.symm ▸ hlowered.1)
      have hsound : (a.redirected address quota).Sound := ⟨(hw.sound a ha).ids, (hw.sound a ha).balanced⟩
      exact hstep.within hsound (within_redirected hwithin hlowered.2)
    · have hne : c.id ≠ id := hid ▸ hne
      simp only [System.commit, Function.update_of_ne hne] at hlowered
      exact h c hold hlowered

theorem WithinQuotas.step {cfg : GcConfig} (h : WithinQuotas s) (hw : Wired s) (input : Input) :
    WithinQuotas (step cfg s input) := by
  cases input with
  | wait | setPolicy | beginAppend | beginRemoval | beginPass => exact h
  | ensureAccount id address quota => exact h.ensureAccount hw id address quota
  | append i outcome begun => exact append_rule h fun _ _ => h.appendStep outcome begun
  | crash i => exact crash_rule h fun _ _ => h
  | transact account tx outcome =>
    exact transact_rule (fun _ => hw.fresh_folder) tx h h fun _ _ hacc hstep =>
      (h.commit_step hw (mem_of_account hacc).1 hstep).tables rfl rfl
  | remove i outcome =>
    refine remove_rule outcome h (fun _ => h) fun r a a' removed _ _ hacc hrun => ?_
    exact (h.commit_step hw (mem_of_account hacc).1 (Removal.run_step hrun)).tables rfl rfl
  | pass i choice outcome =>
    exact pass_rule h fun _ _ => passStep_rule choice h fun _ _ hmove => by cases hmove <;> exact h

end Within

theorem used_within_quota (cfg : GcConfig) (inputs : List Input) :
    ∀ a ∈ (Machine.run (step cfg) System.init inputs).accounts, a.used = totalSize a.messages ∧
      ((Machine.run (step cfg) System.init inputs).lowered a.id = false → a.WithinQuota) := by
  have hinv : Wired (Machine.run (step cfg) System.init inputs) ∧
      WithinQuotas (Machine.run (step cfg) System.init inputs) :=
    Machine.run_invariant (fun s => Wired s ∧ WithinQuotas s)
      (fun _ input hinv => ⟨hinv.1.step input, hinv.2.step hinv.1 input⟩) ⟨wired_init, nofun⟩ inputs
  intro a ha
  exact ⟨(hinv.1.sound a ha).balanced, hinv.2 a ha⟩

/-! ## Reservations -/

/-- No reservation is left behind and none is taken back twice: an append knows what became of the
transactions that reserve and use up its bytes, it gets to give them back, and its process does not
die while it has any. -/
def accountedFor (s : System) : Input → Bool
  | .append i outcome _ =>
    match s.appends[i]? with
    | none => true
    | some p =>
      match p.phase with
      | .reserve => outcome != .lost
      | .publish => outcome != .lost
      | .release => outcome != .failed
      | _ => true
  | .crash i =>
    match s.appends[i]? with
    | none => true
    | some p => !p.phase.holdsQuota
  | _ => true

structure Booked (s : System) : Prop where
  reserved : ∀ a ∈ s.accounts, a.reserved = s.uploading a.id
  holders : ∀ p ∈ s.appends, p.phase.holdsQuota = true → s.account p.account ≠ none
  refusals : ∀ r ∈ s.refusals, r.quota < r.used + r.uploading + r.size

section Booking

variable {s s' : System} {i : Nat} {p : Append} {a a' : Account}

theorem reservation_nonneg (id : Bytes) : 0 ≤ reservation id p := by
  unfold reservation
  split
  · exact Int.natCast_nonneg _
  · exact Int.le_refl 0

variable {id : Bytes} {phase : AppendPhase}

theorem reservation_of_idle (h : p.phase.holdsQuota = false) : reservation id p = 0 := by
  simp [reservation, h]

theorem reservation_le (hp : p ∈ s.appends) (id : Bytes) : reservation id p ≤ s.uploading id := by
  refine List.single_le_sum (fun x hx => ?_) _ (List.mem_map_of_mem hp)
  obtain ⟨q, -, rfl⟩ := List.mem_map.1 hx
  exact reservation_nonneg id

theorem uploading_setAppend (hp : s.appends[i]? = some p) (phase : AppendPhase) (id : Bytes) :
    (s.setAppend i p phase).uploading id =
      s.uploading id - reservation id p + reservation id { p with phase := phase } := by
  obtain ⟨hi, hget⟩ := List.getElem?_eq_some_iff.1 hp
  simp only [System.uploading, System.setAppend, List.map_set, List.sum_set', List.length_map, hi,
    dif_pos, List.getElem_map, hget]
  omega

theorem uploading_setAppend_same (hp : s.appends[i]? = some p)
    (hsame : phase.holdsQuota = p.phase.holdsQuota) :
    (s.setAppend i p phase).uploading id = s.uploading id := by
  have hres : reservation id { p with phase := phase } = reservation id p := by
    simp only [reservation, hsame]
  rw [uploading_setAppend hp]
  omega

theorem account_commit_ne_none (hid : a'.id = a.id) (h : s.account id ≠ none) :
    (s.commit a a').account id ≠ none := by
  rw [account_commit hid, Ne, Option.map_eq_none_iff]
  exact h

theorem Booked.tables (h : Booked s) (haccounts : s'.accounts = s.accounts)
    (happends : s'.appends = s.appends) (hrefusals : s'.refusals = s.refusals) : Booked s' := by
  refine ⟨?_, ?_, hrefusals ▸ h.refusals⟩
  · simp only [System.uploading, haccounts, happends]
    exact h.reserved
  · simp only [System.account, haccounts, happends]
    exact h.holders

theorem Booked.commit (h : Booked s) (ha : a ∈ s.accounts) (hid : a'.id = a.id)
    (hreserved : a'.reserved = a.reserved) : Booked (s.commit a a') where
  reserved b hb := by
    rcases mem_commit hid hb with rfl | ⟨hold, -⟩
    · rw [hreserved, hid]
      exact h.reserved a ha
    · exact h.reserved b hold
  holders p hp hholds := account_commit_ne_none hid (h.holders p hp hholds)
  refusals := h.refusals

/-- An append moves on with what it has reserved, or without having reserved anything. -/
theorem Booked.setAppend (h : Booked s) (hp : s.appends[i]? = some p)
    (hsame : phase.holdsQuota = p.phase.holdsQuota) : Booked (s.setAppend i p phase) where
  reserved b hb := (h.reserved b hb).trans (uploading_setAppend_same hp hsame).symm
  holders := forall_set h.holders fun hholds =>
    h.holders p (List.mem_of_getElem? hp) (hsame ▸ hholds)
  refusals := h.refusals

/-- An append reserves, uses up or gives back its bytes together with its account. -/
theorem Booked.settle (h : Booked s) (hp : s.appends[i]? = some p)
    (hacc : s.account p.account = some a) (hid : a'.id = a.id) (hreserved : a'.reserved =
      a.reserved - reservation a.id p + reservation a.id { p with phase := phase }) :
    Booked ((s.commit a a').setAppend i p phase) where
  reserved b hb := by
    obtain ⟨ha, hown⟩ := mem_of_account hacc
    have huploading : ((s.commit a a').setAppend i p phase).uploading b.id =
        s.uploading b.id - reservation b.id p + reservation b.id { p with phase := phase } :=
      uploading_setAppend hp phase b.id
    rcases mem_commit hid hb with rfl | ⟨hold, hne⟩
    · rw [huploading, hreserved, hid, h.reserved a ha]
    · -- the append belongs to another account
      have hother : p.account ≠ b.id := fun heq => hne (heq ▸ hown.symm)
      have hnone : ∀ q : Append, q.account = p.account → reservation b.id q = 0 := by
        intro q hq
        simp [reservation, hq, hother]
      rw [huploading, hnone p rfl, hnone { p with phase := phase } rfl, h.reserved b hold]
      omega
  holders q hq hholds := by
    rcases List.mem_or_eq_of_mem_set hq with hold | rfl
    · exact account_commit_ne_none hid (h.holders q hold hholds)
    refine account_commit_ne_none hid fun hnone => ?_
    rw [hacc] at hnone
    cases hnone
  refusals := h.refusals

theorem Booked.refuse (h : Booked s) (hroom : a.quota <
      a.used + (s.uploading a.id - reservation a.id p) + p.upload.size) : Booked (s.refuse a p) where
  reserved := h.reserved
  holders := h.holders
  refusals := forall_concat h.refusals hroom

theorem overbooked_iff {size : Nat} :
    a.overbooked size = true ↔ 0 < a.quota ∧ a.quota - a.used - a.reserved < size := by
  simp [Account.overbooked]

theorem overfull_iff {size : Int} : a.overfull size = true ↔ 0 < a.quota ∧ a.quota < a.used + size := by
  simp [Account.overfull]

theorem reservation_of_holding (hacc : s.account p.account = some a)
    (hholds : p.phase.holdsQuota = true) : reservation a.id p = p.upload.size := by
  simp [reservation, (mem_of_account hacc).2, hholds]

theorem Booked.appendStep (h : Booked s) (hp : s.appends[i]? = some p) {outcome : Outcome}
    {begun : Time} (hknown : accountedFor s (.append i outcome begun) = true) :
    Booked (s.appendStep i p outcome begun) := by
  have hidle : p.phase = .reserve → p.phase.holdsQuota = false := fun hphase => by rw [hphase]; rfl
  simp only [accountedFor, hp] at hknown
  refine appendStep_rule h fun s' phase hmove => ?_
  cases hmove with
  | givenUp hphase => exact h.setAppend hp (hidle hphase).symm
  | refused hphase hacc hover =>
    refine (h.refuse ?_).setAppend hp (hidle hphase).symm
    rw [reservation_of_idle (hidle hphase), ← h.reserved _ (mem_of_account hacc).1]
    have hroom := (overbooked_iff.1 hover).2
    omega
  | @reserved a hphase hacc =>
    refine h.settle hp hacc rfl ?_
    have hstaged : reservation a.id { p with phase := .stage } = p.upload.size :=
      reservation_of_holding hacc rfl
    rw [reservation_of_idle (hidle hphase), hstaged]
    exact congrArg (· + (p.upload.size : Int)) (Int.sub_zero a.reserved).symm
  | leaked hphase _ hlost => simp [hphase, hlost] at hknown
  -- between the two transactions the bytes stay reserved
  | staged hphase _ _ hnext | put hphase hnext | deleted hphase hnext =>
    have hholding : Booked (s.setAppend i p phase) := by
      refine h.setAppend hp ?_
      rcases hnext with rfl | rfl
      · rw [hphase]; rfl
      · rw [hphase]; rfl
    exact hholding.tables rfl rfl rfl
  | unstaged hphase | summarized hphase => exact h.setAppend hp (by rw [hphase]; rfl)
  | failed hphase => exact h.setAppend hp (by rcases hphase with h | h | h <;> rw [h] <;> rfl)
  | left hphase => exact h.setAppend hp (by rcases hphase with h | h <;> rw [h] <;> rfl)
  | unlisted hphase =>
    have hholding : Booked (s.setAppend i p .release) := h.setAppend hp (by rw [hphase]; rfl)
    exact hholding.tables rfl rfl rfl
  | @overfull a hphase hacc hover =>
    refine (h.refuse ?_).setAppend hp (by rw [hphase]; rfl)
    have hroom := (overfull_iff.1 hover).2
    have hothers := reservation_le (List.mem_of_getElem? hp) a.id
    omega
  | @published a a' _ hphase hacc _ hpub _ hnext =>
    rcases hnext with rfl | ⟨hlost, -⟩
    · have hsettled : Booked ((s.commit a a').setAppend i p .finished) := by
        refine h.settle hp hacc hpub.id ?_
        rw [reservation_of_holding hacc (by rw [hphase]; rfl), reservation_of_idle rfl, hpub.reserved]
        omega
      exact hsettled.tables rfl rfl rfl
    · simp [hphase, hlost] at hknown
  | unreleased hphase hfailed =>
    rcases hfailed with hnone | hfailed
    · exact absurd hnone (h.holders p (List.mem_of_getElem? hp) (by rw [hphase]; rfl))
    · simp [hphase, hfailed] at hknown
  | released hphase hacc =>
    refine h.settle hp hacc rfl ?_
    rw [reservation_of_holding hacc (by rw [hphase]; rfl), reservation_of_idle rfl]
    exact (Int.add_zero _).symm

theorem Booked.ensureAccount (h : Booked s) (hw : Wired s) (id address : Bytes) (quota : Int) :
    Booked (s.ensureAccount id address quota) := by
  refine ensureAccount_rule (fun _ => hw.fresh_folder) h (fun a hnone hstep => ?_)
    fun a b hacc hstep => ?_
  · refine ⟨forall_concat h.reserved ?_, fun p hp hholds => ?_, h.refusals⟩
    · -- nobody can have reserved anything of an account that was not there
      rw [hstep.reserved]
      refine (List.sum_eq_zero fun x hx => ?_).symm
      obtain ⟨p, hp, rfl⟩ := List.mem_map.1 hx
      unfold reservation
      split
      · rename_i hown
        have hid : p.account = id := hown.1.trans hstep.id
        exact absurd (hid ▸ hnone) (h.holders p hp hown.2)
      · rfl
    · intro hnew
      have hold : s.account p.account = none := by
        simp only [System.account, List.find?_append, Option.or_eq_none_iff] at hnew
        exact hnew.1
      exact h.holders p hp hholds hold
  · have hdrawn : Booked { s.drawIds with
        lowered := Function.update s.lowered id (s.lowered id || lowers a.quota quota) } :=
      h.tables rfl rfl rfl
    exact hdrawn.commit (mem_of_account hacc).1 hstep.id hstep.reserved

theorem Booked.step {cfg : GcConfig} (h : Booked s) (hw : Wired s) {input : Input}
    (hknown : accountedFor s input = true) : Booked (step cfg s input) := by
  cases input with
  | wait | setPolicy | beginRemoval | beginPass => exact h.tables rfl rfl rfl
  | ensureAccount id address quota => exact h.ensureAccount hw id address quota
  | beginAppend account folder size checksum flags date token =>
    refine ⟨fun a ha => ?_, forall_concat h.holders nofun, h.refusals⟩
    simp only [Mailbox.step, System.uploading, List.map_append, List.sum_append, List.map_cons,
      List.map_nil, List.sum_singleton]
    rw [reservation_of_idle rfl, Int.add_zero]
    exact h.reserved a ha
  | append i outcome begun => exact append_rule h fun p hp => h.appendStep hp hknown
  | crash i =>
    refine crash_rule h fun p hp => ?_
    simp only [accountedFor, hp, Bool.not_eq_true'] at hknown
    exact h.setAppend hp hknown.symm
  | transact account tx outcome =>
    have hdrawn : Booked s.drawIds := h.tables rfl rfl rfl
    exact transact_rule (fun _ => hw.fresh_folder) tx h hdrawn fun _ _ hacc hstep =>
      hdrawn.commit (mem_of_account hacc).1 hstep.id hstep.reserved
  | remove i outcome =>
    refine remove_rule outcome h (fun r => h.tables rfl rfl rfl) fun r a a' removed _ _ hacc hrun => ?_
    have hstep := Removal.run_step hrun
    exact (h.commit (mem_of_account hacc).1 hstep.id hstep.reserved).tables rfl rfl rfl
  | pass i choice outcome =>
    refine pass_rule h fun _ _ => ?_
    refine passStep_rule choice h fun _ _ hmove => ?_
    cases hmove <;> exact h.tables rfl rfl rfl

end Booking

/-- What an account uses is what its messages take up and stays within a quota that was not lowered,
and an append that is refused for quota does not fit beside the uploads in progress. -/
theorem quota_accounting (cfg : GcConfig) (inputs : List Input)
    (h : Machine.Along (step cfg) (fun s input => accountedFor s input = true) System.init inputs) :
    (∀ a ∈ (Machine.run (step cfg) System.init inputs).accounts, a.used = totalSize a.messages ∧
      ((Machine.run (step cfg) System.init inputs).lowered a.id = false → a.WithinQuota)) ∧
    ∀ r ∈ (Machine.run (step cfg) System.init inputs).refusals,
      r.quota < r.used + r.uploading + r.size := by
  have hinv := h.run_invariant (fun s => Wired s ∧ Booked s)
    (fun _ input hknown hinv => ⟨hinv.1.step input, hinv.2.step hinv.1 hknown⟩)
    ⟨wired_init, nofun, nofun, nofun⟩
  exact ⟨used_within_quota cfg inputs, hinv.2.refusals⟩

section Runs

/-- A message is there and another is uploaded; a third does not fit beside them, and fits when the
upload has failed. -/
def threeUploads : List Input :=
  [account, upload 30] ++ published 0 ++
    [upload 50, .append 1 .done 0, .append 1 .done 0, upload 40, .append 2 .done 0,
     .append 1 .failed 0, .append 1 .done 0, .append 1 .done 0, .append 1 .done 0, upload 40] ++
    published 3

theorem quota_accounting_threeUploads :
    ((Machine.run (step weekOfGrace) System.init threeUploads).accounts.map fun a =>
      (a.used, a.reserved)) = [(70, 0)] ∧
    (Machine.run (step weekOfGrace) System.init threeUploads).refusals =
      [{ size := 40, quota := 100, used := 30, uploading := 50 }] ∧
    (∀ a ∈ (Machine.run (step weekOfGrace) System.init threeUploads).accounts,
      a.used = totalSize a.messages ∧
      ((Machine.run (step weekOfGrace) System.init threeUploads).lowered a.id = false →
        a.WithinQuota)) ∧
    ∀ r ∈ (Machine.run (step weekOfGrace) System.init threeUploads).refusals,
      r.quota < r.used + r.uploading + r.size :=
  ⟨by decide +kernel, by decide +kernel,
    quota_accounting weekOfGrace threeUploads (by decide +kernel)⟩

/-- A process dies with 80 bytes reserved. The account is empty and nothing is uploaded, and 50 bytes
are refused. -/
theorem refused_while_empty :
    (Machine.run (step weekOfGrace) System.init
        [account, upload 80, .append 0 .done 0, .crash 0, upload 50, .append 1 .done 0]).refusals =
      [{ size := 50, quota := 100, used := 0, uploading := 0 }] := by
  decide +kernel

end Runs

end Elemta.Mailbox
