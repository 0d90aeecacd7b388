import Elemta.Mailbox.Passes

/-!
# The clean-up of an append

An append that ends with an error deletes the body that it has put, and goes by the answer
to its second transaction, not by whether the transaction has committed. As long as the
two agree, every body that somebody refers to is in the store: an append deletes a body
that has never been published, and a collector one that is retiring.
-/

namespace Elemta.Mailbox

open Bytes Slots

/-- The database does not commit the second transaction of an append and report that it failed. -/
def reported (s : System) : Input → Bool
  | .append i .lost _ =>
    match s.appends[i]? with
    | none => true
    | some p => p.phase != .publish
  | _ => true

/-- A body that may be published is in the store, and one that is to be deleted is nobody's. -/
def UploadKept (s : System) (p : Append) : Prop :=
  match p.phase with
  | .summarize => s.bodyState p.upload.key = some .staging → s.stored p.upload.key = true
  | .publish => s.bodyState p.upload.key = some .staging → s.stored p.upload.key = true
  | .deleteBody => s.referenced p.upload.key = false
  | _ => True

structure Kept (s : System) : Prop where
  bodies : ∀ key, s.referenced key = true → s.stored key = true
  uploads : ∀ p ∈ s.appends, UploadKept s p

section Keeping

variable {s s' : System} {i : Nat} {p : Append} {key : Key}

theorem UploadKept.mono (h : UploadKept s p)
    (hrefs : s.referenced p.upload.key = false → s'.referenced p.upload.key = false)
    (hstaging : s'.bodyState p.upload.key = some .staging →
      s.bodyState p.upload.key = some .staging ∧
        (s.stored p.upload.key = true → s'.stored p.upload.key = true)) : UploadKept s' p := by
  have hbody : (s.bodyState p.upload.key = some .staging → s.stored p.upload.key = true) →
      s'.bodyState p.upload.key = some .staging → s'.stored p.upload.key = true := by
    intro hold hnow
    obtain ⟨hbefore, hstored⟩ := hstaging hnow
    exact hstored (hold hbefore)
  unfold UploadKept at h ⊢
  split at h
  · exact hbody h
  · exact hbody h
  · exact hrefs h
  · trivial

/-- A step in which no append moves on and nothing but retiring bodies goes. -/
theorem Kept.mono (h : Kept s) (happends : s'.appends = s.appends)
    (hrefs : ∀ key, s.referenced key = false → s'.referenced key = false)
    (hstaging : ∀ key, s'.bodyState key = some .staging → s.bodyState key = some .staging)
    (hstored : ∀ key, s.referenced key = true ∨ s.bodyState key = some .staging →
      s.stored key = true → s'.stored key = true) : Kept s' where
  bodies key hkey := by
    have hbefore : s.referenced key = true := by
      by_contra hno
      exact Bool.eq_false_iff.1 (hrefs key (Bool.eq_false_iff.2 hno)) hkey
    exact hstored key (.inl hbefore) (h.bodies key hbefore)
  uploads p hp := by
    rw [happends] at hp
    refine (h.uploads p hp).mono (hrefs _) fun hnow => ?_
    exact ⟨hstaging _ hnow, hstored _ (.inr (hstaging _ hnow))⟩

theorem Kept.tables (h : Kept s) (happends : s'.appends = s.appends)
    (haccounts : s'.accounts = s.accounts) (hbodies : s'.bodies = s.bodies)
    (hstored : s'.stored = s.stored) : Kept s' := by
  have hrefs : s'.referenced = s.referenced := by
    funext key
    simp only [System.referenced, haccounts]
  refine h.mono happends (fun key hno => ?_) (fun key hnow => ?_) fun key _ hin => ?_
  · rw [hrefs]
    exact hno
  · simp only [System.bodyState, hbodies] at hnow
    exact hnow
  · rw [hstored]
    exact hin

variable {a : Account} {phase : AppendPhase} {cfg : GcConfig}

theorem Kept.commit (h : Kept s) {a' : Account} (ha : a ∈ s.accounts) (hid : a'.id = a.id)
    (hrefs : a'.refs ⊆ a.refs) : Kept (s.commit a a') :=
  h.mono rfl (fun _ hno => referenced_commit_subset ha hid hrefs hno) (fun _ hnow => hnow)
    fun _ _ hin => hin

/-- An append moves on, and touches no body but its own. -/
theorem Kept.advance (h : Kept s) (hw : Wired s) (hp : s.appends[i]? = some p)
    (happends : s'.appends = s.appends.set i { p with phase := phase })
    (hrefs : ∀ key, key ≠ p.upload.key → s.referenced key = false → s'.referenced key = false)
    (hstate : ∀ key, key ≠ p.upload.key → s'.bodyState key = s.bodyState key)
    (hstored : ∀ key, key ≠ p.upload.key → s'.stored key = s.stored key)
    (hself : s'.referenced p.upload.key = true → s'.stored p.upload.key = true)
    (hok : UploadKept s' { p with phase := phase }) : Kept s' where
  bodies key hkey := by
    by_cases hother : key = p.upload.key
    · rw [hother] at hkey ⊢
      exact hself hkey
    rw [hstored key hother]
    refine h.bodies key ?_
    by_contra hno
    exact Bool.eq_false_iff.1 (hrefs key hother (Bool.eq_false_iff.2 hno)) hkey
  uploads q hq := by
    rw [happends] at hq
    rcases mem_set_cases hq with rfl | ⟨j, hj, hq⟩
    · exact hok
    · have hother := key_ne hw hp hq hj
      refine (h.uploads q (List.mem_of_getElem? hq)).mono (hrefs _ hother) fun hnow => ?_
      exact ⟨hstate _ hother ▸ hnow, fun hin => (hstored _ hother).trans hin⟩

/-- The append's body is as it was, and so are all others. -/
theorem Kept.setAppend (h : Kept s) (hw : Wired s) (hp : s.appends[i]? = some p)
    (hok : UploadKept s { p with phase := phase }) : Kept (s.setAppend i p phase) :=
  h.advance hw hp rfl (fun _ _ hno => hno) (fun _ _ => rfl) (fun _ _ => rfl) (h.bodies _) hok

theorem Kept.setReserved (h : Kept s) (ha : a ∈ s.accounts) (reserved : Int) :
    Kept (s.commit a { a with reserved := reserved }) :=
  h.commit ha rfl (List.Subset.refl _)

theorem Kept.refuse (h : Kept s) (a : Account) (p : Append) : Kept (s.refuse a p) :=
  h.tables rfl rfl rfl rfl

/-- What an append may delete before it has published anything. -/
theorem unpublished (hw : Wired s) (hp : s.appends[i]? = some p)
    (hphase : p.phase = .put ∨ p.phase = .summarize ∨ p.phase = .publish) :
    s.referenced p.upload.key = false := by
  have hok := hw.appends p (List.mem_of_getElem? hp)
  refine hw.not_referenced ?_
  rcases hphase with hphase | hphase | hphase
  · simpa only [AppendOk, hphase] using hok
  · simpa only [AppendOk, hphase] using hok
  · simpa only [AppendOk, hphase] using hok

/-! ## Appends -/

theorem Kept.appendStep (h : Kept s) (hw : Wired s) (hp : s.appends[i]? = some p) {outcome : Outcome}
    (hreported : p.phase = .publish → outcome ≠ .lost) (begun : Time) :
    Kept (s.appendStep i p outcome begun) := by
  have hok := h.uploads p (List.mem_of_getElem? hp)
  have hstaged : ∀ row phase, UploadKept (s.setBody p.upload.key row) { p with phase := phase } →
      Kept ((s.setBody p.upload.key row).setAppend i p phase) := fun row _ hok =>
    h.advance hw hp rfl (fun _ _ hno => hno) (fun key hother => bodyState_setBody_ne hother)
      (fun _ _ => rfl) (h.bodies _) hok
  have hfree : p.phase = .put ∨ p.phase = .summarize ∨ p.phase = .publish →
      s.referenced p.upload.key = false := unpublished hw hp
  refine appendStep_rule h fun s' phase hmove => ?_
  cases hmove with
  | givenUp | unstaged | left | unreleased => exact h.setAppend hw hp trivial
  | refused => exact (h.refuse _ p).setAppend (hw.refuse _ p) hp trivial
  | reserved _ hacc | leaked _ hacc | released _ hacc =>
    obtain ⟨ha, -⟩ := mem_of_account hacc
    exact (h.setReserved ha _).setAppend (hw.setReserved ha _) hp trivial
  | staged _ _ _ hnext =>
    rcases hnext with rfl | rfl
    · exact hstaged _ _ trivial
    · exact hstaged _ _ trivial
  | put hphase hnext =>
    refine h.advance hw hp rfl (fun _ _ hno => hno) (fun _ _ => rfl)
      (fun key hother => Function.update_of_ne hother _ _) (fun _ => Function.update_self ..) ?_
    rcases hnext with rfl | rfl
    · exact fun _ => Function.update_self ..
    · exact hfree (.inl hphase)
  | summarized hphase =>
    simp only [UploadKept, hphase] at hok
    exact h.setAppend hw hp hok
  | failed hphase => exact h.setAppend hw hp (hfree hphase)
  | overfull hphase =>
    exact (h.refuse _ p).setAppend (hw.refuse _ p) hp (hfree (.inr (.inr hphase)))
  | @published a a' _ hphase hacc hlock hpub hstaging hnext =>
    obtain ⟨ha, -⟩ := mem_of_account hacc
    simp only [UploadKept, hphase] at hok
    rcases hnext with rfl | ⟨hlost, -⟩
    · -- the body that the message refers to is the one that the append has put
      exact h.advance hw hp rfl (fun key hother hno => not_referenced_publish ha hpub hother hno)
        (fun key hother => bodyState_setBody_ne hother) (fun _ _ => rfl)
        (fun _ => hok hstaging) trivial
    · exact absurd hlost (hreported hphase)
  | deleted hphase hnext =>
    simp only [UploadKept, hphase] at hok
    refine h.advance hw hp rfl (fun _ _ hno => hno) (fun _ _ => rfl)
      (fun key hother => Function.update_of_ne hother _ _)
      (fun href => absurd href (Bool.eq_false_iff.1 hok)) ?_
    rcases hnext with rfl | rfl
    · trivial
    · trivial
  | unlisted => exact hstaged _ _ trivial

/-! ## Other transactions, removals and passes -/

theorem Kept.transact (h : Kept s) (hw : Wired s) (id : Bytes) (tx : Tx) (outcome : Outcome) :
    Kept (s.transact id tx outcome) := by
  have hdrawn : Kept s.drawIds := h.tables rfl rfl rfl rfl
  exact transact_rule (fun _ => hw.fresh_folder) tx h hdrawn fun _ _ hacc hstep =>
    hdrawn.commit (mem_of_account hacc).1 hstep.id hstep.refs

theorem Kept.ensureAccount (h : Kept s) (hw : Wired s) (id address : Bytes) (quota : Int) :
    Kept (s.ensureAccount id address quota) := by
  refine ensureAccount_rule (fun _ => hw.fresh_folder) h (fun a _ hstep => ?_)
    fun a b hacc hstep => ?_
  · have hrefs : a.refs = [] := List.subset_nil.1 hstep.refs
    refine h.mono rfl (fun key hno => ?_) (fun _ hnow => hnow) fun _ _ hin => hin
    simpa [System.referenced, hrefs] using hno
  · have hdrawn : Kept { s.drawIds with
        lowered := Function.update s.lowered id (s.lowered id || lowers a.quota quota) } :=
      h.tables rfl rfl rfl rfl
    exact hdrawn.commit (mem_of_account hacc).1 hstep.id hstep.refs

theorem Kept.remove (h : Kept s) (i : Nat) (outcome : Outcome) : Kept (s.remove i outcome) := by
  have hfinish : ∀ r, Kept (s.finish i r) := fun r => h.tables rfl rfl rfl rfl
  refine remove_rule outcome h hfinish fun r a a' removed _ _ hacc hrun => ?_
  have hstep := Removal.run_step hrun
  exact ((hfinish r).commit (mem_of_account hacc).1 hstep.id hstep.refs).tables rfl rfl rfl rfl

theorem Kept.passStep (h : Kept s) (hw : Wired s) {p : Pass} (hp : p ∈ s.passes)
    (choice : List Key) (outcome : Outcome) : Kept (s.passStep cfg i p choice outcome) := by
  refine passStep_rule choice h fun s' q hmove => ?_
  have hset : Kept s' → Kept (s'.setPass i q) := fun hs => hs.tables rfl rfl rfl rfl
  refine hset ?_
  cases hmove with
  | ended | marked | unmarked | selected | rechecked | listed | unlisted => exact h
  | committed =>
    refine h.mono rfl (fun _ hno => hno) (fun key hnow => ?_) fun _ _ hin => hin
    by_cases hretired : key ∈ p.retired
    · exact absurd hnow (bodyState_commitPass_ne hretired (by decide))
    · exact (bodyState_commitPass_of_notMem hretired).symm.trans hnow
  | @collected key rest _ hphase =>
    have hretiring : s.bodyState key = some .retiring := by
      refine (hw.passes p hp).deleting key ?_
      simp [Pass.deleting, hphase]
    refine h.mono rfl (fun _ hno => hno) (fun _ hnow => hnow) fun k hneeded hin => ?_
    have hother : k ≠ key := by
      rintro rfl
      rcases hneeded with href | hstaging
      · cases (hw.ready k href).symm.trans hretiring
      · cases hstaging.symm.trans hretiring
    exact (Function.update_of_ne hother _ _).trans hin
  | @postponed key =>
    refine h.mono rfl (fun _ hno => hno) (fun k hnow => ?_) fun _ _ hin => hin
    exact (bodyState_postpone key k).symm.trans hnow

theorem Kept.step (h : Kept s) (hw : Wired s) {input : Input}
    (hreported : reported s input = true) : Kept (step cfg s input) := by
  cases input with
  | wait | setPolicy | beginRemoval | beginPass => exact h.tables rfl rfl rfl rfl
  | ensureAccount id address quota => exact h.ensureAccount hw id address quota
  | beginAppend account folder size checksum flags date token =>
    refine ⟨h.bodies, forall_concat (fun p hp => ?_) trivial⟩
    exact (h.uploads p hp).mono (fun hno => hno) fun hnow => ⟨hnow, fun hin => hin⟩
  | append i outcome begun =>
    refine append_rule h fun p hp => ?_
    refine h.appendStep hw hp (fun hphase hlost => ?_) begun
    simp [reported, hlost, hp, hphase] at hreported
  | crash i => exact crash_rule h fun p hp => h.setAppend hw hp trivial
  | transact account tx outcome => exact h.transact hw account tx outcome
  | remove i outcome => exact h.remove i outcome
  | pass i choice outcome =>
    exact pass_rule h fun p hp => h.passStep hw (List.mem_of_getElem? hp) choice outcome

end Keeping

theorem kept_init : Kept System.init :=
  ⟨fun _ hkey => absurd hkey Bool.false_ne_true, nofun⟩

theorem kept_run {cfg : GcConfig} {inputs : List Input}
    (h : Machine.Along (step cfg) (fun s input => reported s input = true) System.init inputs) :
    Wired (Machine.run (step cfg) System.init inputs) ∧
      Kept (Machine.run (step cfg) System.init inputs) :=
  h.run_invariant (fun s => Wired s ∧ Kept s)
    (fun _ input hreported hinv => ⟨hinv.1.step input, hinv.2.step hinv.1 hreported⟩)
    ⟨wired_init, kept_init⟩

/-- The body of every message that is committed is in the store, whatever appends and collectors
have cleaned up. -/
theorem messages_have_bodies (cfg : GcConfig) (inputs : List Input)
    (h : Machine.Along (step cfg) (fun s input => reported s input = true) System.init inputs) :
    ∀ a ∈ (Machine.run (step cfg) System.init inputs).accounts, ∀ m ∈ a.messages,
      (Machine.run (step cfg) System.init inputs).stored m.body = true := by
  intro a ha m hm
  refine (kept_run h).2.bodies m.body (referenced_iff.2 ⟨a, ha, ?_⟩)
  exact mem_refs.2 (.inl ⟨m, hm, rfl⟩)

section Runs

def weekOfGrace : GcConfig :=
  { bodyGrace := 7 * dayTime }

def account : Input :=
  .ensureAccount (lit "a") (lit "ann@example.org") 100

def upload (size : Nat) : Input :=
  .beginAppend (lit "a") (lit "INBOX") size (lit "sum") [] 0 []

def published (i : Nat) : List Input :=
  List.replicate 5 (.append i .done 0)

/-- One message is published and copied; the second transaction of another append fails. -/
def oneFails : List Input :=
  [account, upload 30] ++ published 0 ++
    [.transact (lit "a") (.create (lit "Saved")) .done,
     .transact (lit "a") (.copyMove (lit "INBOX") (lit "Saved") [1] false) .done, upload 20] ++
    List.replicate 4 (.append 1 .done 0) ++
    [.append 1 .failed 0, .append 1 .done 0, .append 1 .done 0, .append 1 .done 0]

theorem messages_have_bodies_oneFails :
    ((Machine.run (step weekOfGrace) System.init oneFails).accounts.map fun a =>
      a.messages.map Message.body) = [[0, 0]] ∧
    ∀ a ∈ (Machine.run (step weekOfGrace) System.init oneFails).accounts, ∀ m ∈ a.messages,
      (Machine.run (step weekOfGrace) System.init oneFails).stored m.body = true :=
  ⟨by decide +kernel, messages_have_bodies weekOfGrace oneFails (by decide +kernel)⟩

/-- The second transaction commits and its answer is lost: the message stays, and its body is
deleted. -/
theorem body_of_message_deleted :
    ((Machine.run (step weekOfGrace) System.init
        ([account, upload 80] ++ List.replicate 4 (.append 0 .done 0) ++
          [.append 0 .lost 0, .append 0 .done 0])).accounts.map fun a =>
      a.messages.map Message.body) = [[0]] ∧
    (Machine.run (step weekOfGrace) System.init
      ([account, upload 80] ++ List.replicate 4 (.append 0 .done 0) ++
        [.append 0 .lost 0, .append 0 .done 0])).stored 0 = false := by
  decide +kernel

end Runs

end Elemta.Mailbox
