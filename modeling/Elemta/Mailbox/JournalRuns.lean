import Elemta.Mailbox.Journal

/-!
# Answers from the journal are complete

Every step of a run leaves a folder's rows alone or enters in the journal what it changes,
and a compaction that drops an entry leaves the floor at its MODSEQ or above. So whoever
has the rows of an earlier MODSEQ that is not below the floor finds an entry for every row
that has changed since.
-/

namespace Elemta.Mailbox

open Bytes ChangeLog Slots

/-! ## Steps of a folder -/

structure Folder.Pruned (f f' : Folder) : Prop where
  id : f'.id = f.id
  validity : f'.validity = f.validity
  messages : f'.messages = f.messages
  next : f'.next = f.next
  modseq : f'.modseq = f.modseq
  floor : f.floor ≤ f'.floor
  kept : ∀ c ∈ f.changes, f'.floor < c.modseq → c ∈ f'.changes

def Folder.Moves (f f' : Folder) : Prop :=
  (∃ now, f.Evolves now f') ∨ f.Pruned f'

/-- The content between two states of a folder: a row is the new one when its change has a MODSEQ up
to the given one. -/
def rowsAt (f f' : Folder) (modseq : Nat) : Content Nat Message :=
  overwrite f'.row f.row (touched f'.log modseq)

section Moves

variable {f f' : Folder} {since : Nat} {rows : Content Nat Message}

theorem mem_log {e : Entry Nat} : e ∈ f.log ↔ ∃ c ∈ f.changes, c.entry = e :=
  List.mem_map

section

variable (h : f.Moves f')

include h

theorem Folder.Moves.id : f'.id = f.id := by
  rcases h with ⟨now, h⟩ | h
  · exact h.id
  · exact h.id

theorem Folder.Moves.validity : f'.validity = f.validity := by
  rcases h with ⟨now, h⟩ | h
  · exact h.validity
  · exact h.validity

theorem Folder.Moves.modseq : f.modseq ≤ f'.modseq := by
  rcases h with ⟨now, h⟩ | h
  · exact h.modseq
  · exact Nat.le_of_eq h.modseq.symm

theorem Folder.Moves.next : f.next ≤ f'.next := by
  rcases h with ⟨now, h⟩ | h
  · exact h.next
  · exact Nat.le_of_eq h.next.symm

theorem Folder.Moves.uids :
    ∀ m' ∈ f'.messages, m'.uid < f.next → ∃ m ∈ f.messages, m.uid = m'.uid ∧ m.body = m'.body := by
  rcases h with ⟨now, h⟩ | h
  · exact h.uids
  · exact fun m' hm' _ => ⟨m', h.messages ▸ hm', rfl, rfl⟩

theorem Folder.Moves.raised (hne : f'.messages ≠ f.messages) : f.modseq < f'.modseq := by
  rcases h with ⟨now, h⟩ | h
  · exact h.raised hne
  · exact absurd h.messages hne

end

theorem Folder.Pruned.row (h : f.Pruned f') : f'.row = f.row := by
  funext uid
  simp only [Folder.row, h.messages]

/-- The rows that a transaction changes are in the part of the journal that it adds. -/
theorem Folder.Evolves.covers {now : Time} (h : f.Evolves now f') (hf : f.Ordered)
    (hsince : since ≤ f.modseq) :
    ∃ new, f'.log = f.log ++ new ∧ Covers new since f.row f'.row ∧ Covers new since f'.row f.row := by
  obtain ⟨new, hchanges, hnew, hrows⟩ := h.journal
  have hentry : ∀ uid, f.row uid ≠ f'.row uid → ∃ e ∈ new.map Change.entry, since < e.number ∧ e.key = uid := by
    intro uid hne
    obtain ⟨c, hc, huid⟩ := hrows hf uid hne
    exact ⟨c.entry, List.mem_map_of_mem hc, Nat.lt_of_le_of_lt hsince (hnew c hc).1, huid⟩
  refine ⟨new.map Change.entry, ?_, hentry, fun uid hne => hentry uid (Ne.symm hne)⟩
  rw [log, hchanges, List.map_append]
  rfl

theorem Folder.Moves.covers (h : f.Moves f') (hf : f.Ordered) (hsince : since ≤ f.modseq)
    (hrows : f.floor ≤ since → Covers f.log since rows f.row) (hfloor : f'.floor ≤ since) :
    Covers f'.log since rows f'.row := by
  rcases h with ⟨now, h⟩ | h
  · obtain ⟨new, hlog, hnew, -⟩ := h.covers hf hsince
    rw [hlog]
    exact (hrows (h.floor ▸ hfloor)).append hnew
  rw [h.row]
  refine (hrows (Nat.le_trans h.floor hfloor)).prune fun e he hnumber => ?_
  obtain ⟨c, hc, rfl⟩ := mem_log.1 he
  exact mem_log.2 ⟨c, h.kept c hc (Nat.lt_of_le_of_lt hfloor hnumber), rfl⟩

/-- At the MODSEQ that the folder had, the content is what it was. -/
theorem rowsAt_start (h : f.Moves f') (hf : f.Ordered) : rowsAt f f' f.modseq = f.row := by
  refine Covers.overwrite_touched ?_
  rcases h with ⟨now, h⟩ | h
  · obtain ⟨new, hlog, -, hnew⟩ := h.covers hf (Nat.le_refl _)
    rw [hlog]
    exact (Covers.refl f.log _ f'.row).append hnew
  rw [h.row]
  exact .refl _ _ _

theorem touched_eq_nil (hf : f.Ordered) (hsince : f.modseq ≤ since) : touched f.log since = [] := by
  refine List.eq_nil_iff_forall_not_mem.2 fun uid huid => ?_
  obtain ⟨e, he, hnumber, -⟩ := mem_touched.1 huid
  obtain ⟨c, hc, rfl⟩ := mem_log.1 he
  exact Nat.not_lt.2 (Nat.le_trans (hf.changes c hc) hsince) hnumber

theorem rowsAt_end (hf' : f'.Ordered) : rowsAt f f' f'.modseq = f'.row := by
  funext uid
  simp [rowsAt, overwrite, touched_eq_nil hf' (Nat.le_refl _)]

theorem covers_rowsAt (f f' : Folder) : Covers f'.log since (rowsAt f f' since) f'.row := by
  intro uid hne
  unfold rowsAt overwrite at hne
  split at hne
  · rename_i htouched
    exact mem_touched.1 htouched
  · exact absurd rfl hne

/-- A later state of `origin`, whose journal leads to its rows from those of the MODSEQ `since`. -/
structure Folder.Later (origin : Folder) (since : Nat) (rows : Content Nat Message) (f : Folder) : Prop where
  since_le : since ≤ f.modseq
  modseq : origin.modseq ≤ f.modseq
  next : origin.next ≤ f.next
  uids : ∀ m ∈ f.messages, m.uid < origin.next → ∃ m₁ ∈ origin.messages, m₁.uid = m.uid ∧ m₁.body = m.body
  raised : f.messages ≠ origin.messages → origin.modseq < f.modseq
  covers : f.floor ≤ since → Covers f.log since rows f.row

/-- The state right after, for a MODSEQ that the step has passed. -/
theorem Folder.Moves.later (h : f.Moves f') (hsince : since ≤ f'.modseq) :
    f.Later since (rowsAt f f' since) f' where
  since_le := hsince
  modseq := h.modseq
  next := h.next
  uids := h.uids
  raised := h.raised
  covers _ := covers_rowsAt f f'

theorem Folder.Later.moves {origin : Folder} (h : origin.Later since rows f) (hf : f.Ordered)
    (hmoves : f.Moves f') : origin.Later since rows f' where
  since_le := Nat.le_trans h.since_le hmoves.modseq
  modseq := Nat.le_trans h.modseq hmoves.modseq
  next := Nat.le_trans h.next hmoves.next
  uids m hm hlt := by
    obtain ⟨m', hm', huid, hbody⟩ := hmoves.uids m hm (Nat.lt_of_lt_of_le hlt h.next)
    obtain ⟨m₁, hm₁, huid₁, hbody₁⟩ := h.uids m' hm' (huid ▸ hlt)
    exact ⟨m₁, hm₁, huid₁.trans huid, hbody₁.trans hbody⟩
  raised hne := by
    by_cases hsame : f.messages = origin.messages
    · exact Nat.lt_of_le_of_lt h.modseq (hmoves.raised (hsame ▸ hne))
    · exact Nat.lt_of_lt_of_le (h.raised hsame) hmoves.modseq
  covers hfloor := hmoves.covers hf h.since_le h.covers hfloor

/-! ## What a client makes of an answer -/

theorem find_changed (f : Folder) (uids : List Nat) (uid : Nat) :
    ((f.messages.filter fun m => decide (m.uid ∈ uids)).find? fun m => m.uid == uid) =
      if uid ∈ uids then f.row uid else none := by
  rw [List.find?_filter]
  split
  · rename_i hin
    refine congrArg (List.find? · f.messages) (funext fun m => ?_)
    by_cases huid : m.uid = uid
    · simp [huid, hin]
    · simp [huid]
  · rename_i hin
    refine List.find?_eq_none.2 fun m _ hm => hin ?_
    obtain ⟨hmem, huid⟩ : m.uid ∈ uids ∧ m.uid = uid := by simpa using hm
    exact huid ▸ hmem

theorem apply_changed (uids : List Nat) (complete : Bool) :
    (FolderChanges.mk (f.messages.filter fun m => decide (m.uid ∈ uids))
      (uids.filter fun u =>
        decide (u ∉ (f.messages.filter fun m => decide (m.uid ∈ uids)).map Message.uid))
      complete).apply rows = overwrite rows f.row uids := by
  funext uid
  have hfind := find_changed f uids uid
  unfold FolderChanges.apply overwrite
  rw [hfind]
  by_cases hin : uid ∈ uids
  · rw [if_pos hin, if_pos hin]
    rw [if_pos hin] at hfind
    cases hrow : f.row uid with
    | none =>
      refine if_pos (List.mem_filter.2 ⟨hin, decide_eq_true ?_⟩)
      intro hmem
      obtain ⟨m, hm, huid⟩ := List.mem_map.1 hmem
      exact Folder.row_eq_none.1 hrow m (List.mem_filter.1 hm).1 huid
    | some m =>
      rw [hrow] at hfind
      refine if_neg fun hgone => ?_
      have hnot := of_decide_eq_true (List.mem_filter.1 hgone).2
      exact hnot <| List.mem_map.2 ⟨m, List.mem_of_find?_eq_some hfind, by simpa using List.find?_some hfind⟩
  · rw [if_neg hin, if_neg hin]
    exact if_neg fun hgone => hin (List.mem_filter.1 hgone).1

theorem apply_changesSince (hf : f.Ordered) (hcomplete : (f.changesSince since).complete = true)
    (hrows : f.floor ≤ since → Covers f.log since rows f.row) :
    (f.changesSince since).apply rows = f.row := by
  unfold Folder.changesSince at hcomplete ⊢
  split at hcomplete
  · cases hcomplete
  rename_i hfloor
  have hcovers := hrows (Nat.not_lt.1 hfloor)
  rw [if_neg hfloor]
  split
  · -- nothing has changed, and there is nothing to apply
    rename_i hmodseq
    have hsame := hcovers.overwrite_touched
    rw [touched_eq_nil hf hmodseq] at hsame
    funext uid
    have huid := congrFun hsame uid
    simpa [overwrite, FolderChanges.apply] using huid
  · refine (apply_changed (f.touchedSince since) true).trans ?_
    have hsame := hcovers.overwrite_touched
    funext uid
    simp only [overwrite, Folder.touchedSince, List.mem_dedup]
    exact congrFun hsame uid

end Moves

namespace Journal

/-! ## The invariant -/

/-- An open compaction has raised the floor above every entry that is too old for it. -/
structure CompactionOk (s : State) (c : Compaction) : Prop where
  early : c.cutoff ≤ s.clock - hourTime
  raised : ∀ r ∈ c.raised, r.1 < s.nextFolder
  known : ∀ r ∈ c.deleted, r.1 < s.nextFolder
  floors : c.isOpen = true → ∀ f ∈ s.account.folders, f.floor ≤ c.floorOf f ∧ c.floorOf f ≤ f.modseq
  old : c.isOpen = true → ∀ f ∈ s.account.folders, ∀ change ∈ f.changes,
    change.created < c.cutoff → change.modseq ≤ c.floorOf f
  deleted : c.phase = .commit → ∀ f ∈ s.account.folders, ∀ n, (f.id, n) ∈ c.deleted →
    n ≤ c.floorOf f

structure Intact (s : State) : Prop where
  sound : s.account.Sound
  drawn : ∀ f ∈ s.account.folders, f.id < s.nextFolder
  ordered : ∀ f ∈ s.account.folders, f.Ordered
  compactions : ∀ c ∈ s.compactions, CompactionOk s c
  apart : Apart Compaction.locks s.compactions

section Steps

variable {s : State} {i : Nat} {c d : Compaction} {f f' : Folder} {now : Time}

variable {a : Account} {origin : Folder} {rows : Content Nat Message} {since : Nat}

theorem Write.run_spec (hfresh : s.nextFolder ∉ s.account.folders.map Folder.id) {w : Write}
    (h : Write.run s now w = .ok a) :
    (s.account.Sound → a.Sound) ∧ s.account.Evolves now s.nextFolder a := by
  cases w with
  | append name u leased =>
    obtain ⟨⟨_, r, duplicate⟩, hok, rfl⟩ := ok_of_map h
    refine ⟨?_, publish_evolves hok⟩
    cases duplicate with
    | false => exact (publish_published hok).2.sound
    | true =>
      rcases Account.publish_ok hok with ⟨-, rfl⟩ | ⟨hnew, -⟩
      · exact fun hsound => hsound
      · cases hnew
  | mutateFlags name uids flags op since =>
    obtain ⟨⟨_, modified⟩, hok, rfl⟩ := ok_of_map h
    exact ⟨(mutateFlagsIf_step hok).sound, mutateFlagsIf_evolves hok⟩
  | expunge name uids requireDeleted held =>
    obtain ⟨⟨_, removed⟩, hok, rfl⟩ := ok_of_map h
    exact ⟨(expunge_step hok).sound, expunge_evolves hok⟩
  | deleteFolder name held =>
    obtain ⟨⟨_, removed⟩, hok, rfl⟩ := ok_of_map h
    exact ⟨(deleteFolder_step hok).sound, deleteFolder_evolves hok⟩
  | copyMove src dst uids move ready =>
    obtain ⟨⟨_, r⟩, hok, rfl⟩ := ok_of_map h
    exact ⟨(copyMove_step hok).sound, copyMove_evolves hok⟩
  | create name => exact ⟨(create_step hfresh h).sound, create_evolves h⟩
  | rename old new => exact ⟨(rename_step h).sound, rename_evolves h⟩

theorem Intact.fresh (h : Intact s) : s.nextFolder ∉ s.account.folders.map Folder.id := by
  intro hmem
  obtain ⟨f, hf, hid⟩ := List.mem_map.1 hmem
  exact Nat.lt_irrefl _ (hid ▸ h.drawn f hf)

theorem floorOf_congr (hid : f'.id = f.id) (hfloor : f'.floor = f.floor) : c.floorOf f' = c.floorOf f := by
  simp only [Compaction.floorOf, hid, hfloor]

theorem floorOf_of_notMem (h : ∀ r ∈ c.raised, r.1 ≠ f.id) : c.floorOf f = f.floor := by
  have hnone : c.raised.find? (fun r => r.1 == f.id) = none :=
    List.find?_eq_none.2 fun r hr hid => h r hr (by simpa using hid)
  simp only [Compaction.floorOf, hnone]

theorem not_old {clock begun cutoff : Nat} (hcutoff : cutoff ≤ clock - 3600000000)
    (hbegun : clock < begun + 45000000) : ¬ begun < cutoff := by
  omega

/-- A transaction that commits is too young for every compaction. -/
theorem CompactionOk.write (h : CompactionOk s c) {begun : Time}
    (htime : s.clock < begun + callTimeout) (hevolves : s.account.Evolves begun s.nextFolder a)
    (nextValidity : Nat) :
    CompactionOk { s with account := a, nextFolder := s.nextFolder + 1, nextValidity := nextValidity } c := by
  have hfresh : ∀ f : Folder, f.Fresh s.nextFolder → c.floorOf f = 0 := by
    intro f hf
    refine (floorOf_of_notMem fun r hr hid => ?_).trans hf.floor
    rw [hf.id] at hid
    exact Nat.lt_irrefl _ (hid ▸ h.raised r hr)
  have hyoung : ¬ begun < c.cutoff := not_old h.early htime
  refine ⟨h.early, fun r hr => Nat.lt_succ_of_lt (h.raised r hr),
    fun r hr => Nat.lt_succ_of_lt (h.known r hr), fun hopen f' hf' => ?_,
    fun hopen f' hf' change hchange hold => ?_, fun hphase f' hf' n hn => ?_⟩
  · rcases hevolves f' hf' with ⟨f, hf, hstep⟩ | hnew
    · obtain ⟨hlow, hhigh⟩ := h.floors hopen f hf
      rw [floorOf_congr hstep.id hstep.floor, hstep.floor]
      exact ⟨hlow, Nat.le_trans hhigh hstep.modseq⟩
    · rw [hfresh f' hnew, hnew.floor]
      exact ⟨Nat.le_refl _, Nat.zero_le _⟩
  · rcases hevolves f' hf' with ⟨f, hf, hstep⟩ | hnew
    · obtain ⟨new, hchanges, hentries, -⟩ := hstep.journal
      rw [hchanges] at hchange
      rw [floorOf_congr hstep.id hstep.floor]
      rcases List.mem_append.1 hchange with hbefore | hadded
      · exact h.old hopen f hf change hbefore hold
      · rw [(hentries change hadded).2] at hold
        exact absurd hold hyoung
    · rw [hnew.changes] at hchange
      cases hchange
  · rcases hevolves f' hf' with ⟨f, hf, hstep⟩ | hnew
    · rw [floorOf_congr hstep.id hstep.floor]
      exact h.deleted hphase f hf n (hstep.id ▸ hn)
    · have hlt := h.known _ hn
      rw [hnew.id] at hlt
      exact absurd hlt (Nat.lt_irrefl _)

theorem Intact.write (h : Intact s) (w : Write) (begun : Time) : Intact (s.write w begun) := by
  unfold State.write
  split
  · rename_i htime
    have hwrite : ∀ a : Account, (s.account.Sound → a.Sound) ∧ s.account.Evolves begun s.nextFolder a →
        Intact { s with
          account := a, nextFolder := s.nextFolder + 1, nextValidity := s.nextValidity + 1 } := by
      rintro a ⟨hsound, hevolves⟩
      refine ⟨hsound h.sound, fun f' hf' => ?_, fun f' hf' => ?_,
        fun c hc => (h.compactions c hc).write htime.2 hevolves _, h.apart⟩
      · rcases hevolves f' hf' with ⟨f, hf, hstep⟩ | hnew
        · exact hstep.id ▸ Nat.lt_succ_of_lt (h.drawn f hf)
        · exact hnew.id ▸ Nat.lt_succ_self _
      · rcases hevolves f' hf' with ⟨f, hf, hstep⟩ | hnew
        · exact hstep.ordered (h.ordered f hf)
        · refine ⟨?_, ?_, ?_, hnew.floor ▸ Nat.zero_le _⟩
          · rw [hnew.messages]
            exact List.Pairwise.nil
          · rw [hnew.messages]
            exact nofun
          · rw [hnew.changes]
            exact nofun
    split
    · exact hwrite s.account ⟨fun hsound => hsound, .refl _ _ _⟩
    · rename_i a hrun
      exact hwrite a (Write.run_spec h.fresh hrun)
  · exact h

/-! ## Compactions -/

theorem CompactionOk.tables (h : CompactionOk s c) (compactions : List Compaction) :
    CompactionOk { s with compactions := compactions } c :=
  ⟨h.early, h.raised, h.known, h.floors, h.old, h.deleted⟩

/-- A compaction goes on, and locks no folder that another has locked. -/
theorem Intact.setCompaction (h : Intact s) (hc : s.compactions[i]? = some c) (hok : CompactionOk s d)
    (hlocks : ∀ folder, d.locks folder = true → c.locks folder = true ∨
      ∀ other ∈ s.compactions, other.locks folder = false) : Intact (s.setCompaction i d) where
  sound := h.sound
  drawn := h.drawn
  ordered := h.ordered
  compactions := forall_set (fun e he => (h.compactions e he).tables _) (hok.tables _)
  apart := h.apart.set hc hlocks

theorem Intact.finish (h : Intact s) (hc : s.compactions[i]? = some c) :
    Intact (s.setCompaction i { c with phase := .finished }) := by
  have hok := h.compactions c (List.mem_of_getElem? hc)
  refine h.setCompaction hc ⟨hok.early, hok.raised, hok.known, nofun, nofun, nofun⟩ fun folder hlock => ?_
  simp [Compaction.locks, Compaction.isOpen] at hlock

/-- The floor that a compaction has in mind is the newest of the old entries, or what it was. -/
theorem raiseTo_bounds (hf : f.Ordered) (cutoff : Time) :
    f.floor ≤ (f.raiseTo cutoff).getD f.floor ∧ (f.raiseTo cutoff).getD f.floor ≤ f.modseq := by
  have hstay : f.floor ≤ f.floor ∧ f.floor ≤ f.modseq := ⟨Nat.le_refl _, hf.floor⟩
  unfold Folder.raiseTo
  split
  · exact hstay
  rename_i newest hnewest
  split
  · rename_i hlt
    obtain ⟨change, hchange, hmodseq⟩ := List.mem_map.1 (List.max?_mem hnewest)
    exact ⟨Nat.le_of_lt hlt, hmodseq ▸ hf.changes change (List.mem_filter.1 hchange).1⟩
  · exact hstay

theorem raiseTo_old {cutoff : Time} {change : Change} (hchange : change ∈ f.changes)
    (hold : change.created < cutoff) : change.modseq ≤ (f.raiseTo cutoff).getD f.floor := by
  have hmem : change.modseq ∈
      (f.changes.filter fun c => decide (c.created < cutoff)).map Change.modseq :=
    List.mem_map_of_mem (List.mem_filter.2 ⟨hchange, decide_eq_true hold⟩)
  unfold Folder.raiseTo
  split
  · rename_i hnone
    rw [List.max?_eq_none_iff.1 hnone] at hmem
    cases hmem
  rename_i newest hnewest
  have hle : change.modseq ≤ newest := (List.max?_eq_some_iff.1 hnewest).2 _ hmem
  split
  · exact hle
  · rename_i hfloor
    exact Nat.le_trans hle (Nat.not_lt.1 hfloor)

theorem floorOf_raises (hnodup : (s.account.folders.map Folder.id).Nodup) (hf : f ∈ s.account.folders)
    (hraised : c.raised = s.account.raises c.cutoff) :
    c.floorOf f = (f.raiseTo c.cutoff).getD f.floor := by
  have howner : ∀ r ∈ c.raised, r.1 = f.id → f.raiseTo c.cutoff = some r.2 := by
    intro r hr hid
    rw [hraised] at hr
    obtain ⟨g, hg, hraise⟩ := List.mem_filterMap.1 hr
    obtain ⟨top, htop, rfl⟩ := Option.map_eq_some_iff.1 hraise
    rw [List.inj_on_of_nodup_map hnodup hg hf hid] at htop
    exact htop
  unfold Compaction.floorOf
  cases hfind : c.raised.find? fun r => r.1 == f.id with
  | none =>
    cases hraise : f.raiseTo c.cutoff with
    | none => rfl
    | some top =>
      have hin : (f.id, top) ∈ c.raised := by
        rw [hraised]
        exact List.mem_filterMap.2 ⟨f, hf, by simp [hraise]⟩
      exact absurd (List.find?_eq_none.1 hfind _ hin) (by simp)
  | some r =>
    have hid : r.1 = f.id := by simpa using List.find?_some hfind
    rw [howner r (List.mem_of_find?_eq_some hfind) hid]
    rfl

theorem Intact.raise (h : Intact s) (hc : s.compactions[i]? = some c)
    (hfree : ((s.account.raises c.cutoff).any fun r =>
      s.compactions.any fun other => other.locks r.1) = false) :
    Intact (s.setCompaction i { c with raised := s.account.raises c.cutoff, phase := .delete }) := by
  have hok := h.compactions c (List.mem_of_getElem? hc)
  have hfloor : ∀ f ∈ s.account.folders,
      ({ c with raised := s.account.raises c.cutoff, phase := .delete } : Compaction).floorOf f =
        (f.raiseTo c.cutoff).getD f.floor := fun f hf => floorOf_raises h.sound.ids hf rfl
  refine h.setCompaction hc ⟨hok.early, fun r hr => ?_, hok.known, fun _ f hf => ?_,
    fun _ f hf change hchange hold => ?_, nofun⟩ fun folder hlock => .inr fun other hother => ?_
  · obtain ⟨f, hf, hraise⟩ := List.mem_filterMap.1 hr
    obtain ⟨top, -, rfl⟩ := Option.map_eq_some_iff.1 hraise
    exact h.drawn f hf
  · rw [hfloor f hf]
    exact raiseTo_bounds (h.ordered f hf) c.cutoff
  · rw [hfloor f hf]
    exact raiseTo_old hchange hold
  · simp only [Compaction.locks, Bool.and_eq_true, List.any_eq_true, beq_iff_eq] at hlock
    obtain ⟨-, r, hr, rfl⟩ := hlock
    have hno := List.any_eq_false.1 hfree r hr
    exact Bool.eq_false_iff.2 fun htrue => hno (List.any_eq_true.2 ⟨other, hother, htrue⟩)

theorem Intact.delete (h : Intact s) (hc : s.compactions[i]? = some c) (hphase : c.phase = .delete) :
    Intact (s.setCompaction i { c with deleted := s.account.oldEntries c.cutoff, phase := .commit }) := by
  have hok := h.compactions c (List.mem_of_getElem? hc)
  have hopen : c.isOpen = true := by simp [Compaction.isOpen, hphase]
  have hentries : ∀ r ∈ s.account.oldEntries c.cutoff, ∃ f ∈ s.account.folders, ∃ change ∈ f.changes,
      change.created < c.cutoff ∧ r = (f.id, change.modseq) := by
    intro r hr
    obtain ⟨f, hf, hr⟩ := List.mem_flatMap.1 hr
    obtain ⟨change, hchange, rfl⟩ := List.mem_map.1 hr
    obtain ⟨hin, hold⟩ := List.mem_filter.1 hchange
    exact ⟨f, hf, change, hin, of_decide_eq_true hold, rfl⟩
  refine h.setCompaction hc ⟨hok.early, hok.raised, fun r hr => ?_, fun _ => hok.floors hopen,
    fun _ => hok.old hopen, fun _ f hf n hn => ?_⟩ fun folder hlock => .inl ?_
  · obtain ⟨f, hf, change, -, -, rfl⟩ := hentries r hr
    exact h.drawn f hf
  · obtain ⟨g, hg, change, hchange, hold, heq⟩ := hentries _ hn
    obtain ⟨hid, rfl⟩ := Prod.mk.inj heq
    obtain rfl := List.inj_on_of_nodup_map h.sound.ids hf hg hid
    exact hok.old hopen f hf change hchange hold
  · simpa [Compaction.locks, Compaction.isOpen, hphase] using hlock

theorem locks_of_find {r : Nat × Nat} (hopen : d.isOpen = true)
    (hfind : (d.raised.find? fun r => r.1 == f.id) = some r) : d.locks f.id = true := by
  simp only [Compaction.locks, hopen, Bool.true_and]
  exact List.any_eq_true.2 ⟨r, List.mem_of_find?_eq_some hfind, by simpa using List.find?_some hfind⟩

/-- What another compaction has in mind for a folder when one has committed: a folder that it has
locked is as it was. -/
theorem floorOf_compact (hcopen : c.isOpen = true) (hdopen : d.isOpen = true)
    (hapart : ∀ folder, d.locks folder = true → c.locks folder = false)
    (hfloor : f.floor ≤ c.floorOf f) :
    (d.floorOf (c.compact f) = d.floorOf f ∧ c.floorOf f = f.floor) ∨
      (d.floorOf (c.compact f) = c.floorOf f ∧ d.floorOf f ≤ c.floorOf f) := by
  cases hfind : d.raised.find? fun r => r.1 == f.id with
  | none =>
    right
    have hsame : d.floorOf f = f.floor := by simp only [Compaction.floorOf, hfind]
    refine ⟨?_, hsame ▸ hfloor⟩
    have hfind' : (d.raised.find? fun r => r.1 == (c.compact f).id) = none := hfind
    rw [Compaction.floorOf, hfind']
    rfl
  | some r =>
    left
    have hfree := hapart f.id (locks_of_find hdopen hfind)
    have hnone : (c.raised.find? fun r => r.1 == f.id) = none := by
      cases hraised : c.raised.find? fun r => r.1 == f.id with
      | none => rfl
      | some r' =>
        rw [locks_of_find hcopen hraised] at hfree
        cases hfree
    have hfind' : (d.raised.find? fun r => r.1 == (c.compact f).id) = some r := hfind
    exact ⟨by simp only [Compaction.floorOf, hfind, hfind'], by simp only [Compaction.floorOf, hnone]⟩

def State.compacted (s : State) (c : Compaction) : State :=
  { s with account := { s.account with folders := s.account.folders.map c.compact } }

theorem CompactionOk.compacted (h : CompactionOk s d) (hc : CompactionOk s c) (hopen : c.isOpen = true)
    (hapart : ∀ folder, d.locks folder = true → c.locks folder = false) :
    CompactionOk (s.compacted c) d := by
  have hcases := fun (hdopen : d.isOpen = true) (f : Folder) (hf : f ∈ s.account.folders) =>
    floorOf_compact hopen hdopen hapart (hc.floors hopen f hf).1
  have hmono : ∀ f ∈ s.account.folders, d.isOpen = true → d.floorOf f ≤ d.floorOf (c.compact f) := by
    intro f hf hdopen
    rcases hcases hdopen f hf with ⟨hsame, -⟩ | ⟨hnow, hle⟩
    · exact Nat.le_of_eq hsame.symm
    · rw [hnow]
      exact hle
  refine ⟨h.early, h.raised, h.known, fun hdopen f' hf' => ?_, fun hdopen f' hf' change hchange hold => ?_,
    fun hphase f' hf' n hn => ?_⟩
  · obtain ⟨f, hf, rfl⟩ := List.mem_map.1 hf'
    have hfloor : (c.compact f).floor = c.floorOf f := rfl
    have hmodseq : (c.compact f).modseq = f.modseq := rfl
    rw [hfloor]
    rcases hcases hdopen f hf with ⟨hsame, hkept⟩ | ⟨hnow, -⟩
    · rw [hsame, hkept]
      exact h.floors hdopen f hf
    · rw [hnow]
      exact ⟨Nat.le_refl _, (hc.floors hopen f hf).2⟩
  · obtain ⟨f, hf, rfl⟩ := List.mem_map.1 hf'
    have hle := h.old hdopen f hf change (List.mem_filter.1 hchange).1 hold
    exact Nat.le_trans hle (hmono f hf hdopen)
  · obtain ⟨f, hf, rfl⟩ := List.mem_map.1 hf'
    have hdopen : d.isOpen = true := by simp [Compaction.isOpen, hphase]
    exact Nat.le_trans (h.deleted hphase f hf n hn) (hmono f hf hdopen)

theorem messages_compacted : (s.compacted c).account.messages = s.account.messages := by
  simp only [Account.messages, State.compacted, List.flatMap_map]
  rfl

theorem Intact.commit (h : Intact s) (hc : s.compactions[i]? = some c) (hphase : c.phase = .commit) :
    Intact ((s.compacted c).setCompaction i { c with phase := .finished }) := by
  have hok := h.compactions c (List.mem_of_getElem? hc)
  have hopen : c.isOpen = true := by simp [Compaction.isOpen, hphase]
  refine ⟨⟨?_, ?_⟩, fun f' hf' => ?_, fun f' hf' => ?_, fun d hd => ?_, ?_⟩
  · have hids : (s.compacted c).account.folders.map Folder.id = s.account.folders.map Folder.id := by
      simp only [State.compacted, List.map_map]
      rfl
    exact hids ▸ h.sound.ids
  · exact h.sound.balanced.trans (congrArg totalSize (messages_compacted).symm)
  · obtain ⟨f, hf, rfl⟩ := List.mem_map.1 hf'
    exact h.drawn f hf
  · obtain ⟨f, hf, rfl⟩ := List.mem_map.1 hf'
    have hf := h.ordered f hf
    exact ⟨hf.uids, hf.next, fun change hchange => hf.changes change (List.mem_filter.1 hchange).1,
      (hok.floors hopen f ‹_›).2⟩
  · rcases mem_set_cases hd with rfl | ⟨j, hj, hd⟩
    · exact ⟨hok.early, hok.raised, hok.known, nofun, nofun, nofun⟩
    · have hother := (h.compactions d (List.mem_of_getElem? hd)).compacted hok hopen
        (h.apart j i d c hd hc hj)
      exact hother.tables _
  · exact (h.finish hc).apart

theorem Intact.step (h : Intact s) (input : Input) : Intact (step s input) := by
  cases input with
  | wait elapsed =>
    refine ⟨h.sound, h.drawn, h.ordered, fun c hc => ?_, h.apart⟩
    have hok := h.compactions c hc
    have hlater : c.cutoff ≤ s.clock + elapsed - hourTime :=
      Nat.le_trans hok.early (Nat.sub_le_sub_right (Nat.le_add_right _ _) _)
    exact ⟨hlater, hok.raised, hok.known, hok.floors, hok.old, hok.deleted⟩
  | write w begun => exact h.write w begun
  | beginCompaction hours =>
    simp only [Journal.step]
    split
    · rename_i hhours
      have hhour : hourTime ≤ hours * hourTime := Nat.le_mul_of_pos_left _ hhours
      exact ⟨h.sound, h.drawn, h.ordered,
        forall_concat (fun c hc => (h.compactions c hc).tables _)
          ⟨Nat.sub_le_sub_left hhour _, nofun, nofun, nofun, nofun, nofun⟩,
        h.apart.concat fun _ => rfl⟩
    · exact h
  | compact i effective =>
    simp only [Journal.step]
    split
    · exact h
    rename_i c hc
    fun_cases State.compactStep s i c effective with
    | case1 | case8 => exact h
    | case2 _ _ _ hfree => exact h.raise hc (Bool.eq_false_iff.2 hfree)
    | case4 hphase => exact h.delete hc hphase
    | case6 hphase => exact h.commit hc hphase
    | case3 | case5 | case7 => exact h.finish hc

theorem intact_init (id address : Bytes) (quota : Int) : Intact (State.init id address quota) where
  sound := ⟨List.nodup_singleton _, rfl⟩
  drawn := List.forall_mem_singleton.2 Nat.zero_lt_one
  ordered := List.forall_mem_singleton.2 ⟨List.Pairwise.nil, nofun, nofun, Nat.zero_le _⟩
  compactions := nofun
  apart := apart_nil

/-- Apart from transactions, only a compaction that commits changes the account. -/
theorem step_account (input : Input) :
    (∃ w begun, input = .write w begun) ∨
      (step s input).nextFolder = s.nextFolder ∧
        ((step s input).account = s.account ∨
          ∃ c ∈ s.compactions, c.phase = .commit ∧ (step s input).account = (s.compacted c).account) := by
  cases input with
  | wait elapsed => exact .inr ⟨rfl, .inl rfl⟩
  | write w begun => exact .inl ⟨w, begun, rfl⟩
  | beginCompaction hours =>
    simp only [step]
    split <;> exact .inr ⟨rfl, .inl rfl⟩
  | compact i effective =>
    simp only [step]
    split
    · exact .inr ⟨rfl, .inl rfl⟩
    rename_i c hc
    fun_cases State.compactStep s i c effective with
    | case6 hphase => exact .inr ⟨rfl, .inr ⟨c, List.mem_of_getElem? hc, hphase, rfl⟩⟩
    | _ => exact .inr ⟨rfl, .inl rfl⟩

theorem nextFolder_step (input : Input) : s.nextFolder ≤ (step s input).nextFolder := by
  rcases step_account input with ⟨w, begun, rfl⟩ | ⟨hnext, -⟩
  · simp only [step, State.write]
    split
    · split
      · exact Nat.le_succ _
      · exact Nat.le_succ _
    · exact Nat.le_refl _
  · exact Nat.le_of_eq hnext.symm

theorem write_cases (t : State) (w : Write) (begun : Time) :
    (step t (.write w begun)).account = t.account ∨
      Write.run t begun w = .ok (step t (.write w begun)).account := by
  simp only [step, State.write]
  split
  · split
    · exact .inl rfl
    · rename_i a hrun
      exact .inr hrun
  · exact .inl rfl

/-- A compaction that commits has deleted entries up to the floor that it leaves. -/
theorem compact_pruned (hok : CompactionOk s c) (hphase : c.phase = .commit) (hf : f ∈ s.account.folders) :
    f.Pruned (c.compact f) := by
  have hopen : c.isOpen = true := by simp [Compaction.isOpen, hphase]
  refine ⟨rfl, rfl, rfl, rfl, rfl, (hok.floors hopen f hf).1, fun change hchange hlt => ?_⟩
  refine List.mem_filter.2 ⟨hchange, decide_eq_true fun hdeleted => ?_⟩
  exact Nat.not_lt.2 (hok.deleted hphase f hf _ hdeleted) hlt

/-- A folder that has a number from before the step has come from the one that had it. -/
theorem Intact.came (h : Intact s) (input : Input) (hf' : f' ∈ (Journal.step s input).account.folders)
    (hknown : f'.id < s.nextFolder) : ∃ f ∈ s.account.folders, f.Moves f' := by
  have hstay : f' ∈ s.account.folders → ∃ f ∈ s.account.folders, f.Moves f' :=
    fun hin => ⟨f', hin, .inl ⟨0, .refl 0 f'⟩⟩
  rcases step_account input with ⟨w, begun, rfl⟩ | ⟨-, hsame | ⟨c, hc, hphase, hcompacted⟩⟩
  · rcases write_cases s w begun with hsame | hrun
    · exact hstay (hsame ▸ hf')
    · rcases (Write.run_spec h.fresh hrun).2 f' hf' with ⟨f, hf, hstep⟩ | hnew
      · exact ⟨f, hf, .inl ⟨begun, hstep⟩⟩
      · exact absurd hnew.id (Nat.ne_of_lt hknown)
  · exact hstay (hsame ▸ hf')
  · rw [hcompacted] at hf'
    obtain ⟨f, hf, rfl⟩ := List.mem_map.1 hf'
    exact ⟨f, hf, .inr (compact_pruned (h.compactions c hc) hphase hf)⟩

/-! ## Following a folder -/

structure Follows (origin : Folder) (since : Nat) (rows : Content Nat Message) (s : State) : Prop where
  known : origin.id < s.nextFolder
  later : ∀ f ∈ s.account.folders, f.id = origin.id → origin.Later since rows f

theorem Follows.step (h : Follows origin since rows s) (hs : Intact s) (input : Input) :
    Follows origin since rows (Journal.step s input) := by
  refine ⟨Nat.lt_of_lt_of_le h.known (nextFolder_step input), fun f' hf' hid => ?_⟩
  obtain ⟨f, hf, hmoves⟩ := hs.came input hf' (hid ▸ h.known)
  exact (h.later f hf (hmoves.id.symm.trans hid)).moves (hs.ordered f hf) hmoves

theorem follows_run (h : Follows origin since rows s) (hs : Intact s) (inputs : List Input) :
    Follows origin since rows (Machine.run step s inputs) := by
  have hboth : Intact s ∧ Follows origin since rows s := ⟨hs, h⟩
  exact (Machine.run_invariant (fun s => Intact s ∧ Follows origin since rows s)
    (fun s input hinv => ⟨hinv.1.step input, hinv.2.step hinv.1 input⟩) hboth inputs).2

theorem intact_run (id address : Bytes) (quota : Int) (inputs : List Input) :
    Intact (Machine.run step (.init id address quota) inputs) :=
  Machine.run_invariant Intact (fun _ input h => h.step input) (intact_init id address quota) inputs

theorem Intact.moves (h : Intact s) (input : Input) (hf : f ∈ s.account.folders)
    (hf' : f' ∈ (Journal.step s input).account.folders) (hid : f'.id = f.id) : f.Moves f' := by
  obtain ⟨g, hg, hmoves⟩ := h.came input hf' (hid ▸ h.drawn f hf)
  have hgf : g = f := List.inj_on_of_nodup_map h.sound.ids hg hf (hmoves.id.symm.trans hid)
  exact hgf ▸ hmoves

theorem changes_of_mem (h : Intact s) (hf : f ∈ s.account.folders) (since : Nat) :
    s.account.changes f.id since = .ok (f.changesSince since) := by
  unfold Account.changes
  split
  · rename_i hnone
    exact absurd (List.find?_eq_none.1 hnone f hf) (by simp)
  · rename_i g hfound
    have hid : g.id = f.id := by simpa using List.find?_some hfound
    rw [List.inj_on_of_nodup_map h.sound.ids (List.mem_of_find?_eq_some hfound) hf hid]

end Steps

/-- In every run, `before`, `input` and `after`, with the states of a folder before and after `input` and
at the end: a complete answer for a MODSEQ that the folder passed at `input` leads from the content
at that MODSEQ to the content at the end. Nothing gets a UID below those that the folder has given
out, and what changes raises the MODSEQ. -/
theorem changes_complete (id address : Bytes) (quota : Int) (before after : List Input) (input : Input)
    {f₁ f₂ f : Folder}
    (h₁ : f₁ ∈ (Machine.run step (.init id address quota) before).account.folders)
    (h₂ : f₂ ∈ (Machine.run step (.init id address quota) (before ++ [input])).account.folders)
    (h : f ∈ (Machine.run step (.init id address quota) (before ++ input :: after)).account.folders)
    (hid₂ : f₂.id = f₁.id) (hid : f.id = f₁.id) :
    (∀ since c, f₁.modseq ≤ since → since ≤ f₂.modseq →
      (Machine.run step (.init id address quota) (before ++ input :: after)).account.changes f₁.id since =
        .ok c → c.complete = true → c.apply (rowsAt f₁ f₂ since) = f.row) ∧
    rowsAt f₁ f₂ f₁.modseq = f₁.row ∧ rowsAt f₁ f₂ f₂.modseq = f₂.row ∧
    (f.messages.map Message.uid).Pairwise (· < ·) ∧ (∀ m ∈ f.messages, m.uid < f.next) ∧
    f₁.next ≤ f.next ∧
    (∀ m ∈ f.messages, m.uid < f₁.next → ∃ m₁ ∈ f₁.messages, m₁.uid = m.uid ∧ m₁.body = m.body) ∧
    f₁.modseq ≤ f.modseq ∧ (f.messages ≠ f₁.messages → f₁.modseq < f.modseq) := by
  have hs₁ := intact_run id address quota before
  have hs₂ := intact_run id address quota (before ++ [input])
  have hs := intact_run id address quota (before ++ input :: after)
  have hmoves : f₁.Moves f₂ := by
    rw [Machine.run_append] at h₂
    exact hs₁.moves input h₁ h₂ hid₂
  have hlater : ∀ since, since ≤ f₂.modseq → f₁.Later since (rowsAt f₁ f₂ since) f := by
    intro since hsince
    have hstart : Follows f₁ since (rowsAt f₁ f₂ since)
        (Machine.run step (.init id address quota) (before ++ [input])) := by
      refine ⟨hid₂ ▸ hs₂.drawn f₂ h₂, fun g hg hgid => ?_⟩
      rw [List.inj_on_of_nodup_map hs₂.sound.ids hg h₂ (hgid.trans hid₂.symm)]
      exact hmoves.later hsince
    have hend := follows_run hstart hs₂ after
    rw [← Machine.run_append, List.append_assoc] at hend
    exact hend.later f h hid
  have hnow := hlater f₂.modseq (Nat.le_refl _)
  refine ⟨fun since c _ hsince hok hcomplete => ?_, rowsAt_start hmoves (hs₁.ordered f₁ h₁),
    rowsAt_end (hs₂.ordered f₂ h₂), (hs.ordered f h).uids, (hs.ordered f h).next, hnow.next, hnow.uids,
    hnow.modseq, hnow.raised⟩
  rw [← hid, changes_of_mem hs h] at hok
  cases hok
  exact apply_changesSince (hs.ordered f h) hcomplete (hlater since hsince).covers

/-- One message arrives, and the journal is compacted two hours later; then another arrives. -/
def compacted : List Input :=
  let message (key : Nat) : Upload :=
    { key := key, size := 1, checksum := [], flags := [], date := 0, token := [] }
  [.write (.append inbox (message 7) true) 0, .wait (2 * hourTime), .beginCompaction 1, .compact 0 true,
    .compact 0 true, .compact 0 true, .write (.append inbox (message 8) true) (2 * hourTime)]

def flagged : Input :=
  .write (.mutateFlags inbox [2] [lit "\\seen"] .add 0) (2 * hourTime)

def removed : Input :=
  .write (.expunge inbox [1] false false) (2 * hourTime)

def inboxAfter (inputs : List Input) : Folder :=
  (Machine.run step (.init (lit "a") (lit "ann@example.org") 0) inputs).account.folders.headD
    (newFolder 0 0 inbox)

theorem changes_complete_compacted :
    (inboxAfter (compacted ++ [flagged, removed])).floor = 2 ∧
    (inboxAfter compacted).modseq = 3 ∧
    ((inboxAfter (compacted ++ [flagged, removed])).changesSince 3).gone = [1] ∧
    ((inboxAfter (compacted ++ [flagged, removed])).changesSince 3).apply (inboxAfter compacted).row =
      (inboxAfter (compacted ++ [flagged, removed])).row := by
  have hcomplete := @changes_complete (lit "a") (lit "ann@example.org") 0 compacted [removed] flagged
    (inboxAfter compacted) (inboxAfter (compacted ++ [flagged]))
    (inboxAfter (compacted ++ [flagged, removed]))
    (by decide +kernel) (by decide +kernel) (by decide +kernel) (by decide +kernel) (by decide +kernel)
  have happly := hcomplete.1 3 _ (by decide +kernel) (by decide +kernel)
    (by decide +kernel : _ = Except.ok ((inboxAfter (compacted ++ [flagged, removed])).changesSince 3))
    (by decide +kernel)
  refine ⟨by decide +kernel, by decide +kernel, by decide +kernel, ?_⟩
  have hstart : rowsAt (inboxAfter compacted) (inboxAfter (compacted ++ [flagged])) 3 =
      (inboxAfter compacted).row := by
    have hmodseq : (inboxAfter compacted).modseq = 3 := by decide +kernel
    exact hmodseq ▸ hcomplete.2.1
  rw [hstart] at happly
  exact happly

end Journal
end Elemta.Mailbox
