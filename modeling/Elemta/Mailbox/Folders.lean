import Elemta.Foundation.ChangeLog
import Elemta.Mailbox.Accounts

/-!
# What transactions do to a folder

UIDs grow with the folder, and every row that a transaction adds, changes or removes gets a
MODSEQ above those before and an entry with it in the folder's journal.
-/

namespace Elemta.Mailbox

open Bytes ChangeLog

def Folder.row (f : Folder) : Content Nat Message :=
  fun uid => f.messages.find? fun m => m.uid == uid

def Change.entry (c : Change) : Entry Nat :=
  { number := c.modseq, key := c.uid }

def Folder.log (f : Folder) : List (Entry Nat) :=
  f.changes.map Change.entry

structure Folder.Ordered (f : Folder) : Prop where
  uids : (f.messages.map Message.uid).Pairwise (· < ·)
  next : ∀ m ∈ f.messages, m.uid < f.next
  changes : ∀ c ∈ f.changes, c.modseq ≤ f.modseq
  floor : f.floor ≤ f.modseq

structure Folder.Evolves (now : Time) (f f' : Folder) : Prop where
  id : f'.id = f.id
  validity : f'.validity = f.validity
  floor : f'.floor = f.floor
  modseq : f.modseq ≤ f'.modseq
  next : f.next ≤ f'.next
  ordered : f.Ordered → f'.Ordered
  /-- No UID comes back, for the same message or another. -/
  uids : ∀ m' ∈ f'.messages, m'.uid < f.next → ∃ m ∈ f.messages, m.uid = m'.uid ∧ m.body = m'.body
  raised : f'.messages ≠ f.messages → f.modseq < f'.modseq
  journal : ∃ new, f'.changes = f.changes ++ new ∧
    (∀ c ∈ new, f.modseq < c.modseq ∧ c.created = now) ∧
    (f.Ordered → ∀ uid, f.row uid ≠ f'.row uid → ∃ c ∈ new, c.uid = uid)

section Folders

variable {f f' f'' : Folder} {now : Time}

theorem Folder.Evolves.of_same (hid : f'.id = f.id) (hvalidity : f'.validity = f.validity)
    (hnext : f'.next = f.next) (hmodseq : f'.modseq = f.modseq) (hfloor : f'.floor = f.floor)
    (hmessages : f'.messages = f.messages) (hchanges : f'.changes = f.changes) :
    Folder.Evolves now f f' where
  id := hid
  validity := hvalidity
  floor := hfloor
  modseq := Nat.le_of_eq hmodseq.symm
  next := Nat.le_of_eq hnext.symm
  ordered h := by
    refine ⟨hmessages ▸ h.uids, ?_, ?_, ?_⟩
    · rw [hmessages, hnext]
      exact h.next
    · rw [hchanges, hmodseq]
      exact h.changes
    · rw [hfloor, hmodseq]
      exact h.floor
  uids m' hm' _ := ⟨m', hmessages ▸ hm', rfl, rfl⟩
  raised hne := absurd hmessages hne
  journal := by
    refine ⟨[], by rw [hchanges, List.append_nil], nofun, fun _ uid hne => absurd ?_ hne⟩
    simp only [row, hmessages]

theorem Folder.Evolves.refl (now : Time) (f : Folder) : Folder.Evolves now f f :=
  .of_same rfl rfl rfl rfl rfl rfl rfl

theorem Folder.Evolves.trans (h : Folder.Evolves now f f') (h' : Folder.Evolves now f' f'') :
    Folder.Evolves now f f'' where
  id := h'.id.trans h.id
  validity := h'.validity.trans h.validity
  floor := h'.floor.trans h.floor
  modseq := Nat.le_trans h.modseq h'.modseq
  next := Nat.le_trans h.next h'.next
  ordered hf := h'.ordered (h.ordered hf)
  uids m hm hlt := by
    obtain ⟨m', hm', huid, hbody⟩ := h'.uids m hm (Nat.lt_of_lt_of_le hlt h.next)
    obtain ⟨m₀, hm₀, huid₀, hbody₀⟩ := h.uids m' hm' (huid ▸ hlt)
    exact ⟨m₀, hm₀, huid₀.trans huid, hbody₀.trans hbody⟩
  raised hne := by
    by_cases hsame : f'.messages = f.messages
    · exact Nat.lt_of_le_of_lt h.modseq (h'.raised (hsame ▸ hne))
    · exact Nat.lt_of_lt_of_le (h.raised hsame) h'.modseq
  journal := by
    obtain ⟨new, hchanges, hnew, hrows⟩ := h.journal
    obtain ⟨new', hchanges', hnew', hrows'⟩ := h'.journal
    refine ⟨new ++ new', by rw [hchanges', hchanges, List.append_assoc], fun c hc => ?_,
      fun hf uid hne => ?_⟩
    · rcases List.mem_append.1 hc with hin | hin
      · exact hnew c hin
      · exact ⟨Nat.lt_of_le_of_lt h.modseq (hnew' c hin).1, (hnew' c hin).2⟩
    · by_cases hsame : f.row uid = f'.row uid
      · obtain ⟨c, hc, huid⟩ := hrows' (h.ordered hf) uid (hsame ▸ hne)
        exact ⟨c, List.mem_append_right _ hc, huid⟩
      · obtain ⟨c, hc, huid⟩ := hrows hf uid hsame
        exact ⟨c, List.mem_append_left _ hc, huid⟩

/-! ## Rows -/

variable {uid modseq : Nat} {kind : ChangeKind} {uids : List Nat} {r : Restated}

theorem Folder.row_eq_some (hf : f.Ordered) {m : Message} :
    f.row uid = some m ↔ m ∈ f.messages ∧ m.uid = uid := by
  constructor
  · intro h
    exact ⟨List.mem_of_find?_eq_some h, by simpa using List.find?_some h⟩
  · rintro ⟨hm, rfl⟩
    cases hrow : f.row m.uid with
    | none => exact absurd (List.find?_eq_none.1 hrow m hm) (by simp)
    | some m' =>
      have hm' : m' ∈ f.messages := List.mem_of_find?_eq_some hrow
      have huid : m'.uid = m.uid := by simpa using List.find?_some hrow
      -- UIDs in increasing order are all different
      have hnodup : (f.messages.map Message.uid).Nodup := hf.uids.imp Nat.ne_of_lt
      rw [List.inj_on_of_nodup_map hnodup hm' hm huid]

theorem Folder.row_eq_none : f.row uid = none ↔ ∀ m ∈ f.messages, m.uid ≠ uid := by
  simp [row]

theorem insert_evolves (m : Message) :
    Folder.Evolves now f (f.insert now m) where
  id := rfl
  validity := rfl
  floor := rfl
  modseq := Nat.le_succ _
  next := Nat.le_succ _
  ordered h := by
    refine ⟨?_, Slots.forall_concat (fun m' hm' => Nat.lt_succ_of_lt (h.next m' hm')) (Nat.lt_succ_self _),
      Slots.forall_concat (fun c hc => Nat.le_succ_of_le (h.changes c hc)) (Nat.le_refl _),
      Nat.le_succ_of_le h.floor⟩
    · rw [Folder.insert, List.map_append, List.pairwise_append]
      refine ⟨h.uids, List.pairwise_singleton _ _, fun uid huid last hlast => ?_⟩
      obtain ⟨m', hm', rfl⟩ := List.mem_map.1 huid
      rw [List.map_singleton, List.mem_singleton] at hlast
      rw [hlast]
      exact h.next m' hm'
  uids := Slots.forall_concat (fun m' hm' _ => ⟨m', hm', rfl, rfl⟩) fun hlt =>
    absurd hlt (Nat.lt_irrefl _)
  raised _ := Nat.lt_succ_self _
  journal := by
    refine ⟨_, rfl, List.forall_mem_singleton.2 ⟨Nat.lt_succ_self _, rfl⟩, fun _ uid hne =>
      ⟨_, List.mem_singleton_self _, ?_⟩⟩
    by_contra hother
    -- under another UID there is the row that was there before
    refine hne ?_
    have hlast : ((f.next == uid) = false) := beq_eq_false_iff_ne.2 hother
    simp [Folder.row, Folder.insert, List.find?_append, hlast]

theorem copyRows_evolves {ready : Key → Bool} {rows : List Message} {copied : Folder}
    (h : copyRows ready now f rows = .ok copied) : Folder.Evolves now f copied := by
  fun_induction copyRows ready now f rows with
  | case1 =>
    cases h
    exact .refl now _
  | case2 | case3 => cases h
  | case4 f row rest _ _ ih => exact (insert_evolves row).trans (ih h)

/-! ## Removed rows -/

theorem journal_spec {c : Change} (h : c ∈ journal kind now modseq uids) :
    modseq < c.modseq ∧ c.modseq ≤ modseq + uids.length ∧ c.created = now := by
  induction uids generalizing modseq with
  | nil => cases h
  | cons uid rest ih =>
    rw [List.length_cons]
    rcases List.mem_cons.1 h with rfl | hrest
    · exact ⟨Nat.lt_succ_self _, Nat.add_le_add_left (Nat.le_add_left 1 _) _, rfl⟩
    · obtain ⟨hlow, hhigh, hcreated⟩ := ih hrest
      exact ⟨by omega, by omega, hcreated⟩

theorem mem_journal (h : uid ∈ uids) : ∃ c ∈ journal kind now modseq uids, c.uid = uid := by
  induction uids generalizing modseq with
  | nil => cases h
  | cons first rest ih =>
    rcases List.mem_cons.1 h with rfl | hrest
    · exact ⟨_, List.mem_cons_self, rfl⟩
    · obtain ⟨c, hc, huid⟩ := ih hrest
      exact ⟨c, List.mem_cons_of_mem _ hc, huid⟩

theorem remove_ordered (h : f.Ordered) (chosen : Message → Bool) :
    (f.remove now chosen).Ordered where
  uids := h.uids.sublist (List.filter_sublist.map _)
  next m hm := h.next m (List.mem_filter.1 hm).1
  changes c hc := by
    rcases List.mem_append.1 hc with hold | hnew
    · exact Nat.le_trans (h.changes c hold) (Nat.le_add_right _ _)
    · have hhigh := (journal_spec hnew).2.1
      rw [List.length_map] at hhigh
      exact hhigh
  floor := Nat.le_trans h.floor (Nat.le_add_right _ _)

theorem remove_evolves (chosen : Message → Bool) :
    Folder.Evolves now f (f.remove now chosen) where
  id := rfl
  validity := rfl
  floor := rfl
  modseq := Nat.le_add_right _ _
  next := Nat.le_refl _
  ordered h := remove_ordered h chosen
  uids m hm _ := ⟨m, (List.mem_filter.1 hm).1, rfl, rfl⟩
  raised hne := by
    -- a row is gone, so at least one was chosen
    refine Nat.lt_add_of_pos_right (List.length_pos_iff.2 fun hnone => hne ?_)
    refine List.filter_eq_self.2 fun m hm => ?_
    have hnot := List.filter_eq_nil_iff.1 hnone m hm
    simpa using hnot
  journal := by
    refine ⟨_, rfl, fun c hc => ?_, fun hf uid hne => mem_journal ?_⟩
    · obtain ⟨hlow, -, hcreated⟩ := journal_spec hc
      exact ⟨hlow, hcreated⟩
    · by_contra hkept
      have hnot : ∀ m ∈ f.messages, m.uid = uid → chosen m = false := by
        intro m hm huid
        refine Bool.eq_false_iff.2 fun hchosen => hkept ?_
        exact List.mem_map.2 ⟨m, List.mem_filter.2 ⟨hm, hchosen⟩, huid⟩
      refine hne ?_
      cases hrow : f.row uid with
      | none =>
        refine (Folder.row_eq_none.2 fun m hm => ?_).symm
        exact Folder.row_eq_none.1 hrow m (List.mem_filter.1 hm).1
      | some m =>
        obtain ⟨hm, huid⟩ := (Folder.row_eq_some hf).1 hrow
        refine ((Folder.row_eq_some (remove_ordered hf chosen)).2 ⟨?_, huid⟩).symm
        exact List.mem_filter.2 ⟨hm, by simp [hnot m hm huid]⟩

/-! ## Changed flags -/

/-- What a pass over some rows does. The rows of a list are looked up as those of a folder. -/
structure Restates (now : Time) (modseq : Nat) (messages : List Message) (r : Restated) : Prop where
  same : r.messages.map (fun m => (m.uid, m.body)) = messages.map fun m => (m.uid, m.body)
  modseq_le : modseq ≤ r.modseq
  changes : ∀ c ∈ r.changes, modseq < c.modseq ∧ c.modseq ≤ r.modseq ∧ c.created = now
  raised : r.messages ≠ messages → modseq < r.modseq
  rows : ∀ uid, messages.find? (fun m => m.uid == uid) ≠ r.messages.find? (fun m => m.uid == uid) →
    ∃ c ∈ r.changes, c.uid = uid

theorem Restates.keep {messages : List Message} (h : Restates now modseq messages r) (m : Message)
    (modified : List Nat) :
    Restates now modseq (m :: messages)
      { modseq := r.modseq, messages := m :: r.messages, changes := r.changes, modified := modified } where
  same := congrArg ((m.uid, m.body) :: ·) h.same
  modseq_le := h.modseq_le
  changes := h.changes
  raised hne := h.raised fun hsame => hne (congrArg (m :: ·) hsame)
  rows uid hne := by
    refine h.rows uid fun hsame => hne ?_
    rw [List.find?_cons, List.find?_cons, hsame]

theorem restate_spec (want : List Bytes) (op : FlagOp)
    (since modseq : Nat) (messages : List Message) :
    Restates now modseq messages (restate now uids want op since modseq messages) := by
  fun_induction restate now uids want op since modseq messages with
  | case1 =>
    refine ⟨rfl, Nat.le_refl _, ?_, fun hne => absurd rfl hne, fun _ hne => absurd rfl hne⟩
    rintro _ ⟨⟩
  | case2 modseq m rest _ _ ih | case3 modseq m rest _ _ _ _ ih | case4 modseq m rest _ _ _ _ _ ih =>
    exact ih.keep m _
  | case5 modseq m rest _ _ next _ r hrest =>
    refine ⟨congrArg ((m.uid, m.body) :: ·) hrest.same, Nat.le_of_succ_le hrest.modseq_le,
      fun c hc => ?_, fun _ => hrest.modseq_le, fun uid hne => ?_⟩
    · rcases List.mem_cons.1 hc with rfl | hin
      · exact ⟨Nat.lt_succ_self _, hrest.modseq_le, rfl⟩
      · obtain ⟨hlow, hhigh, hcreated⟩ := hrest.changes c hin
        exact ⟨Nat.lt_of_succ_lt hlow, hhigh, hcreated⟩
    · by_cases huid : m.uid = uid
      · exact ⟨_, List.mem_cons_self, huid⟩
      · -- the entry is among those of the other rows
        have hfirst : (m.uid == uid) = false := beq_eq_false_iff_ne.2 huid
        simp only [List.find?_cons, hfirst] at hne
        obtain ⟨c, hc, hcuid⟩ := hrest.rows uid hne
        exact ⟨c, List.mem_cons_of_mem _ hc, hcuid⟩

theorem restate_evolves {want : List Bytes} {op : FlagOp} {since : Nat}
    (hr : r = restate now uids want op since f.modseq f.messages) :
    Folder.Evolves now f
      { f with modseq := r.modseq, messages := r.messages, changes := f.changes ++ r.changes } := by
  have h : Restates now f.modseq f.messages r := hr ▸ restate_spec want op since f.modseq f.messages
  have hmem : ∀ m' ∈ r.messages, ∃ m ∈ f.messages, m.uid = m'.uid ∧ m.body = m'.body := by
    intro m' hm'
    have hin : (m'.uid, m'.body) ∈ f.messages.map fun m => (m.uid, m.body) :=
      h.same ▸ List.mem_map_of_mem hm'
    obtain ⟨m, hm, heq⟩ := List.mem_map.1 hin
    exact ⟨m, hm, congrArg Prod.fst heq, congrArg Prod.snd heq⟩
  refine ⟨rfl, rfl, rfl, h.modseq_le, Nat.le_refl _, fun hf => ⟨?_, fun m' hm' => ?_, fun c hc => ?_, ?_⟩,
    fun m' hm' _ => hmem m' hm', h.raised, _, rfl, fun c hc => ?_, fun _ => h.rows⟩
  · have huids : r.messages.map Message.uid = f.messages.map Message.uid := by
      have hfst := congrArg (List.map Prod.fst) h.same
      rwa [List.map_map, List.map_map] at hfst
    exact huids ▸ hf.uids
  · obtain ⟨m, hm, huid, -⟩ := hmem m' hm'
    exact huid ▸ hf.next m hm
  · rcases List.mem_append.1 hc with hold | hnew
    · exact Nat.le_trans (hf.changes c hold) h.modseq_le
    · exact (h.changes c hnew).2.1
  · exact Nat.le_trans hf.floor h.modseq_le
  · exact ⟨(h.changes c hc).1, (h.changes c hc).2.2⟩

end Folders

/-! ## Whole accounts -/

structure Folder.Fresh (id : Nat) (f : Folder) : Prop where
  id : f.id = id
  floor : f.floor = 0
  messages : f.messages = []
  changes : f.changes = []

def Account.Evolves (now : Time) (new : Nat) (a a' : Account) : Prop :=
  ∀ f' ∈ a'.folders, (∃ f ∈ a.folders, f.Evolves now f') ∨ f'.Fresh new

section Accounts

variable {a a' : Account} {f : Folder} {name : Bytes} {now : Time} {new : Nat}

theorem Account.Evolves.refl (now : Time) (new : Nat) (a : Account) : a.Evolves now new a :=
  fun f hf => .inl ⟨f, hf, .refl now f⟩

theorem evolves_setFolder {f' : Folder} (hf : f ∈ a.folders) (h : f.Evolves now f')
    (hfolders : a'.folders = (a.setFolder f').folders) : a.Evolves now new a' := by
  intro g hg
  rcases mem_setFolder (hfolders ▸ hg) with rfl | hold
  · exact .inl ⟨f, hf, h⟩
  · exact .inl ⟨g, hold, .refl now g⟩

theorem publish_evolves {u : Upload} {leased duplicate : Bool} {r : AppendResult}
    (h : a.publish name u leased now = .ok (a', r, duplicate)) : a.Evolves now new a' := by
  rcases Account.publish_ok h with ⟨-, rfl⟩ | ⟨-, -, -, -, f, hf, -, rfl, -⟩
  · exact .refl now new _
  · exact evolves_setFolder (Account.folder_ok hf).1 (insert_evolves _) rfl

variable {uids : List Nat} {held : Bool} {removed : List Message}

theorem mutateFlagsIf_evolves {modified : List Nat} {flags : List Bytes} {op : FlagOp}
    {since : Nat} (h : a.mutateFlagsIf name uids flags op since now = .ok (a', modified)) :
    a.Evolves now new a' := by
  obtain ⟨f, hf, r, hr, -, ⟨-, rfl⟩ | rfl⟩ := Account.mutateFlagsIf_ok h
  · exact .refl now new _
  · exact evolves_setFolder (Account.folder_ok hf).1 (restate_evolves hr) rfl

theorem folders_holding (messages : List Message)
    (reason : Bytes) : (a.holding held f messages reason).folders = a.folders := by
  rw [holding_eq]

theorem expunge_evolves {requireDeleted : Bool}
    (h : a.expunge name uids requireDeleted held now = .ok (a', removed)) :
    a.Evolves now new a' := by
  rcases Account.expunge_ok h with ⟨-, rfl⟩ | ⟨f, hf, -, rfl⟩
  · exact .refl now new _
  · refine evolves_setFolder (Account.folder_ok hf).1
      (remove_evolves (expungeable uids requireDeleted)) ?_
    simp only [Account.setFolder, folders_holding]

theorem deleteFolder_evolves (h : a.deleteFolder name held = .ok (a', removed)) :
    a.Evolves now new a' := by
  obtain ⟨f, -, -, rfl⟩ := Account.deleteFolder_ok h
  exact fun g hg => .inl ⟨g, (List.mem_filter.1 hg).1, .refl now g⟩

theorem copyMove_evolves {src dst : Bytes} {move : Bool} {ready : Key → Bool}
    {r : CopyResult} (h : a.copyMove src dst uids move ready now = .ok (a', r)) :
    a.Evolves now new a' := by
  obtain ⟨s, d, copied, chosen, hs, hd, -, -, hcopied, hcases⟩ := Account.copyMove_ok h
  have hcopy := copyRows_evolves hcopied
  rcases hcases with ⟨-, rfl⟩ | ⟨-, rfl⟩ | ⟨-, -, rfl⟩
  · exact .refl now new _
  · intro g hg
    rcases mem_setFolder hg with rfl | hg
    · exact .inl ⟨s, (Account.folder_ok hs).1, remove_evolves _⟩
    · rcases mem_setFolder hg with rfl | hold
      · exact .inl ⟨d, (Account.folder_ok hd).1, hcopy⟩
      · exact .inl ⟨g, hold, .refl now g⟩
  · exact evolves_setFolder (Account.folder_ok hd).1 hcopy rfl

theorem create_evolves {validity : Nat} (h : a.create name new validity = .ok a') :
    a.Evolves now new a' := by
  obtain ⟨name', -, rfl⟩ := Account.create_ok h
  exact Slots.forall_concat (fun g hg => .inl ⟨g, hg, .refl now g⟩) (.inr ⟨rfl, rfl, rfl, rfl⟩)

theorem rename_evolves {old new' : Bytes} (h : a.rename old new' = .ok a') :
    a.Evolves now new a' := by
  obtain ⟨old', new'', -, rfl⟩ := Account.rename_ok h
  intro g hg
  obtain ⟨f, hf, rfl⟩ := List.mem_map.1 hg
  refine .inl ⟨f, hf, ?_⟩
  unfold renamed
  split
  · exact .of_same rfl rfl rfl rfl rfl rfl rfl
  · exact .refl now f

end Accounts

/-! ## What a transaction leaves alone -/

/-- All rows are as they were, but for rows of `f` under some UIDs. -/
def Account.Confined (f : Folder) (uids : List Nat) (a a' : Account) : Prop :=
  ∀ g ∈ a.folders, ∀ m ∈ g.messages,
    (∃ g' ∈ a'.folders, g'.id = g.id ∧ m ∈ g'.messages) ∨ (g = f ∧ m.uid ∈ uids)

section Confined

variable {a a' a'' : Account} {f d : Folder} {uids : List Nat} {now : Time} {name : Bytes}

theorem Account.Confined.refl (f : Folder) (uids : List Nat) (a : Account) : Account.Confined f uids a a :=
  fun g hg _ hm => .inl ⟨g, hg, rfl, hm⟩

/-- A transaction that first only adds rows. -/
theorem Account.Confined.after_added (hids : (a.folders.map Folder.id).Nodup) (hf : f ∈ a.folders)
    (h : Account.Confined d [] a a') (h' : Account.Confined f uids a' a'') :
    Account.Confined f uids a a'' := by
  intro g hg m hm
  rcases h g hg m hm with ⟨g', hg', hid, hm'⟩ | ⟨-, hnone⟩
  · rcases h' g' hg' m hm' with ⟨g'', hg'', hid', hm''⟩ | ⟨rfl, huid⟩
    · exact .inl ⟨g'', hg'', hid'.trans hid, hm''⟩
    · exact .inr ⟨List.inj_on_of_nodup_map hids hg hf hid.symm, huid⟩
  · cases hnone

theorem confined_setFolder (f' : Folder) (hids : (a.folders.map Folder.id).Nodup) (hf : f ∈ a.folders)
    (hid : f'.id = f.id) (hrows : ∀ m ∈ f.messages, m.uid ∉ uids → m ∈ f'.messages)
    (hfolders : a'.folders = (a.setFolder f').folders) : Account.Confined f uids a a' := by
  intro g hg m hm
  by_cases hgf : g.id = f'.id
  · have hsame : g = f := List.inj_on_of_nodup_map hids hg hf (hgf.trans hid)
    by_cases huid : m.uid ∈ uids
    · exact .inr ⟨hsame, huid⟩
    · refine .inl ⟨f', hfolders ▸ mem_setFolder_self hf hid, hgf.symm, ?_⟩
      exact hrows m (hsame ▸ hm) huid
  · exact .inl ⟨g, hfolders ▸ mem_setFolder_of_ne hg hgf, rfl, hm⟩

theorem exists_of_forall₂ {α β : Type} {R : α → β → Prop} {as : List α} {bs : List β} {x : α}
    (h : as.Forall₂ R bs) (hx : x ∈ as) : ∃ y ∈ bs, R x y := by
  induction h with
  | nil => cases hx
  | cons hr _ ih =>
    rcases List.mem_cons.1 hx with rfl | hrest
    · exact ⟨_, List.mem_cons_self, hr⟩
    · obtain ⟨y, hy, hxy⟩ := ih hrest
      exact ⟨y, List.mem_cons_of_mem _ hy, hxy⟩

variable {flags : List Bytes} {modified : List Nat} {op : FlagOp} {since : Nat} {m : Message}
  {ready : Key → Bool}

/-- What MODSEQ and flags spare is kept too. -/
theorem mutateFlagsIf_keeps {touched : List Nat} (hids : (a.folders.map Folder.id).Nodup)
    (hf : a.folder name = .ok f)
    (h : a.mutateFlagsIf name uids flags op since now = .ok (a', modified))
    (htouched : ∀ m ∈ f.messages, m.uid ∈ uids → ¬(since ≠ 0 ∧ since < m.modseq) →
      m.flags ≠ nextFlags op m.flags (normalizeFlags flags) → m.uid ∈ touched) :
    Account.Confined f touched a a' := by
  obtain ⟨g, hg, r, hr, -, ⟨-, rfl⟩ | rfl⟩ := Account.mutateFlagsIf_ok h
  · exact .refl f touched _
  obtain rfl := Except.ok.inj (hf.symm.trans hg)
  refine confined_setFolder _ hids (Account.folder_ok hf).1 ?_ (fun m hm huid => ?_) rfl
  · rfl
  · obtain ⟨m', hm', hbecomes⟩ := exists_of_forall₂
      (restate_becomes now uids (normalizeFlags flags) op since f.modseq f.messages).1 hm
    cases hbecomes with
    | kept => exact hr ▸ hm'
    | changed modseq hin hold hflags => exact absurd (htouched m hm hin hold hflags) huid

theorem mutateFlagsIf_confined (hids : (a.folders.map Folder.id).Nodup)
    (h : a.mutateFlagsIf name uids flags op since now = .ok (a', modified)) :
    ∃ f, a.folder name = .ok f ∧ Account.Confined f uids a a' := by
  obtain ⟨f, hf, -⟩ := Account.mutateFlagsIf_ok h
  exact ⟨f, hf, mutateFlagsIf_keeps hids hf h fun _ _ hin _ _ => hin⟩

theorem remove_keeps {chosen : Message → Bool} (hm : m ∈ f.messages) (hchosen : chosen m = false) :
    m ∈ (f.remove now chosen).messages :=
  List.mem_filter.2 ⟨hm, by simp [hchosen]⟩

theorem expunge_confined {requireDeleted held : Bool} {removed : List Message}
    (hids : (a.folders.map Folder.id).Nodup)
    (h : a.expunge name uids requireDeleted held now = .ok (a', removed)) :
    a' = a ∨ ∃ f, a.folder name = .ok f ∧ Account.Confined f uids a a' := by
  rcases Account.expunge_ok h with ⟨-, rfl⟩ | ⟨f, hf, -, rfl⟩
  · exact .inl rfl
  refine .inr ⟨f, hf, confined_setFolder (f.remove now (expungeable uids requireDeleted)) hids
    (Account.folder_ok hf).1 rfl (fun m hm huid => ?_) ?_⟩
  · exact remove_keeps hm (by simp [expungeable, huid])
  · simp only [Account.setFolder, folders_holding]

theorem copyRows_keeps {rows : List Message} {copied : Folder}
    (h : copyRows ready now f rows = .ok copied) (hm : m ∈ f.messages) : m ∈ copied.messages := by
  fun_induction copyRows ready now f rows with
  | case1 =>
    cases h
    exact hm
  | case2 | case3 => cases h
  | case4 f row rest _ _ ih => exact ih h (List.mem_append_left _ hm)

theorem copyMove_confined {src dst : Bytes} {move : Bool} {r : CopyResult}
    (hids : (a.folders.map Folder.id).Nodup)
    (h : a.copyMove src dst uids move ready now = .ok (a', r)) :
    ∃ f, a.folder src = .ok f ∧ Account.Confined f uids a a' := by
  obtain ⟨f, d, copied, chosen, hf, hd, hne, -, hcopied, hcases⟩ := Account.copyMove_ok h
  have hin := (Account.folder_ok hf).1
  have hid : copied.id = d.id := (copyRows_evolves hcopied).id
  have hadded : Account.Confined d [] a (a.setFolder copied) :=
    confined_setFolder copied hids (Account.folder_ok hd).1 hid (fun m hm _ => copyRows_keeps hcopied hm) rfl
  refine ⟨f, hf, ?_⟩
  rcases hcases with ⟨-, rfl⟩ | ⟨-, rfl⟩ | ⟨-, -, rfl⟩
  · exact .refl f uids _
  · have hids' : ((a.setFolder copied).folders.map Folder.id).Nodup := by
      rw [ids_setFolder]
      exact hids
    have hin' : f ∈ (a.setFolder copied).folders := mem_setFolder_of_ne hin (hid ▸ hne)
    refine hadded.after_added hids hin
      (confined_setFolder (f.remove now fun m => decide (m.uid ∈ uids)) hids' hin' rfl (fun m hm huid => ?_) rfl)
    exact remove_keeps hm (by simp [huid])
  · exact hadded.after_added hids hin (.refl f uids _)

end Confined

end Elemta.Mailbox
