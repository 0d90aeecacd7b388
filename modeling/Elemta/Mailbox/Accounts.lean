import Elemta.Foundation.Slots
import Elemta.Mailbox.Transactions
import Mathlib.Data.List.Perm.Basic

/-!
# What transactions do to an account

For each transaction, what the account is when it succeeds; then which bodies the account
refers to, what its messages take up, and the rows that belong together.
-/

namespace Elemta.Mailbox

open Bytes

variable {α β ε : Type}

theorem ok_of_bind {x : Except ε α} {f : α → Except ε β} {b : β} (h : (x >>= f) = .ok b) :
    ∃ a, x = .ok a ∧ f a = .ok b := by
  cases x with
  | error e => cases h
  | ok a => exact ⟨a, rfl, h⟩

theorem ok_of_map {x : Except ε α} {f : α → β} {b : β} (h : x.map f = .ok b) :
    ∃ a, x = .ok a ∧ f a = b := by
  cases x with
  | error e => cases h
  | ok a =>
    cases h
    exact ⟨a, rfl, rfl⟩

theorem error_of_bind {x : Except ε α} {f : α → Except ε β} {e : ε} (h : (x >>= f) = .error e) :
    x = .error e ∨ ∃ a, x = .ok a ∧ f a = .error e := by
  cases x with
  | error e' =>
    cases h
    exact .inl rfl
  | ok a => exact .inr ⟨a, rfl, h⟩

/-! ## When a transaction succeeds -/

section Results

variable {a a' : Account} {f : Folder} {name : Bytes} {u : Upload} {now : Time}

theorem Account.tx_ok {fn : Account → Except MailboxError α} {r : α}
    (h : a.tx fn = .ok r) : fn a = .ok r := by
  unfold tx at h
  split at h
  · exact h
  · cases h

theorem Account.folder_ok (h : a.folder name = .ok f) :
    f ∈ a.folders ∧ f.name = canonicalMailbox name := by
  unfold folder at h
  split at h
  · cases h
  · rename_i g hg
    cases h
    exact ⟨List.mem_of_find?_eq_some hg, by simpa using List.find?_some hg⟩

theorem Account.reserve_ok (h : a.reserve name u = .ok (a', none)) :
    a' = { a with reserved := a.reserved + u.size } := by
  obtain ⟨found, -, h⟩ := ok_of_bind (tx_ok h)
  cases found with
  | some d => cases h
  | none =>
    obtain ⟨f, -, h⟩ := ok_of_bind h
    dsimp only at h
    split at h
    · cases h
    split at h
    · cases h
    · cases h
      rfl

variable {leased held : Bool} {e : MailboxError} {uids : List Nat} {removed : List Message}
  {validity : Nat}

theorem Account.publish_ok {duplicate : Bool} {r : AppendResult}
    (h : a.publish name u leased now = .ok (a', r, duplicate)) :
    (duplicate = true ∧ a' = a) ∨
      (duplicate = false ∧ leased = true ∧ a.overfull u.size = false ∧
        a.delivered u.token u.checksum = .ok none ∧
        ∃ f, a.folder name = .ok f ∧ f.next ≠ maxUID ∧ a' = a.publishIn f u now ∧
          r = { validity := f.validity, uid := f.next }) := by
  obtain ⟨found, hfound, h⟩ := ok_of_bind (tx_ok h)
  cases found with
  | some d =>
    cases h
    exact .inl ⟨rfl, rfl⟩
  | none =>
    obtain ⟨f, hf, h⟩ := ok_of_bind h
    dsimp only at h
    split at h
    · cases h
    rename_i hnext
    split at h
    · cases h
    rename_i hroom
    split at h
    · cases h
    rename_i hleased
    cases h
    refine .inr ⟨rfl, by simpa using hleased, by simpa using hroom, hfound, f, hf, ?_, rfl, rfl⟩
    exact fun hmax => hnext (.inr hmax)

theorem Account.delivered_error {token checksum : Bytes}
    (h : a.delivered token checksum = .error e) : e = .conflict := by
  revert h
  fun_cases delivered a token checksum with
  | case3 =>
    rintro ⟨⟩
    rfl
  | _ => nofun

theorem Account.folder_error (h : a.folder name = .error e) : e = .notFound := by
  unfold folder at h
  split at h
  · cases h
    rfl
  · cases h

theorem Account.reserve_quota (h : a.reserve name u = .error .quota) : a.overbooked u.size = true := by
  unfold reserve tx at h
  split at h
  · rcases error_of_bind h with hfound | ⟨found, -, h⟩
    · cases delivered_error hfound
    · cases found with
      | some d => cases h
      | none =>
        rcases error_of_bind h with hf | ⟨f, -, h⟩
        · cases folder_error hf
        dsimp only at h
        split at h
        · cases h
        · split at h
          · assumption
          · cases h
  · cases h

theorem Account.publish_quota (h : a.publish name u leased now = .error .quota) :
    a.overfull u.size = true := by
  unfold publish tx at h
  split at h
  · rcases error_of_bind h with hfound | ⟨found, -, h⟩
    · cases delivered_error hfound
    · cases found with
      | some d => cases h
      | none =>
        rcases error_of_bind h with hf | ⟨f, -, h⟩
        · cases folder_error hf
        dsimp only at h
        split at h
        · cases h
        split at h
        · assumption
        · split at h
          · cases h
          · cases h
  · cases h

theorem Account.mutateFlagsIf_ok {modified : List Nat} {flags : List Bytes} {op : FlagOp}
    {since : Nat} (h : a.mutateFlagsIf name uids flags op since now = .ok (a', modified)) :
    ∃ f, a.folder name = .ok f ∧ ∃ r,
      r = restate now uids (normalizeFlags flags) op since f.modseq f.messages ∧
      modified = r.modified ∧
      ((r.changes = [] ∧ a' = a) ∨ a' = a.setFolder { f with
        modseq := r.modseq, messages := r.messages, changes := f.changes ++ r.changes }) := by
  obtain ⟨f, hf, h⟩ := ok_of_bind (tx_ok h)
  refine ⟨f, hf, _, rfl, ?_⟩
  dsimp only at h
  split at h
  · rename_i hnone
    cases h
    exact ⟨rfl, .inl ⟨hnone, rfl⟩⟩
  · cases h
    exact ⟨rfl, .inr rfl⟩

def Account.holding (a : Account) (held : Bool) (f : Folder) (messages : List Message)
    (reason : Bytes) : Account :=
  if held then a.holdMessages f messages reason else a

theorem Account.expunge_ok {requireDeleted : Bool}
    (h : a.expunge name uids requireDeleted held now = .ok (a', removed)) :
    (removed = [] ∧ a' = a) ∨
      ∃ f, a.folder name = .ok f ∧ removed = f.messages.filter (expungeable uids requireDeleted) ∧
        a' = { (a.holding held f removed (lit "deleted")).setFolder
            (f.remove now (expungeable uids requireDeleted)) with
          used := a.used - totalSize removed } := by
  obtain ⟨f, hf, h⟩ := ok_of_bind (tx_ok h)
  dsimp only at h
  split at h
  · cases h
    exact .inl ⟨rfl, rfl⟩
  · cases h
    exact .inr ⟨f, hf, rfl, rfl⟩

theorem Account.deleteFolder_ok (h : a.deleteFolder name held = .ok (a', removed)) :
    ∃ f, a.folder name = .ok f ∧ removed = f.messages ∧
      a' = { a.holding held f f.messages (lit "folder deleted") with
        used := a.used - totalSize f.messages
        folders := a.folders.filter fun g => g.id != f.id } := by
  unfold deleteFolder at h
  split at h
  · cases h
  · obtain ⟨f, hf, h⟩ := ok_of_bind (tx_ok h)
    cases h
    exact ⟨f, hf, rfl, rfl⟩

theorem Account.copyMove_ok {src dst : Bytes} {move : Bool} {ready : Key → Bool}
    {r : CopyResult} (h : a.copyMove src dst uids move ready now = .ok (a', r)) :
    ∃ s d copied chosen, a.folder src = .ok s ∧ a.folder dst = .ok d ∧ s.id ≠ d.id ∧
      chosen = s.messages.filter (fun m => decide (m.uid ∈ uids)) ∧
      copyRows ready now d chosen = .ok copied ∧
      ((chosen = [] ∧ a' = a) ∨
        (move = true ∧ a' = (a.setFolder copied).setFolder
          (s.remove now fun m => decide (m.uid ∈ uids))) ∨
        (move = false ∧ a.overfull (totalSize chosen) = false ∧
          a' = { a.setFolder copied with used := a.used + totalSize chosen })) := by
  obtain ⟨s, hs, h⟩ := ok_of_bind (tx_ok h)
  obtain ⟨d, hd, h⟩ := ok_of_bind h
  dsimp only at h
  split at h
  · cases h
  rename_i hne
  obtain ⟨copied, hcopied, h⟩ := ok_of_bind h
  refine ⟨s, d, copied, _, hs, hd, hne, rfl, hcopied, ?_⟩
  split at h
  · rename_i hnone
    cases h
    exact .inl ⟨hnone, rfl⟩
  split at h
  · rename_i hmove
    cases h
    exact .inr (.inl ⟨hmove, rfl⟩)
  rename_i hmove
  split at h
  · cases h
  · rename_i hroom
    cases h
    exact .inr (.inr ⟨by simpa using hmove, by simpa using hroom, rfl⟩)

theorem Account.create_ok {id : Nat} (h : a.create name id validity = .ok a') :
    ∃ name', a.hasFolder name' = false ∧
      a' = { a with folders := a.folders ++ [newFolder id validity name'] } := by
  unfold create at h
  dsimp only at h
  split at h
  · cases h
  have h := tx_ok h
  split at h
  · cases h
  · rename_i hnew
    cases h
    exact ⟨_, by simpa using hnew, rfl⟩

theorem Account.ensureInbox_ok {id : Nat} (h : a.ensureInbox id validity = .ok a') :
    a' = a ∨ (a.hasFolder inbox = false ∧
      a' = { a with folders := a.folders ++ [newFolder id validity inbox] }) := by
  have h := tx_ok h
  split at h
  · cases h
    exact .inl rfl
  · rename_i hnew
    cases h
    exact .inr ⟨by simpa using hnew, rfl⟩

theorem Account.rename_ok {old new : Bytes} (h : a.rename old new = .ok a') :
    ∃ old' new', ((a.folders.map (renamed old' new')).map Folder.name).Nodup ∧
      a' = { a with folders := a.folders.map (renamed old' new') } := by
  unfold rename at h
  dsimp only at h
  split at h
  · cases h
  obtain ⟨f, -, h⟩ := ok_of_bind (tx_ok h)
  split at h
  · rename_i hnodup
    cases h
    exact ⟨_, _, hnodup, rfl⟩
  · cases h

end Results

/-! ## Sizes -/

section Sizes

variable {f : Folder} {now : Time}

@[simp] theorem totalSize_nil : totalSize [] = 0 := rfl

@[simp] theorem totalSize_cons (m : Message) (rest : List Message) :
    totalSize (m :: rest) = m.size + totalSize rest := rfl

@[simp] theorem totalSize_append (first second : List Message) :
    totalSize (first ++ second) = totalSize first + totalSize second := by
  simp [totalSize]

theorem totalSize_nonneg (messages : List Message) : 0 ≤ totalSize messages := by
  induction messages with
  | nil => exact le_refl _
  | cons m rest ih =>
    rw [totalSize_cons]
    omega

theorem totalSize_filter (p : Message → Bool) (messages : List Message) :
    totalSize (messages.filter p) + totalSize (messages.filter fun m => !p m) =
      totalSize messages := by
  induction messages with
  | nil => rfl
  | cons m rest ih =>
    by_cases hp : p m = true
    · simp only [List.filter_cons, hp, if_true, Bool.not_true, Bool.false_eq_true, if_false,
        totalSize_cons]
      omega
    · simp only [List.filter_cons, hp, Bool.false_eq_true, if_false, Bool.not_false, if_true,
        totalSize_cons]
      omega

theorem totalSize_insert (m : Message) :
    totalSize (f.insert now m).messages = totalSize f.messages + m.size := by
  simp [Folder.insert]

theorem totalSize_remove (chosen : Message → Bool) :
    totalSize (f.remove now chosen).messages =
      totalSize f.messages - totalSize (f.messages.filter chosen) := by
  have h := totalSize_filter chosen f.messages
  simp only [Folder.remove]
  omega

/-- A copied folder stays the folder that it was, and takes what was copied. -/
theorem copyRows_ok {ready : Key → Bool} {rows : List Message} {d copied : Folder}
    (h : copyRows ready now d rows = .ok copied) :
    copied.id = d.id ∧ totalSize copied.messages = totalSize d.messages + totalSize rows ∧
      ∀ m ∈ copied.messages, m ∈ d.messages ∨ ∃ row ∈ rows, m.body = row.body := by
  fun_induction copyRows ready now d rows with
  | case1 =>
    cases h
    exact ⟨rfl, by simp, fun m hm => .inl hm⟩
  | case2 | case3 => cases h
  | case4 d row rest _ _ ih =>
    obtain ⟨hid, hsize, hmem⟩ := ih h
    refine ⟨hid, ?_, fun m hm => ?_⟩
    · rw [hsize, totalSize_insert, totalSize_cons]
      omega
    · rcases hmem m hm with hold | ⟨row', hrow', hbody⟩
      · rcases List.mem_append.1 hold with hbefore | hnew
        · exact .inl hbefore
        · rw [List.mem_singleton.1 hnew]
          exact .inr ⟨row, List.mem_cons_self, rfl⟩
      · exact .inr ⟨row', List.mem_cons_of_mem _ hrow', hbody⟩

inductive Message.Becomes (uids : List Nat) (want : List Bytes) (op : FlagOp) (since : Nat)
    (m : Message) : Message → Prop
  | kept (h : m.uid ∉ uids ∨ (since ≠ 0 ∧ since < m.modseq) ∨ m.flags = nextFlags op m.flags want) :
    m.Becomes uids want op since m
  | changed (modseq : Nat) (hin : m.uid ∈ uids) (hold : ¬(since ≠ 0 ∧ since < m.modseq))
    (hflags : m.flags ≠ nextFlags op m.flags want) :
    m.Becomes uids want op since { m with flags := nextFlags op m.flags want, modseq := modseq }

/-- Where no change is entered in the journal, no row has changed. -/
theorem restate_becomes (now : Time) (uids : List Nat) (want : List Bytes) (op : FlagOp)
    (since modseq : Nat) (messages : List Message) :
    messages.Forall₂ (Message.Becomes uids want op since)
        (restate now uids want op since modseq messages).messages ∧
      ((restate now uids want op since modseq messages).changes = [] →
        (restate now uids want op since modseq messages).messages = messages) := by
  fun_induction restate now uids want op since modseq messages with
  | case1 => exact ⟨.nil, fun _ => rfl⟩
  | case2 modseq m rest _ hout ih =>
    exact ⟨.cons (.kept (.inl hout)) ih.1, fun h => congrArg (m :: ·) (ih.2 h)⟩
  | case3 modseq m rest _ _ hsince _ ih =>
    exact ⟨.cons (.kept (.inr (.inl hsince))) ih.1, fun h => congrArg (m :: ·) (ih.2 h)⟩
  | case4 modseq m rest _ _ _ _ hflags ih =>
    exact ⟨.cons (.kept (.inr (.inr hflags))) ih.1, fun h => congrArg (m :: ·) (ih.2 h)⟩
  | case5 modseq m rest hin hold _ hflags _ ih =>
    exact ⟨.cons (.changed _ (Decidable.not_not.1 hin) hold hflags) ih.1, nofun⟩

/-- Flags are all that changes in the rows. -/
theorem restate_rows (now : Time) (uids : List Nat) (want : List Bytes) (op : FlagOp)
    (since modseq : Nat) (messages : List Message) :
    (restate now uids want op since modseq messages).messages.map (fun m => (m.uid, m.body, m.size)) =
      messages.map fun m => (m.uid, m.body, m.size) := by
  have h := (restate_becomes now uids want op since modseq messages).1
  generalize (restate now uids want op since modseq messages).messages = rows at h ⊢
  induction h with
  | nil => rfl
  | cons hm _ ih =>
    rw [List.map_cons, ih]
    cases hm with
    | kept => rfl
    | changed => rfl

end Sizes

/-! ## Replacing a folder -/

section Folders

variable {a : Account} {f g : Folder}

theorem ids_setFolder : (a.setFolder f).folders.map Folder.id = a.folders.map Folder.id := by
  simp only [Account.setFolder, List.map_map]
  refine List.map_congr_left fun g _ => ?_
  by_cases h : g.id = f.id
  · simp [h]
  · simp [h]

variable {m : Message} {folders : List Folder}

theorem mem_messages : m ∈ a.messages ↔ ∃ f ∈ a.folders, m ∈ f.messages :=
  List.mem_flatMap

theorem mem_setFolder (h : g ∈ (a.setFolder f).folders) : g = f ∨ g ∈ a.folders := by
  obtain ⟨g', hg', rfl⟩ := List.mem_map.1 h
  by_cases hid : g'.id = f.id
  · exact .inl (by simp [hid])
  · exact .inr (by simpa [hid] using hg')

theorem mem_setFolder_self (hg : g ∈ a.folders) (hid : f.id = g.id) : f ∈ (a.setFolder f).folders :=
  List.mem_map.2 ⟨g, hg, by simp [hid]⟩

theorem mem_setFolder_of_ne (hg : g ∈ a.folders) (hne : g.id ≠ f.id) :
    g ∈ (a.setFolder f).folders :=
  List.mem_map.2 ⟨g, hg, by simp [hne]⟩

theorem mem_messages_setFolder (h : m ∈ (a.setFolder f).messages) :
    m ∈ f.messages ∨ m ∈ a.messages := by
  obtain ⟨g, hg, hm⟩ := mem_messages.1 h
  rcases mem_setFolder hg with rfl | hold
  · exact .inl hm
  · exact .inr (mem_messages.2 ⟨g, hold, hm⟩)

theorem totalSize_perm {folders' : List Folder} (h : folders.Perm folders') :
    totalSize (folders.flatMap Folder.messages) = totalSize (folders'.flatMap Folder.messages) :=
  ((h.flatMap_right _).map _).foldr_op_eq

/-- A folder and the others, which have other ids. -/
theorem perm_of_mem (hnodup : (folders.map Folder.id).Nodup) (hg : g ∈ folders) :
    ∃ others, folders.Perm (g :: others) ∧ ∀ h ∈ others, h.id ≠ g.id := by
  obtain ⟨before, after, rfl⟩ := List.append_of_mem hg
  refine ⟨before ++ after, List.perm_middle, fun h hh hid => ?_⟩
  rw [(List.perm_middle.map _).nodup_iff, List.map_cons, List.nodup_cons] at hnodup
  exact hnodup.1 (hid ▸ List.mem_map_of_mem hh)

theorem totalSize_setFolder (hnodup : (a.folders.map Folder.id).Nodup) (hg : g ∈ a.folders)
    (hid : f.id = g.id) :
    totalSize (a.setFolder f).messages =
      totalSize a.messages - totalSize g.messages + totalSize f.messages := by
  obtain ⟨others, hperm, hothers⟩ := perm_of_mem hnodup hg
  have hkept : others.map (fun h => if h.id = f.id then f else h) = others :=
    (List.map_congr_left fun h hh => if_neg (hid ▸ hothers h hh)).trans (List.map_id' others)
  unfold Account.messages Account.setFolder
  rw [totalSize_perm (hperm.map _), totalSize_perm hperm, List.map_cons, if_pos hid.symm, hkept]
  simp only [List.flatMap_cons, totalSize_append]
  omega

theorem totalSize_dropFolder (hnodup : (folders.map Folder.id).Nodup) (hg : g ∈ folders) :
    totalSize ((folders.filter fun h => h.id != g.id).flatMap Folder.messages) =
      totalSize (folders.flatMap Folder.messages) - totalSize g.messages := by
  obtain ⟨others, hperm, hothers⟩ := perm_of_mem hnodup hg
  have hkept : others.filter (fun h => h.id != g.id) = others :=
    List.filter_eq_self.2 fun h hh => bne_iff_ne.2 (hothers h hh)
  rw [totalSize_perm (hperm.filter _), totalSize_perm hperm, List.filter_cons_of_neg (by simp), hkept]
  simp only [List.flatMap_cons, totalSize_append]
  omega

end Folders

/-! ## What every transaction keeps -/

def Account.refs (a : Account) : List Key :=
  a.messages.map Message.body ++ a.held.map Held.body

structure Account.Sound (a : Account) : Prop where
  ids : (a.folders.map Folder.id).Nodup
  balanced : a.used = totalSize a.messages

def Account.WithinQuota (a : Account) : Prop :=
  0 < a.quota → a.used ≤ a.quota

/-- What a transaction leaves in place that publishes nothing; it may make folders with the ids
`new`. -/
structure Account.Step (new : List Nat) (a a' : Account) : Prop where
  id : a'.id = a.id
  address : a'.address = a.address
  quota : a'.quota = a.quota
  reserved : a'.reserved = a.reserved
  sound : a.Sound → a'.Sound
  within : a.Sound → a.WithinQuota → a'.WithinQuota
  refs : a'.refs ⊆ a.refs
  ids : ∀ f ∈ a'.folders, f.id ∈ a.folders.map Folder.id ++ new

section Steps

variable {a a' : Account} {f : Folder} {name : Bytes} {u : Upload} {now : Time}

theorem mem_refs {key : Key} :
    key ∈ a.refs ↔ (∃ m ∈ a.messages, m.body = key) ∨ ∃ h ∈ a.held, h.body = key := by
  simp [Account.refs, List.mem_append, List.mem_map]

theorem Account.Step.refl (new : List Nat) (a : Account) : Account.Step new a a :=
  ⟨rfl, rfl, rfl, rfl, fun h => h, fun _ h => h, List.Subset.refl _,
    fun _ hf => List.mem_append_left _ (List.mem_map_of_mem hf)⟩

theorem ids_mem_setFolder {f' g : Folder} (hf : f ∈ a.folders) (hid : f'.id = f.id)
    (hg : g ∈ (a.setFolder f').folders) : g.id ∈ a.folders.map Folder.id := by
  rcases mem_setFolder hg with rfl | hold
  · exact List.mem_map.2 ⟨f, hf, hid.symm⟩
  · exact List.mem_map_of_mem hold

/-- Bodies of messages that stay, or of held copies of what went. -/
theorem refs_subset (hmessages : ∀ m ∈ a'.messages, ∃ m' ∈ a.messages, m.body = m'.body)
    (hheld : ∀ h ∈ a'.held, h ∈ a.held ∨ ∃ m' ∈ a.messages, h.body = m'.body) : a'.refs ⊆ a.refs := by
  intro key hkey
  rcases mem_refs.1 hkey with ⟨m, hm, rfl⟩ | ⟨h, hh, rfl⟩
  · obtain ⟨m', hm', hbody⟩ := hmessages m hm
    exact mem_refs.2 (.inl ⟨m', hm', hbody.symm⟩)
  · rcases hheld h hh with hold | ⟨m', hm', hbody⟩
    · exact mem_refs.2 (.inr ⟨h, hold, rfl⟩)
    · exact mem_refs.2 (.inl ⟨m', hm', hbody.symm⟩)

variable {held : Bool} {uids : List Nat} {removed : List Message} {validity : Nat}

theorem holding_held {messages : List Message} {reason : Bytes} {h : Held}
    (hh : h ∈ (a.holding held f messages reason).held) :
    h ∈ a.held ∨ ∃ m ∈ messages, h.body = m.body := by
  unfold Account.holding at hh
  split at hh
  · rcases List.mem_append.1 hh with hold | hnew
    · exact .inl hold
    · obtain ⟨m, hm, rfl⟩ := List.mem_map.1 hnew
      exact .inr ⟨m, hm, rfl⟩
  · exact .inl hh

theorem holding_eq (messages : List Message) (reason : Bytes) :
    a.holding held f messages reason =
      { a with held := (a.holding held f messages reason).held } := by
  unfold Account.holding
  split
  · rfl
  · rfl

theorem Account.Sound.setFolder {f' : Folder} (ha : a.Sound) (hf : f ∈ a.folders)
    (hid : f'.id = f.id) (hfolders : a'.folders = (a.setFolder f').folders)
    (hused : a'.used = a.used - totalSize f.messages + totalSize f'.messages) : a'.Sound := by
  refine ⟨?_, ?_⟩
  · rw [hfolders, ids_setFolder]
    exact ha.ids
  · have hmessages : a'.messages = (a.setFolder f').messages :=
      congrArg (List.flatMap Folder.messages) hfolders
    rw [hused, ha.balanced, hmessages, totalSize_setFolder ha.ids hf hid]

/-- One folder is replaced by one that takes as much as `used` says. -/
theorem step_of_setFolder (f' : Folder) (used : Int) (held : List Held) (hf : f ∈ a.folders)
    (hid : f'.id = f.id) (hused : used = a.used - totalSize f.messages + totalSize f'.messages)
    (hwithin : a.Sound → a.WithinQuota → 0 < a.quota → used ≤ a.quota)
    (hbodies : ∀ m ∈ f'.messages, ∃ m' ∈ a.messages, m.body = m'.body)
    (hheld : ∀ h ∈ held, h ∈ a.held ∨ ∃ m' ∈ a.messages, h.body = m'.body) :
    Account.Step [] a { a.setFolder f' with used := used, held := held } where
  id := rfl
  address := rfl
  quota := rfl
  reserved := rfl
  sound ha := ha.setFolder hf hid rfl hused
  within ha hq := hwithin ha hq
  refs := by
    refine refs_subset (fun m hm => ?_) hheld
    rcases mem_messages_setFolder hm with hnew | hold
    · exact hbodies m hnew
    · exact ⟨m, hold, rfl⟩
  ids g hg := List.mem_append_left _ (ids_mem_setFolder hf hid hg)

theorem mutateFlagsIf_step {modified : List Nat} {flags : List Bytes} {op : FlagOp}
    {since : Nat} (h : a.mutateFlagsIf name uids flags op since now = .ok (a', modified)) :
    Account.Step [] a a' := by
  obtain ⟨f, hf, r, hr, -, ⟨-, rfl⟩ | rfl⟩ := Account.mutateFlagsIf_ok h
  · exact .refl [] a'
  obtain ⟨hmem, -⟩ := Account.folder_ok hf
  have hrows := restate_rows now uids (normalizeFlags flags) op since f.modseq f.messages
  rw [← hr] at hrows
  have hsize : totalSize r.messages = totalSize f.messages := by
    have := congrArg (fun rows => (rows.map fun row : Nat × Key × Nat => (row.2.2 : Int)).sum) hrows
    simpa [totalSize, Function.comp_def] using this
  refine step_of_setFolder { f with
    modseq := r.modseq, messages := r.messages, changes := f.changes ++ r.changes } a.used a.held
    hmem rfl ?_ (fun _ hq => hq) (fun m hm => ?_) (fun h hh => .inl hh)
  · rw [hsize]
    omega
  · have hrow : (m.uid, m.body, m.size) ∈ f.messages.map fun m => (m.uid, m.body, m.size) :=
      hrows ▸ List.mem_map_of_mem hm
    obtain ⟨m', hm', heq⟩ := List.mem_map.1 hrow
    simp only [Prod.mk.injEq] at heq
    exact ⟨m', mem_messages.2 ⟨f, hmem, hm'⟩, heq.2.1.symm⟩

theorem mem_remove {chosen : Message → Bool} {m : Message} (h : m ∈ (f.remove now chosen).messages) :
    m ∈ f.messages :=
  (List.mem_filter.1 h).1

theorem expunge_step {requireDeleted : Bool}
    (h : a.expunge name uids requireDeleted held now = .ok (a', removed)) :
    Account.Step [] a a' := by
  rcases Account.expunge_ok h with ⟨-, rfl⟩ | ⟨f, hf, rfl, rfl⟩
  · exact .refl [] a'
  obtain ⟨hmem, -⟩ := Account.folder_ok hf
  rw [holding_eq]
  refine step_of_setFolder (f.remove now (expungeable uids requireDeleted)) _ _ hmem rfl ?_ ?_
    (fun m hm => ?_) (fun h hh => ?_)
  · rw [totalSize_remove]
    omega
  · intro _ hq hpos
    have hle := hq hpos
    have := totalSize_nonneg (f.messages.filter (expungeable uids requireDeleted))
    omega
  · exact ⟨m, mem_messages.2 ⟨f, hmem, mem_remove hm⟩, rfl⟩
  · rcases holding_held hh with hold | ⟨m, hm, hbody⟩
    · exact .inl hold
    · exact .inr ⟨m, mem_messages.2 ⟨f, hmem, (List.mem_filter.1 hm).1⟩, hbody⟩

theorem deleteFolder_step (h : a.deleteFolder name held = .ok (a', removed)) :
    Account.Step [] a a' := by
  obtain ⟨f, hf, -, rfl⟩ := Account.deleteFolder_ok h
  obtain ⟨hmem, -⟩ := Account.folder_ok hf
  rw [holding_eq]
  refine ⟨rfl, rfl, rfl, rfl, fun ha => ⟨?_, ?_⟩, fun ha hq hpos => ?_, ?_, fun g hg => ?_⟩
  · exact ha.ids.sublist (List.filter_sublist.map _)
  · rw [ha.balanced]
    exact (totalSize_dropFolder ha.ids hmem).symm
  · have hle := hq hpos
    have := totalSize_nonneg f.messages
    dsimp only
    omega
  · refine refs_subset (fun m hm => ?_) (fun h hh => ?_)
    · obtain ⟨g, hg, hm⟩ := mem_messages.1 hm
      exact ⟨m, mem_messages.2 ⟨g, (List.mem_filter.1 hg).1, hm⟩, rfl⟩
    · rcases holding_held hh with hold | ⟨m, hm, hbody⟩
      · exact .inl hold
      · exact .inr ⟨m, mem_messages.2 ⟨f, hmem, hm⟩, hbody⟩
  · exact List.mem_append_left _ (List.mem_map_of_mem (List.mem_filter.1 hg).1)

theorem overfull_false {size : Int} (h : a.overfull size = false) :
    0 < a.quota → a.used + size ≤ a.quota := by
  intro hpos
  simpa [Account.overfull, hpos] using h

theorem copyMove_step {src dst : Bytes} {move : Bool} {ready : Key → Bool} {r : CopyResult}
    (h : a.copyMove src dst uids move ready now = .ok (a', r)) : Account.Step [] a a' := by
  obtain ⟨s, d, copied, chosen, hs, hd, hne, hchosen, hcopied, hcases⟩ := Account.copyMove_ok h
  obtain ⟨hsmem, -⟩ := Account.folder_ok hs
  obtain ⟨hdmem, -⟩ := Account.folder_ok hd
  obtain ⟨hid, hsize, hrows⟩ := copyRows_ok hcopied
  -- what is in the destination was there or is a copy of a row of the source
  have hbodies : ∀ m ∈ copied.messages, ∃ m' ∈ a.messages, m.body = m'.body := by
    intro m hm
    rcases hrows m hm with hold | ⟨row, hrow, hbody⟩
    · exact ⟨m, mem_messages.2 ⟨d, hdmem, hold⟩, rfl⟩
    · rw [hchosen] at hrow
      exact ⟨row, mem_messages.2 ⟨s, hsmem, (List.mem_filter.1 hrow).1⟩, hbody⟩
  rcases hcases with ⟨-, rfl⟩ | ⟨-, rfl⟩ | ⟨-, hroom, rfl⟩
  · exact .refl [] a'
  · -- a move takes from the source what it puts into the destination
    refine ⟨rfl, rfl, rfl, rfl, fun ha => ?_, fun _ hq => hq, ?_, fun g hg => ?_⟩
    · have hs' : s ∈ (a.setFolder copied).folders :=
        mem_setFolder_of_ne hsmem (by rw [hid]; exact hne)
      have hcopy : Account.Sound { a.setFolder copied with used := a.used + totalSize chosen } :=
        ha.setFolder hdmem hid rfl (by dsimp only; omega)
      refine hcopy.setFolder hs' (rfl : (s.remove now fun m => decide (m.uid ∈ uids)).id = s.id) rfl ?_
      rw [totalSize_remove, ← hchosen]
      dsimp only [Account.setFolder]
      omega
    · refine refs_subset (fun m hm => ?_) (fun h hh => .inl hh)
      rcases mem_messages_setFolder hm with hnew | hold
      · exact ⟨m, mem_messages.2 ⟨s, hsmem, mem_remove hnew⟩, rfl⟩
      · rcases mem_messages_setFolder hold with hcopy | hbefore
        · exact hbodies m hcopy
        · exact ⟨m, hbefore, rfl⟩
    · have hids := List.mem_map_of_mem (f := Folder.id) hg
      rw [ids_setFolder, ids_setFolder] at hids
      exact List.mem_append_left _ hids
  · refine step_of_setFolder copied _ a.held hdmem hid ?_ ?_ hbodies (fun h hh => .inl hh)
    · omega
    · exact fun _ _ hpos => overfull_false hroom hpos

theorem step_of_newFolder (id validity : Nat) (name : Bytes)
    (hfresh : id ∉ a.folders.map Folder.id) :
    Account.Step [id] a { a with folders := a.folders ++ [newFolder id validity name] } where
  id := rfl
  address := rfl
  quota := rfl
  reserved := rfl
  sound ha := by
    refine ⟨Slots.nodup_concat ha.ids hfresh, ?_⟩
    rw [ha.balanced]
    simp [Account.messages, newFolder]
  within _ hq := hq
  refs := by
    refine refs_subset (fun m hm => ?_) (fun h hh => .inl hh)
    obtain ⟨g, hg, hm⟩ := mem_messages.1 hm
    rcases List.mem_append.1 hg with hold | hnew
    · exact ⟨m, mem_messages.2 ⟨g, hold, hm⟩, rfl⟩
    · rw [List.mem_singleton.1 hnew] at hm
      cases hm
  ids := Slots.forall_concat (fun g hg => List.mem_append_left _ (List.mem_map_of_mem hg))
    (List.mem_append_right _ List.mem_cons_self)

theorem create_step {id : Nat} (hfresh : id ∉ a.folders.map Folder.id)
    (h : a.create name id validity = .ok a') : Account.Step [id] a a' := by
  obtain ⟨name', -, rfl⟩ := Account.create_ok h
  exact step_of_newFolder id validity name' hfresh

theorem ensureInbox_step {id : Nat} (hfresh : id ∉ a.folders.map Folder.id)
    (h : a.ensureInbox id validity = .ok a') : Account.Step [id] a a' := by
  rcases Account.ensureInbox_ok h with rfl | ⟨-, rfl⟩
  · exact .refl [id] a'
  · exact step_of_newFolder id validity inbox hfresh

theorem renamed_id (old new : Bytes) : (renamed old new f).id = f.id := by
  unfold renamed
  split
  · rfl
  · rfl

theorem renamed_messages (old new : Bytes) : (renamed old new f).messages = f.messages := by
  unfold renamed
  split
  · rfl
  · rfl

theorem rename_step {old new : Bytes} (h : a.rename old new = .ok a') : Account.Step [] a a' := by
  obtain ⟨old', new', -, rfl⟩ := Account.rename_ok h
  have hmessages : (a.folders.map (renamed old' new')).flatMap Folder.messages =
      a.folders.flatMap Folder.messages := by
    rw [List.flatMap_map]
    exact List.flatMap_congr fun f _ => renamed_messages old' new'
  have hids : (a.folders.map (renamed old' new')).map Folder.id = a.folders.map Folder.id := by
    rw [List.map_map]
    exact List.map_congr_left fun f _ => renamed_id old' new'
  refine ⟨rfl, rfl, rfl, rfl, fun ha => ⟨?_, ?_⟩, fun _ hq => hq, ?_, fun g hg => ?_⟩
  · rw [hids]
    exact ha.ids
  · exact ha.balanced.trans (congrArg totalSize hmessages.symm)
  · refine refs_subset (fun m hm => ⟨m, ?_, rfl⟩) (fun h hh => .inl hh)
    exact (congrArg (m ∈ ·) hmessages).mp hm
  · rw [List.append_nil, ← hids]
    exact List.mem_map_of_mem hg

structure Account.Published (a : Account) (u : Upload) (a' : Account) : Prop where
  id : a'.id = a.id
  address : a'.address = a.address
  quota : a'.quota = a.quota
  reserved : a'.reserved = a.reserved - u.size
  sound : a.Sound → a'.Sound
  within : a'.WithinQuota
  refs : a'.refs ⊆ u.key :: a.refs
  mem_refs : u.key ∈ a'.refs
  ids : ∀ f ∈ a'.folders, f.id ∈ a.folders.map Folder.id

theorem publish_published {leased : Bool} {r : AppendResult}
    (h : a.publish name u leased now = .ok (a', r, false)) : leased = true ∧ a.Published u a' := by
  rcases Account.publish_ok h with ⟨hdup, -⟩ | ⟨-, hleased, hroom, -, f, hf, -, rfl, -⟩
  · cases hdup
  obtain ⟨hmem, -⟩ := Account.folder_ok hf
  have hid : (f.insert now u.message).id = f.id := rfl
  refine ⟨hleased, rfl, rfl, rfl, rfl, fun ha => ha.setFolder hmem hid rfl ?_, ?_, ?_, ?_,
    fun g hg => ?_⟩
  · have hsize : (u.message.size : Int) = u.size := rfl
    rw [totalSize_insert]
    dsimp only [Account.publishIn]
    omega
  · exact overfull_false hroom
  · intro key hkey
    rcases mem_refs.1 hkey with ⟨m, hm, rfl⟩ | ⟨h, hh, rfl⟩
    · rcases mem_messages_setFolder hm with hnew | hold
      · rcases List.mem_append.1 hnew with hbefore | hlast
        · exact List.mem_cons_of_mem _ (mem_refs.2 (.inl ⟨m, mem_messages.2 ⟨f, hmem, hbefore⟩, rfl⟩))
        · rw [List.mem_singleton.1 hlast]
          exact List.mem_cons_self
      · exact List.mem_cons_of_mem _ (mem_refs.2 (.inl ⟨m, hold, rfl⟩))
    · exact List.mem_cons_of_mem _ (mem_refs.2 (.inr ⟨h, hh, rfl⟩))
  · have hnew : f.insert now u.message ∈ (a.setFolder (f.insert now u.message)).folders :=
      mem_setFolder_self hmem hid
    exact mem_refs.2 (.inl ⟨_, mem_messages.2 ⟨_, hnew, List.mem_append_right _
      (List.mem_singleton_self _)⟩, rfl⟩)
  · exact ids_mem_setFolder hmem hid hg

end Steps

end Elemta.Mailbox
