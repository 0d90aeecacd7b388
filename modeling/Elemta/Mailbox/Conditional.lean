import Elemta.Mailbox.Imap

/-!
# FETCH with CHANGEDSINCE and STORE with UNCHANGEDSINCE

FETCH sets `\Seen` on the whole set before it reads the rows and leaves out those that have
not changed since; by then the rows that it has just flagged have changed. STORE gives the
bound to the engine, for which zero is no bound. FETCH goes by the MODSEQs that the rows had
before the command exactly if it finds nothing to flag at or below its bound, and STORE if its
bound is not zero or it names no row.
-/

namespace Elemta.Mailbox

open Bytes

/-! ## The commands -/

def Account.scanMessages (a : Account) (folder : Nat) : List Message :=
  match a.folders.find? fun f => f.id == folder with
  | none => []
  | some f => f.messages

def Session.uidsAt (ss : Session) (idx : List Nat) : List Nat :=
  idx.filterMap fun i => ss.uids[i]?

/-- The rows that are answered, with their sequence numbers: those of the view that `load` has, chunk
by chunk, but for the skipped ones. There are as many turns as there is fuel. -/
def Session.answerRows (ss : Session) (load : List Nat → List Message) (skipped : Message → Bool) :
    Nat → List Nat → List (Nat × Message)
  | 0, _ => []
  | fuel + 1, idx =>
    let chunk := idx.take fetchChunk
    let rows := load (ss.uidsAt chunk)
    (chunk.filterMap fun i =>
      match rows.find? fun m => some m.uid == ss.uids[i]? with
      | some m => if skipped m then none else some (i + 1, m)
      | none => none) ++
      ss.answerRows load skipped fuel (idx.drop fetchChunk)

structure FetchOptions where
  /-- Whether each body section, and each binary section, is fetched with PEEK. -/
  bodySection : List Bool
  binarySection : List Bool
  changedSince : Nat
  deriving DecidableEq

def FetchOptions.seen (o : FetchOptions) : Bool :=
  (o.bodySection ++ o.binarySection).any fun peek => !peek

def seenFlag : Bytes := lit "\\seen"

def Session.markSeen (ss : Session) (record : FolderRecord) (a : Account) (set : NumSet)
    (o : FetchOptions) (now : Time) : Except MailboxError Account :=
  if o.seen && !ss.readOnly && selectedIdx ss.uids set != [] then
    (a.mutateFlagsIf record.name (selected ss.uids set) [seenFlag] .add 0 now).map Prod.fst
  else .ok a

/-- `Fetch`, with the rows that it answers from. -/
def Session.fetch (ss : Session) (record : FolderRecord) (a : Account) (set : NumSet)
    (o : FetchOptions) (now : Time) : Except MailboxError (Account × List (Nat × Message)) := do
  let idx := selectedIdx ss.uids set
  let a ← ss.markSeen record a set o now
  -- a large set is answered from one query
  let load := if 4 * fetchChunk < idx.length then fun _ => a.scanMessages record.id
    else a.messagesByUID record.id
  let unchanged (m : Message) : Bool := o.changedSince != 0 && decide (m.modseq ≤ o.changedSince)
  return (a, ss.answerRows load unchanged idx.length idx)

/-- The set of MODIFIED, in the numbering of the command. -/
inductive Modified where
  | uids (uids : List Nat)
  | seqs (seqs : List Nat)
  deriving DecidableEq

/-- `Store`: the account, the rows that are answered and the messages that were left alone. -/
def Session.store (ss : Session) (record : FolderRecord) (a : Account) (set : NumSet)
    (flags : List Bytes) (op : FlagOp) (silent : Bool) (unchangedSince : Nat) (now : Time) :
    Except MailboxError (Account × List (Nat × Message) × Option Modified) := do
  if ss.readOnly then throw .readOnly
  let idx := selectedIdx ss.uids set
  let (a, modified) ←
    a.mutateFlagsIf record.name (selected ss.uids set) flags op unchangedSince now
  if silent && unchangedSince == 0 then return (a, [], none)
  let shown := ss.answerRows (a.messagesByUID record.id) (fun m => decide (m.uid ∈ modified))
    idx.length idx
  if modified = [] then return (a, shown, none)
  match set with
  | .uids _ => return (a, shown, some (.uids modified))
  | .seqs _ =>
    return (a, shown, some (.seqs (modified.filterMap fun uid => (viewIndex ss.uids uid).map (· + 1))))

def Modified.uidsIn (view : List Nat) : Modified → List Nat
  | .uids found => found
  | .seqs found => found.filterMap fun n => view[n - 1]?

/-! ## Numbers of the view -/

theorem search_eq {found : Nat → Bool} {k fuel i j : Nat} (hi : i ≤ k) (hj : k ≤ j)
    (hfuel : j - i ≤ fuel) (hfound : ∀ n, n < j → (found n = true ↔ k ≤ n)) :
    search found fuel i j = k := by
  fun_induction search found fuel i j with
  | case1 => omega
  | case2 fuel i j hlt half h ih =>
    have hhalf := hfound half (by omega)
    exact ih hi (hhalf.1 h) (by omega) fun n hn => hfound n (by omega)
  | case3 fuel i j hlt half h ih =>
    have hhalf := hfound half (by omega)
    exact ih (Nat.lt_of_not_le fun hle => h (hhalf.2 hle)) hj (by omega) hfound
  | case4 => omega

/-- In a view in the order of its UIDs, a UID is found where it stands. -/
theorem viewIndex_of_mem {view : List Nat} (hview : view.Pairwise (· < ·)) {uid : Nat}
    (huid : uid ∈ view) : ∃ i, viewIndex view uid = some i ∧ view[i]? = some uid := by
  obtain ⟨k, hk, rfl⟩ := List.getElem_of_mem huid
  have hsearch : searchView view view[k] = k := by
    refine search_eq (Nat.zero_le k) (Nat.le_of_lt hk) (by omega) fun n hn => ?_
    have hget : view.getD n 0 = view[n] := by simp [List.getD_eq_getElem?_getD, hn]
    rw [decide_eq_true_iff, hget]
    constructor
    · intro hle
      refine Nat.le_of_not_lt fun hlt => ?_
      exact Nat.not_lt.2 hle (List.pairwise_iff_getElem.1 hview n k hn hk hlt)
    · intro hle
      rcases Nat.lt_or_eq_of_le hle with hlt | rfl
      · exact Nat.le_of_lt (List.pairwise_iff_getElem.1 hview k n hk hn hlt)
      · exact Nat.le_refl _
  have hat : view[k]? = some view[k] := List.getElem?_eq_getElem hk
  exact ⟨k, by simp [viewIndex, hsearch, hat], hat⟩

/-! ## Rows before and after -/

section

variable {a a' : Account} {f g : Folder} {name : Bytes} {uids modified : List Nat}
  {flags : List Bytes} {op : FlagOp} {since : Nat} {now : Time}

theorem restate_modified {want : List Bytes} {modseq : Nat} {messages : List Message} :
    (restate now uids want op since modseq messages).modified =
      (messages.filter fun m => decide (m.uid ∈ uids ∧ since ≠ 0 ∧ since < m.modseq)).map
        Message.uid := by
  induction messages generalizing modseq with
  | nil => rfl
  | cons m rest ih =>
    simp only [restate]
    split
    · rename_i hout
      simp [hout, ih]
    rename_i hin
    split
    · rename_i hmodified
      simp [Decidable.not_not.1 hin, hmodified.1, hmodified.2, ih]
    rename_i hold
    have hkept : ¬(m.uid ∈ uids ∧ since ≠ 0 ∧ since < m.modseq) := fun h => hold h.2
    rw [List.filter_cons_of_neg (by simpa using hkept)]
    split
    · exact ih
    · exact ih

theorem eq_of_mem_setFolder (h : g ∈ (a.setFolder f).folders) (hid : g.id = f.id) : g = f := by
  obtain ⟨g', -, rfl⟩ := List.mem_map.1 h
  by_cases hown : g'.id = f.id
  · simp [hown]
  · rw [if_neg hown] at hid
    exact absurd hid hown

theorem Account.mutateFlagsIf_succeeds (hwritable : a.writable = true) (hf : a.folder name = .ok f)
    (uids : List Nat) (flags : List Bytes) (op : FlagOp) (since : Nat) (now : Time) :
    ∃ a' modified, a.mutateFlagsIf name uids flags op since now = .ok (a', modified) := by
  unfold mutateFlagsIf tx
  rw [if_pos hwritable]
  dsimp only
  rw [hf]
  dsimp only [bind, Except.bind]
  split
  · exact ⟨_, _, rfl⟩
  · exact ⟨_, _, rfl⟩

theorem Message.Becomes.uid {want : List Bytes} {m m' : Message}
    (h : m.Becomes uids want op since m') : m.uid = m'.uid := by
  cases h <;> rfl

theorem Message.Becomes.flags_eq {want : List Bytes} {m m' : Message}
    (h : m.Becomes uids want op since m') (hin : m.uid ∈ uids)
    (hle : since ≠ 0 → m.modseq ≤ since) : m'.flags = nextFlags op m.flags want := by
  cases h with
  | kept hreason =>
    rcases hreason with hout | ⟨hbound, hlt⟩ | hflags
    · exact absurd hin hout
    · exact absurd (hle hbound) (Nat.not_le.2 hlt)
    · exact hflags
  | changed => rfl

/-- The folder afterwards has a row for each row that it had. -/
theorem mutateFlagsIf_rows (hids : (a.folders.map Folder.id).Nodup) (hf : a.folder name = .ok f)
    (h : a.mutateFlagsIf name uids flags op since now = .ok (a', modified)) :
    (∃ g ∈ a'.folders, g.id = f.id) ∧ ∀ g ∈ a'.folders, g.id = f.id →
      f.messages.Forall₂ (Message.Becomes uids (normalizeFlags flags) op since) g.messages := by
  have hin := (Account.folder_ok hf).1
  obtain ⟨f', hf', r, rfl, -, hcases⟩ := Account.mutateFlagsIf_ok h
  obtain rfl := Except.ok.inj (hf.symm.trans hf')
  obtain ⟨hrows, hsame⟩ := restate_becomes now uids (normalizeFlags flags) op since f.modseq f.messages
  rcases hcases with ⟨hnone, rfl⟩ | rfl
  · refine ⟨⟨f, hin, rfl⟩, fun g hg hid => ?_⟩
    rw [List.inj_on_of_nodup_map hids hg hin hid]
    rwa [hsame hnone] at hrows
  · refine ⟨⟨_, mem_setFolder_self hin rfl, rfl⟩, fun g hg hid => ?_⟩
    rw [eq_of_mem_setFolder hg hid]
    exact hrows

theorem mem_answerRows {ss : Session} {load : List Nat → List Message} {skipped : Message → Bool}
    {fuel : Nat} {idx : List Nat} {d : Nat × Message} (h : d ∈ ss.answerRows load skipped fuel idx) :
    skipped d.2 = false ∧ ∃ chunk, d.2 ∈ load chunk := by
  induction fuel generalizing idx with
  | zero => cases h
  | succ fuel ih =>
    rcases List.mem_append.1 h with hchunk | hrest
    · obtain ⟨i, -, hi⟩ := List.mem_filterMap.1 hchunk
      split at hi
      · rename_i m hm
        split at hi
        · cases hi
        · rename_i hkept
          cases hi
          exact ⟨by simpa using hkept, _, List.mem_of_find?_eq_some hm⟩
      · cases hi
    · exact ih hrest

variable {folder : Nat} {m : Message}

theorem mem_scanMessages (h : m ∈ a.scanMessages folder) :
    ∃ g ∈ a.folders, g.id = folder ∧ m ∈ g.messages := by
  unfold Account.scanMessages at h
  split at h
  · cases h
  · rename_i g hg
    exact ⟨g, List.mem_of_find?_eq_some hg, by simpa using List.find?_some hg, h⟩

theorem mem_messagesByUID (h : m ∈ a.messagesByUID folder uids) : m ∈ a.scanMessages folder := by
  unfold Account.messagesByUID at h
  unfold Account.scanMessages
  cases hg : a.folders.find? fun f => f.id == folder with
  | none =>
    rw [hg] at h
    cases h
  | some g =>
    rw [hg] at h
    exact (List.mem_filter.1 h).1

end

/-! ## Both commands -/

def Session.namedUids (ss : Session) (set : NumSet) (f : Folder) (p : Message → Bool) : List Nat :=
  (f.messages.filter fun m => decide (m.uid ∈ selected ss.uids set) && p m).map Message.uid

section

variable {a : Account} {f : Folder} {ss : Session} {record : FolderRecord} {set : NumSet} {now : Time}

theorem mem_namedUids {p : Message → Bool} {m : Message} (hm : m ∈ f.messages)
    (hset : m.uid ∈ selected ss.uids set) (hp : p m = true) : m.uid ∈ ss.namedUids set f p :=
  List.mem_map_of_mem (List.mem_filter.2 ⟨hm, by simp [hset, hp]⟩)

/-- Nothing at or below the bound is flagged: the sections are fetched with PEEK or from a read-only
session, or such messages have the flag. -/
def Session.flagsNone (ss : Session) (set : NumSet) (o : FetchOptions) (f : Folder) : Prop :=
  o.seen = true → ss.readOnly = false → ∀ m ∈ f.messages, m.uid ∈ selected ss.uids set →
    m.modseq ≤ o.changedSince → m.flags = nextFlags .add m.flags (normalizeFlags [seenFlag])

theorem selected_ne_nil {uid : Nat} (h : uid ∈ selected ss.uids set) : selectedIdx ss.uids set ≠ [] := by
  obtain ⟨i, hi, -⟩ := List.mem_filterMap.1 h
  exact List.ne_nil_of_mem hi

section

variable {o : FetchOptions} (hids : (a.folders.map Folder.id).Nodup)
  (hf : a.folder record.name = .ok f)

include hids hf

/-- A row at or below the bound that gets the flag is not as it was. -/
theorem flagsNone_of_fetch (huids : (f.messages.map Message.uid).Nodup) {a' : Account}
    {data : List (Nat × Message)} (h : ss.fetch record a set o now = .ok (a', data))
    (hflagged :
      Account.Confined f (ss.namedUids set f fun m => decide (o.changedSince < m.modseq)) a a') :
    ss.flagsNone set o f := by
  intro hseen hreadOnly m hm hset hle
  have hmark : ss.markSeen record a set o now = .ok a' := by
    unfold Session.fetch at h
    cases hmark : ss.markSeen record a set o now with
    | error e =>
      rw [hmark] at h
      cases h
    | ok b =>
      rw [hmark] at h
      cases h
      rfl
  unfold Session.markSeen at hmark
  rw [if_pos (by simp [hseen, hreadOnly, selected_ne_nil hset])] at hmark
  cases hmutate : a.mutateFlagsIf record.name (selected ss.uids set) [seenFlag] .add 0 now with
  | error e =>
    rw [hmutate] at hmark
    cases hmark
  | ok r =>
    obtain ⟨b, modified⟩ := r
    rw [hmutate] at hmark
    cases hmark
    have hone {m' : Message} (hm' : m' ∈ f.messages) (huid : m'.uid = m.uid) : m' = m :=
      List.inj_on_of_nodup_map huids hm' hm huid
    rcases hflagged f (Account.folder_ok hf).1 m hm with ⟨g, hg, hgid, hkept⟩ | ⟨-, habove⟩
    · obtain ⟨m₀, hm₀, hbecomes⟩ :=
        exists_of_forall₂ ((mutateFlagsIf_rows hids hf hmutate).2 g hg hgid).flip hkept
      obtain rfl := hone hm₀ hbecomes.uid
      exact hbecomes.flags_eq hset (absurd rfl)
    · obtain ⟨m', hm', huid⟩ := List.mem_map.1 habove
      obtain ⟨hin, htest⟩ := List.mem_filter.1 hm'
      obtain rfl := hone hin huid
      have hgt : o.changedSince < m'.modseq := of_decide_eq_true (Bool.and_eq_true_iff.1 htest).2
      omega

variable (hwritable : a.writable = true)

include hwritable

/-- A row afterwards is a row from before, or one above the bound. -/
theorem markSeen_spec (hnone : ss.flagsNone set o f) :
    ∃ a', ss.markSeen record a set o now = .ok a' ∧
      Account.Confined f (ss.namedUids set f fun m => decide (o.changedSince < m.modseq)) a a' ∧
      ∀ g ∈ a'.folders, g.id = f.id → ∀ m' ∈ g.messages,
        ∃ m ∈ f.messages, m.uid = m'.uid ∧ (m' = m ∨ o.changedSince < m.modseq) := by
  unfold Session.markSeen
  split
  · rename_i hseen
    simp only [Bool.and_eq_true, Bool.not_eq_true'] at hseen
    have habove {m : Message} (hm : m ∈ f.messages) (hset : m.uid ∈ selected ss.uids set)
        (hflags : m.flags ≠ nextFlags .add m.flags (normalizeFlags [seenFlag])) :
        o.changedSince < m.modseq :=
      Nat.lt_of_not_le fun hle => hflags (hnone hseen.1.1 hseen.1.2 m hm hset hle)
    obtain ⟨a', modified, hok⟩ := Account.mutateFlagsIf_succeeds hwritable hf (selected ss.uids set)
      [seenFlag] .add 0 now
    refine ⟨a', by rw [hok]; rfl, mutateFlagsIf_keeps hids hf hok fun m hm hin _ hflags => ?_, ?_⟩
    · exact mem_namedUids hm hin (decide_eq_true (habove hm hin hflags))
    · intro g hg hgid m' hm'
      obtain ⟨m, hm, hbecomes⟩ :=
        exists_of_forall₂ ((mutateFlagsIf_rows hids hf hok).2 g hg hgid).flip hm'
      cases hbecomes with
      | kept => exact ⟨m', hm, rfl, .inl rfl⟩
      | changed modseq hin hold hflags => exact ⟨m, hm, rfl, .inr (habove hm hin hflags)⟩
  · refine ⟨a, rfl, .refl _ _ _, fun g hg hgid m' hm' => ⟨m', ?_, rfl, .inl rfl⟩⟩
    rwa [List.inj_on_of_nodup_map hids hg (Account.folder_ok hf).1 hgid] at hm'

/-- What FETCH with a bound has to do: to answer with and to flag only rows above it. -/
structure Session.Fetched (ss : Session) (set : NumSet) (f : Folder) (n : Nat) (a a' : Account)
    (data : List (Nat × Message)) : Prop where
  answered : ∀ d ∈ data, ∃ m ∈ f.messages, m.uid = d.2.uid ∧ n < m.modseq
  flagged : Account.Confined f (ss.namedUids set f fun m => decide (n < m.modseq)) a a'

theorem fetch_spec (hid : f.id = record.id) (hrows : ∀ m ∈ f.messages, 0 < m.modseq)
    (hnone : ss.flagsNone set o f) :
    ∃ a' data, ss.fetch record a set o now = .ok (a', data) ∧
      ss.Fetched set f o.changedSince a a' data := by
  obtain ⟨a', hok, hconfined, hbefore⟩ := markSeen_spec hids hf hwritable hnone
  refine ⟨a', _, by unfold Session.fetch; rw [hok]; rfl, fun d hd => ?_, hconfined⟩
  obtain ⟨hchanged, chunk, hload⟩ := mem_answerRows hd
  have hscan : d.2 ∈ a'.scanMessages record.id := by
    split at hload
    · exact hload
    · exact mem_messagesByUID hload
  obtain ⟨g, hg, hgid, hm'⟩ := mem_scanMessages hscan
  obtain ⟨m, hm, huid, hsame | habove⟩ := hbefore g hg (hgid.trans hid.symm) d.2 hm'
  · refine ⟨m, hm, huid, ?_⟩
    rw [hsame] at hchanged
    have hpos := hrows m hm
    simp only [Bool.and_eq_false_iff, bne_eq_false_iff_eq, decide_eq_false_iff_not] at hchanged
    omega
  · exact ⟨m, hm, huid, habove⟩

/-- What STORE with a bound has to do: rows of the set up to the bound get their flags, the others
are as they were, and those of the set are reported. -/
structure Session.Stored (ss : Session) (set : NumSet) (f : Folder) (flags : List Bytes)
    (op : FlagOp) (n : Nat) (a a' : Account) (report : Option Modified) : Prop where
  spared : Account.Confined f (ss.namedUids set f fun m => decide (m.modseq ≤ n)) a a'
  changed : ∀ m ∈ f.messages, m.uid ∈ selected ss.uids set → m.modseq ≤ n →
    ∃ g ∈ a'.folders, g.id = f.id ∧ ∃ m' ∈ g.messages, m'.uid = m.uid ∧
      m'.flags = nextFlags op m.flags (normalizeFlags flags)
  reported : report.elim [] (Modified.uidsIn ss.uids) =
    ss.namedUids set f fun m => decide (n < m.modseq)

theorem store_spec (hview : ss.uids.Pairwise (· < ·)) (hreadOnly : ss.readOnly = false)
    (flags : List Bytes) (op : FlagOp) (silent : Bool) {n : Nat}
    (hn : n ≠ 0 ∨ ∀ m ∈ f.messages, m.uid ∉ selected ss.uids set) :
    ∃ a' shown report, ss.store record a set flags op silent n now = .ok (a', shown, report) ∧
      ss.Stored set f flags op n a a' report := by
  obtain ⟨a', modified, hok⟩ := Account.mutateFlagsIf_succeeds hwritable hf (selected ss.uids set)
    flags op n now
  have hbound {m : Message} (hm : m ∈ f.messages) (hset : m.uid ∈ selected ss.uids set) : n ≠ 0 :=
    hn.resolve_right fun hnone => hnone m hm hset
  have hmodified : modified = ss.namedUids set f fun m => decide (n < m.modseq) := by
    obtain ⟨f', hf', r, rfl, rfl, -⟩ := Account.mutateFlagsIf_ok hok
    obtain rfl := Except.ok.inj (hf.symm.trans hf')
    rw [restate_modified, Session.namedUids]
    refine congrArg (List.map Message.uid) (List.filter_congr fun m hm => ?_)
    rw [Bool.eq_iff_iff, decide_eq_true_iff, Bool.and_eq_true, decide_eq_true_iff,
      decide_eq_true_iff]
    exact ⟨fun h => ⟨h.1, h.2.2⟩, fun h => ⟨h.1, hbound hm h.1, h.2⟩⟩
  have hstored {report : Option Modified}
      (hreport : report.elim [] (Modified.uidsIn ss.uids) = modified) :
      ss.Stored set f flags op n a a' report := by
    refine ⟨?_, fun m hm hset hle => ?_, hreport.trans hmodified⟩
    · refine mutateFlagsIf_keeps hids hf hok fun m hm hin hold _ => mem_namedUids hm hin ?_
      exact decide_eq_true (Nat.le_of_not_lt fun hlt => hold ⟨hbound hm hin, hlt⟩)
    · obtain ⟨⟨g, hg, hgid⟩, hrows⟩ := mutateFlagsIf_rows hids hf hok
      obtain ⟨m', hm', hbecomes⟩ := exists_of_forall₂ (hrows g hg hgid) hm
      exact ⟨g, hg, hgid, m', hm', hbecomes.uid.symm, hbecomes.flags_eq hset fun _ => hle⟩
  have hinview : ∀ uid ∈ modified, uid ∈ ss.uids := by
    intro uid huid
    rw [hmodified] at huid
    obtain ⟨m, hm, rfl⟩ := List.mem_map.1 huid
    have hset := (Bool.and_eq_true_iff.1 (List.mem_filter.1 hm).2).1
    obtain ⟨i, -, hi⟩ := List.mem_filterMap.1 (of_decide_eq_true hset)
    exact List.mem_of_getElem? hi
  unfold Session.store
  simp only [hreadOnly, hok, bind, Except.bind, pure, Except.pure, Bool.false_eq_true, if_false]
  split
  · rename_i hsilent
    have hzero : n = 0 := by simpa using (Bool.and_eq_true_iff.1 hsilent).2
    refine ⟨a', [], none, rfl, hstored ?_⟩
    rw [hmodified, Session.namedUids, List.filter_eq_nil_iff.2]
    · rfl
    · intro m hm htest
      exact hbound hm (of_decide_eq_true (Bool.and_eq_true_iff.1 htest).1) hzero
  split
  · rename_i hempty
    exact ⟨a', _, none, rfl, hstored hempty.symm⟩
  cases set with
  | uids ranges => exact ⟨a', _, _, rfl, hstored rfl⟩
  | seqs ranges =>
    refine ⟨a', _, _, rfl, hstored ?_⟩
    -- each number leads back to the UID that it was made from
    have hback : ∀ uid ∈ modified,
        ((viewIndex ss.uids uid).map (· + 1)).bind (fun n => ss.uids[n - 1]?) = some uid := by
      intro uid huid
      obtain ⟨i, hi, hat⟩ := viewIndex_of_mem hview (hinview uid huid)
      simp [hi, hat]
    simp only [Option.elim, Modified.uidsIn, List.filterMap_filterMap]
    exact (List.filterMap_congr hback).trans (List.filterMap_some)

end

/-- With a bound of zero STORE reports nothing, so it names no row if that is right. -/
theorem unnamed_of_store_zero (hrows : ∀ m ∈ f.messages, 0 < m.modseq) {flags : List Bytes}
    {op : FlagOp} {silent : Bool} {a' : Account} {shown : List (Nat × Message)}
    {report : Option Modified}
    (h : ss.store record a set flags op silent 0 now = .ok (a', shown, report))
    (hreported : report.elim [] (Modified.uidsIn ss.uids) =
      ss.namedUids set f fun m => decide (0 < m.modseq)) :
    ∀ m ∈ f.messages, m.uid ∉ selected ss.uids set := by
  have hnone : report = none := by
    unfold Session.store at h
    cases hreadOnly : ss.readOnly with
    | true =>
      rw [hreadOnly] at h
      cases h
    | false =>
      cases hmutate : a.mutateFlagsIf record.name (selected ss.uids set) flags op 0 now with
      | error e =>
        rw [hreadOnly, hmutate] at h
        cases h
      | ok r =>
        obtain ⟨b, modified⟩ := r
        obtain ⟨f', -, r, rfl, hmodified, -⟩ := Account.mutateFlagsIf_ok hmutate
        have hempty : modified = [] := by
          rw [hmodified, restate_modified]
          simp
        simp only [hreadOnly, hmutate, hempty, bind, Except.bind, pure, Except.pure,
          Bool.false_eq_true, if_false, if_true] at h
        split at h
        · cases h
          rfl
        · cases h
          rfl
  intro m hm hset
  have hin := mem_namedUids hm hset (p := fun m => decide (0 < m.modseq)) (decide_eq_true (hrows m hm))
  rw [← hreported, hnone] at hin
  cases hin

/-- FETCH answers with and flags messages above its bound only, exactly if it finds nothing to flag
below it; STORE does what it has to do exactly if its bound is not zero or it names no row. The
session's name for the folder is right and its view in order, and the rows have UIDs of their own
and MODSEQs above zero. -/
theorem conditional_commands (a : Account) (hids : (a.folders.map Folder.id).Nodup)
    (hwritable : a.writable = true) (ss : Session) (record : FolderRecord) (f : Folder)
    (hf : a.folder record.name = .ok f) (hid : f.id = record.id)
    (huids : (f.messages.map Message.uid).Nodup) (hrows : ∀ m ∈ f.messages, 0 < m.modseq)
    (hview : ss.uids.Pairwise (· < ·)) (set : NumSet) (now : Time) :
    (∀ o, (∃ a' data, ss.fetch record a set o now = .ok (a', data) ∧
        ss.Fetched set f o.changedSince a a' data) ↔ ss.flagsNone set o f) ∧
    (∀ flags op silent n, ss.readOnly = false →
      ((∃ a' shown report, ss.store record a set flags op silent n now = .ok (a', shown, report) ∧
        ss.Stored set f flags op n a a' report) ↔
      n ≠ 0 ∨ ∀ m ∈ f.messages, m.uid ∉ selected ss.uids set)) := by
  refine ⟨fun o => ⟨?_, fetch_spec hids hf hwritable hid hrows⟩, fun flags op silent n hreadOnly =>
    ⟨?_, store_spec hids hf hwritable hview hreadOnly flags op silent⟩⟩
  · rintro ⟨a', data, hok, hfetched⟩
    exact flagsNone_of_fetch hids hf huids hok hfetched.flagged
  · rintro ⟨a', shown, report, hok, hstored⟩
    by_cases hzero : n = 0
    · subst hzero
      exact .inr (unnamed_of_store_zero hrows hok hstored.reported)
    · exact .inl hzero

end

def twoMessages : Folder :=
  { newFolder 0 1 inbox with
    next := 3
    modseq := 9
    messages :=
      [{ uid := 1, body := 7, flags := [], date := 0, modseq := 4, size := 1, checksum := [] },
        { uid := 2, body := 8, flags := [], date := 0, modseq := 8, size := 1, checksum := [] }] }

def twoAccount : Account :=
  { (Journal.State.init (lit "a") (lit "ann@example.org") 0).account with
    used := 2
    folders := [twoMessages] }

def twoSession : Session :=
  { folder := some twoMessages.record
    uids := [1, 2]
    reported := 9
    readOnly := false
    calendarLevel := none }

def allSeqs : NumSet := .seqs [{ start := 1, stop := 0 }]

/-- The second message is the only one above the bound of five: FETCH answers with it alone and
flags nothing else, and STORE flags the first one alone and reports the second. -/
theorem conditional_commands_two :
    (∃ a' data, twoSession.fetch twoMessages.record twoAccount allSeqs ⟨[true], [], 5⟩ 0 = .ok (a', data) ∧
      twoSession.Fetched allSeqs twoMessages 5 twoAccount a' data) ∧
    (∃ a' shown report,
      twoSession.store twoMessages.record twoAccount allSeqs [lit "\\flagged"] .add true 5 0 =
          .ok (a', shown, report) ∧
        twoSession.Stored allSeqs twoMessages [lit "\\flagged"] .add 5 twoAccount a' report) ∧
    twoSession.namedUids allSeqs twoMessages (fun m => decide (5 < m.modseq)) = [2] ∧
    twoSession.namedUids allSeqs twoMessages (fun m => decide (m.modseq ≤ 5)) = [1] := by
  obtain ⟨hfetch, hstore⟩ := conditional_commands twoAccount (by decide) rfl twoSession
    twoMessages.record twoMessages (by decide +kernel) rfl (by decide) (by decide) (by decide) allSeqs 0
  exact ⟨(hfetch ⟨[true], [], 5⟩).2 fun hseen => absurd hseen (by decide),
    (hstore [lit "\\flagged"] .add true 5 rfl).2 (.inl (by decide)), by decide +kernel,
    by decide +kernel⟩

/-- A section without PEEK: the first message is flagged and answered, although it had not changed
since. And a bound of zero: both messages are changed, and none is reported. -/
theorem bounds_not_kept :
    (twoSession.fetch twoMessages.record twoAccount allSeqs ⟨[false], [], 5⟩ 0).toOption.map
        (fun r => (r.2.map fun d => d.2.uid, (r.1.folders.flatMap Folder.messages).map Message.flags)) =
      some ([1, 2], [[seenFlag], [seenFlag]]) ∧
    (twoSession.store twoMessages.record twoAccount allSeqs [seenFlag] .add false 0 0).toOption.map
        (fun r => (r.2.2, (r.1.folders.flatMap Folder.messages).map Message.flags)) =
      some (none, [[seenFlag], [seenFlag]]) := by
  decide +kernel

end Elemta.Mailbox
