import Elemta.Mailbox.Imap

/-!
# Commands and the selected folder

A command names the folder of its session to the engine, and by then the name may belong to
another folder, whose messages have the same UIDs as those in the view. As long as the
account has no other folder under that name, a command changes and removes messages of the
folder that was selected only, and of those only what is in the session's view.
-/

namespace Elemta.Mailbox

open Bytes Slots

/-! ## What a command leaves alone -/

theorem selected_sub {view : List Nat} {set : NumSet} {uid : Nat} (h : uid ∈ selected view set) :
    uid ∈ view := by
  obtain ⟨i, -, hi⟩ := List.mem_filterMap.1 h
  exact List.mem_of_getElem? hi

def Write.about : Write → Option (Bytes × List Nat)
  | .mutateFlags name uids _ _ _ | .expunge name uids _ _ | .copyMove name _ uids _ _ => some (name, uids)
  | _ => none

theorem transaction_about {ss : Session} {record : FolderRecord} {command : Command} {w : Write}
    (hw : ss.transaction record command = some w) :
    ∃ set, w.about = some (record.name, selected ss.uids set) := by
  revert hw
  fun_cases Session.transaction ss record command with
  | case1 set | case4 set | case7 set | case9 set =>
    rintro ⟨⟩
    exact ⟨set, rfl⟩
  | case6 =>
    rintro ⟨⟩
    exact ⟨_, rfl⟩
  | _ => nofun

/-- A transaction touches the folder that it is about, and of that only those UIDs. -/
theorem Journal.Write.run_confined {w : Mailbox.Write} {s : Journal.State} {now : Time} {a : Account}
    {name : Bytes} {uids : List Nat} (hids : (s.account.folders.map Folder.id).Nodup)
    (hw : w.about = some (name, uids)) (h : Journal.Write.run s now w = .ok a) :
    a = s.account ∨ ∃ f, s.account.folder name = .ok f ∧ Account.Confined f uids s.account a := by
  cases w with
  | mutateFlags name uids flags op since =>
    cases hw
    obtain ⟨⟨_, modified⟩, hok, rfl⟩ := ok_of_map h
    exact .inr (mutateFlagsIf_confined hids hok)
  | expunge name uids requireDeleted held =>
    cases hw
    obtain ⟨⟨_, removed⟩, hok, rfl⟩ := ok_of_map h
    exact expunge_confined hids hok
  | copyMove src dst uids move ready =>
    cases hw
    obtain ⟨⟨_, r⟩, hok, rfl⟩ := ok_of_map h
    exact .inr (copyMove_confined hids hok)
  | _ => cases hw

namespace Imap

/-! ## The folder of a session -/

def State.named (s : State) (record : FolderRecord) : Bool :=
  match s.store.account.folder record.name with
  | .error _ => true
  | .ok f => f.id == record.id

def Command.addresses : Command → Bool
  | .select _ _ | .unselect | .poll _ => false
  | _ => true

/-- Whenever a session names its folder to the engine, in a transaction or for the snapshot that a poll
takes, the name is not another folder's. -/
def addressed (s : State) : Input → Bool
  | .command i command _ _ =>
    match s.clients[i]? with
    | none => true
    | some c => !Command.addresses command || c.session.folder.all s.named
  | .pollNext i _ =>
    match s.clients[i]? with
    | none => true
    | some c =>
      match c.polling with
      | some (.snapshot _) => c.session.folder.all s.named
      | _ => true
  | _ => true

/-- The number is given out, and a folder that has it has the UIDVALIDITY. -/
structure Anchored (t : Journal.State) (id validity : Nat) : Prop where
  known : id < t.nextFolder
  validity : ∀ f ∈ t.account.folders, f.id = id → f.validity = validity

structure Tied (t : Journal.State) (c : Client) : Prop where
  same : c.origin = c.session.folder.map fun record => (record.id, record.validity)
  found : ∀ record pending start, c.polling = some (.report record pending start) →
    c.origin = some (record.id, record.validity)
  anchored : ∀ id validity, c.origin = some (id, validity) → Anchored t id validity

structure Selected (s : State) : Prop where
  intact : Journal.Intact s.store
  tied : ∀ c ∈ s.clients, Tied s.store c

section Steps

variable {s : State} {t : Journal.State} {i : Nat} {c c' : Client} {record : FolderRecord} {f : Folder}

theorem named_iff : s.named record = true ↔
    ∀ f, s.store.account.folder record.name = .ok f → f.id = record.id := by
  unfold State.named
  split
  · rename_i hnone
    simp [hnone]
  · rename_i f hf
    simp [hf]

theorem Anchored.step {id validity : Nat} (h : Anchored t id validity) (ht : Journal.Intact t)
    (input : Journal.Input) : Anchored (Journal.step t input) id validity := by
  refine ⟨Nat.lt_of_lt_of_le h.known (Journal.nextFolder_step input), fun f' hf' hid => ?_⟩
  obtain ⟨f, hf, hmoves⟩ := ht.came input hf' (hid ▸ h.known)
  exact hmoves.validity.trans (h.validity f hf (hmoves.id.symm.trans hid))

theorem anchored_of_mem (ht : Journal.Intact t) (hf : f ∈ t.account.folders) :
    Anchored t f.id f.validity := by
  refine ⟨ht.drawn f hf, fun g hg hid => ?_⟩
  rw [List.inj_on_of_nodup_map ht.sound.ids hg hf hid]

theorem Tied.origin_eq (h : Tied t c) (hrecord : c.session.folder = some record) :
    c.origin = some (record.id, record.validity) := by
  rw [h.same, hrecord]
  rfl

/-- A folder that is there under the number that the session has. -/
theorem Tied.origin_of_mem (h : Tied t c) (hrecord : c.session.folder = some record)
    (hf : f ∈ t.account.folders) (hid : f.id = record.id) : c.origin = some (f.id, f.validity) := by
  have horigin := h.origin_eq hrecord
  rw [horigin, hid, (h.anchored _ _ horigin).validity f hf hid]

theorem Tied.keep (h : Tied t c) (horigin : c'.origin = c.origin)
    (hfolder : (c'.session.folder.map fun r => (r.id, r.validity)) = c.origin)
    (hfound : ∀ r pending start, c'.polling = some (.report r pending start) →
      c.origin = some (r.id, r.validity)) : Tied t c' where
  same := horigin.trans hfolder.symm
  found r pending start hpolling := horigin.trans (hfound r pending start hpolling)
  anchored id validity hid := h.anchored id validity (horigin ▸ hid)

theorem Selected.setClient (h : Selected s) (hc : Tied s.store c) : Selected (s.setClient i c) :=
  ⟨h.intact, Slots.forall_set h.tied hc⟩

theorem Selected.other (h : Selected s) (input : Journal.Input) :
    Selected { s with store := Journal.step s.store input } where
  intact := h.intact.step input
  tied c hc :=
    ⟨(h.tied c hc).same, (h.tied c hc).found, fun id validity hid =>
      ((h.tied c hc).anchored id validity hid).step h.intact input⟩

theorem Selected.transact (h : Selected s) (hc : s.clients[i]? = some c) (w : Write) (begun : Time)
    (answered : Bool) : Selected (s.transact i c w begun answered) := by
  have hstore := h.other (.write w begun)
  unfold State.transact
  split
  · refine hstore.setClient ?_
    have htied := hstore.tied c (List.mem_of_getElem? hc)
    exact htied.keep rfl htied.same.symm htied.found
  · exact hstore

theorem applyChanges_folder (ss : Session) (f : Folder) (record : FolderRecord) (ch : FolderChanges)
    (allowExpunge : Bool) :
    (ss.applyChanges f record ch allowExpunge).1.folder = some { record with name := f.name } ∨
      (ss.applyChanges f record ch allowExpunge).1.folder = some f.record := by
  unfold Session.applyChanges
  split
  · exact .inl rfl
  dsimp only
  split
  · exact .inl rfl
  · exact .inr rfl

theorem Selected.lookUp (h : Selected s) (hc : s.clients[i]? = some c) (hidle : c.polling = none)
    (command : Command) : Selected (s.lookUp i c command) := by
  have htied := h.tied c (List.mem_of_getElem? hc)
  have hnone {P : Prop} {r pending start} (hpolling : c.polling = some (.report r pending start)) :
      P := by
    rw [hidle] at hpolling
    cases hpolling
  fun_cases State.lookUp s i c command with
  | case2 name readOnly _ f hf =>
    have hanchored := anchored_of_mem h.intact (Account.folder_ok hf).1
    refine h.setClient ⟨rfl, fun r pending start => hnone, fun id validity hid => ?_⟩
    cases hid
    exact hanchored
  | case4 => exact h.setClient ⟨rfl, fun r pending start => hnone, nofun⟩
  | case7 allowExpunge record hrecord f hfound ch hcomplete session sent hsent =>
    have hid : f.id = record.id := by simpa using List.find?_some hfound
    have horigin := htied.origin_of_mem hrecord (List.mem_of_find?_eq_some hfound) hid
    refine h.setClient (htied.keep rfl ?_ fun r pending start => hnone)
    have happlied := applyChanges_folder c.session f record ch allowExpunge
    rw [hsent] at happlied
    rcases happlied with hkept | hnew
    · exact (congrArg (Option.map _) hkept).trans (htied.origin_eq hrecord).symm
    · exact (congrArg (Option.map _) hnew).trans horigin.symm
  | case8 allowExpunge record hrecord =>
    exact h.setClient (htied.keep rfl (htied.origin_eq hrecord).symm nofun)
  | _ => exact h

theorem Selected.pollNext {p : Polling} (h : Selected s) (hc : s.clients[i]? = some c)
    (hrecord : c.session.folder = some record) (hpolling : c.polling = some p)
    (hnamed : ∀ allowExpunge, p = .snapshot allowExpunge → s.named record = true) (failed : Bool) :
    Selected (s.pollNext i c record p failed) := by
  have htied := h.tied c (List.mem_of_getElem? hc)
  have hstop : Tied s.store { c with polling := none } := htied.keep rfl htied.same.symm nofun
  unfold State.pollNext
  split
  · exact h.setClient hstop
  split
  · split
    · exact h.setClient hstop
    · -- the snapshot is of the folder that has the name
      rename_i allowExpunge _ f hf
      have hid := named_iff.1 (hnamed allowExpunge rfl) f hf
      have horigin := htied.origin_of_mem hrecord (Account.folder_ok hf).1 hid
      refine h.setClient (htied.keep rfl ?_ fun r pending start hreport => ?_)
      · split
        · exact htied.same.symm
        · exact htied.same.symm
      · cases hreport
        exact horigin
  · rename_i found pending start
    have hfound := htied.found found pending start hpolling
    split
    · refine h.setClient (htied.keep rfl htied.same.symm fun r pending' start' hreport => ?_)
      cases hreport
      exact hfound
    refine h.setClient (htied.keep rfl ?_ nofun)
    split
    · exact (htied.origin_eq hrecord).symm
    · exact hfound.symm

theorem Selected.step (h : Selected s) (input : Input) (haddressed : addressed s input = true) :
    Selected (Imap.step s input) := by
  cases input with
  | other input => exact h.other input
  | connect level =>
    exact ⟨h.intact, Slots.forall_concat h.tied ⟨rfl, nofun, nofun⟩⟩
  | command i command begun answered =>
    simp only [Imap.step]
    split
    · exact h
    rename_i c hc
    split
    · exact h
    rename_i hidle
    split
    · exact h.transact hc _ begun answered
    · exact h.lookUp hc (by simpa using hidle) command
  | pollNext i failed =>
    simp only [Imap.step]
    split
    · exact h
    rename_i c hc
    split
    · rename_i record p hrecord hpolling
      refine h.pollNext hc hrecord hpolling (fun allowExpunge hp => ?_) failed
      simpa [addressed, hc, hpolling, hp, hrecord] using haddressed
    · exact h

end Steps

theorem selected_init (id address : Bytes) (quota : Int) : Selected (State.init id address quota) where
  intact := Journal.intact_init id address quota
  tied := nofun

theorem selected_run {id address : Bytes} {quota : Int} {inputs : List Input}
    (h : Machine.Along step (fun s input => addressed s input = true) (State.init id address quota) inputs) :
    Selected (Machine.run step (State.init id address quota) inputs) :=
  h.run_invariant Selected (fun _ input haddressed hs => hs.step input haddressed)
    (selected_init id address quota)

/-! ## Commands -/

theorem store_lookUp (s : State) (i : Nat) (c : Client) (command : Command) :
    (s.lookUp i c command).store = s.store := by
  fun_cases State.lookUp s i c command <;> rfl

theorem store_transact (s : State) (i : Nat) (c : Client) (w : Write) (begun : Time) (answered : Bool) :
    (s.transact i c w begun answered).store = Journal.step s.store (.write w begun) := by
  unfold State.transact
  split
  · rfl
  · rfl

/-- What a command asks the engine to do, it asks under the name of its folder. -/
theorem transaction_addresses {ss : Session} {record : FolderRecord} {command : Command} {w : Write}
    (h : ss.transaction record command = some w) : Command.addresses command = true := by
  cases command with
  | select | unselect | poll => cases h
  | _ => rfl

/-- In every run in which no session names another folder than its own, the rows that a command changes
or removes are in the view of its session and belong to the folder that the session selected, which
has the id and the UIDVALIDITY that it had. -/
theorem commands_stay_in_folder (id address : Bytes) (quota : Int) (inputs : List Input) (i : Nat)
    (command : Command) (begun : Time) (answered : Bool)
    (h : Machine.Along step (fun s input => addressed s input = true) (State.init id address quota)
      (inputs ++ [.command i command begun answered])) :
    ∀ f ∈ (Machine.run step (State.init id address quota) inputs).store.account.folders,
      ∀ m ∈ f.messages,
        (∃ f' ∈ (Machine.run step (State.init id address quota)
            (inputs ++ [.command i command begun answered])).store.account.folders,
          f'.id = f.id ∧ m ∈ f'.messages) ∨
        ∃ c, (Machine.run step (State.init id address quota) inputs).clients[i]? = some c ∧
          c.origin = some (f.id, f.validity) ∧ m.uid ∈ c.session.uids := by
  obtain ⟨hbefore, haddressed, -⟩ := Machine.along_append.1 h
  have hs := selected_run hbefore
  rw [Machine.run_append, Machine.run_cons, Machine.run_nil]
  generalize Machine.run step (State.init id address quota) inputs = s at hs haddressed ⊢
  intro f hf m hm
  have hstay : (∃ f' ∈ s.store.account.folders, f'.id = f.id ∧ m ∈ f'.messages) := ⟨f, hf, rfl, hm⟩
  simp only [step]
  cases hc : s.clients[i]? with
  | none => exact .inl hstay
  | some c =>
    dsimp only
    split
    · exact .inl hstay
    split
    · rename_i w hw
      obtain ⟨record, hrecord, hw⟩ := Option.bind_eq_some_iff.1 hw
      rw [store_transact]
      rcases Journal.write_cases s.store w begun with hsame | hrun
      · rw [hsame]
        exact .inl hstay
      obtain ⟨set, habout⟩ := transaction_about hw
      rcases Journal.Write.run_confined hs.intact.sound.ids habout hrun with hsame | ⟨g, hg, hconfined⟩
      · rw [hsame]
        exact .inl hstay
      · -- the folder of that name is the one that was selected
        rcases hconfined f hf m hm with hkept | ⟨rfl, huid⟩
        · exact .inl hkept
        have hnamed : s.named record = true := by
          simpa [addressed, hc, hrecord, transaction_addresses hw] using haddressed
        refine .inr ⟨c, rfl, ?_, selected_sub huid⟩
        exact (hs.tied c (List.mem_of_getElem? hc)).origin_of_mem hrecord hf (named_iff.1 hnamed f hg)
    · rw [store_lookUp]
      exact .inl hstay

def arrives (name : Bytes) (key : Nat) : Input :=
  .other (.write (.append name
    { key := key, size := 1, checksum := [], flags := [lit "\\deleted"], date := 0, token := [] } true) 0)

/-- A session selects a folder, which is then renamed; another gets its name. -/
def renamed : List Input :=
  [.other (.write (.create (lit "Work")) 0), arrives (lit "Work") 7, .connect none,
    .command 0 (.select (lit "Work") false) 0 true,
    .other (.write (.rename (lit "Work") (lit "Done")) 0),
    .other (.write (.create (lit "Work")) 0), arrives (lit "Work") 8]

def bodiesAfter (inputs : List Input) : List (List Key) :=
  (Machine.run step (.init (lit "a") (lit "ann@example.org") 0) inputs).store.account.folders.map fun f =>
    f.messages.map Message.body

/-- The session polls before it expunges: it has the folder's new name, and its message goes. -/
theorem commands_stay_in_folder_afterPoll :
    bodiesAfter (renamed ++ [.command 0 (.poll true) 0 true]) = [[], [7], [8]] ∧
    bodiesAfter (renamed ++ [.command 0 (.poll true) 0 true] ++
      [.command 0 (.expunge none false) 0 true]) = [[], [], [8]] ∧
    ∀ f ∈ (Machine.run step (.init (lit "a") (lit "ann@example.org") 0)
        (renamed ++ [.command 0 (.poll true) 0 true])).store.account.folders, ∀ m ∈ f.messages,
      (∃ f' ∈ (Machine.run step (.init (lit "a") (lit "ann@example.org") 0)
          (renamed ++ [.command 0 (.poll true) 0 true] ++
            [.command 0 (.expunge none false) 0 true])).store.account.folders,
        f'.id = f.id ∧ m ∈ f'.messages) ∨
      ∃ c, (Machine.run step (.init (lit "a") (lit "ann@example.org") 0)
          (renamed ++ [.command 0 (.poll true) 0 true])).clients[0]? = some c ∧
        c.origin = some (f.id, f.validity) ∧ m.uid ∈ c.session.uids := by
  have hrun : Machine.Along step (fun s input => addressed s input = true)
      (State.init (lit "a") (lit "ann@example.org") 0)
      (renamed ++ [.command 0 (.poll true) 0 true] ++ [.command 0 (.expunge none false) 0 true]) := by
    decide +kernel
  have hstays := commands_stay_in_folder (lit "a") (lit "ann@example.org") 0
    (renamed ++ [.command 0 (.poll true) 0 true]) 0 (.expunge none false) 0 true hrun
  exact ⟨by decide +kernel, by decide +kernel, hstays⟩

/-- The session expunges at once: a message goes that is in a folder it has never selected. -/
theorem expunged_in_other_folder :
    ∃ f ∈ (Machine.run step (.init (lit "a") (lit "ann@example.org") 0) renamed).store.account.folders,
      ∃ m ∈ f.messages,
        (∀ f' ∈ (Machine.run step (.init (lit "a") (lit "ann@example.org") 0)
            (renamed ++ [.command 0 (.expunge none false) 0 true])).store.account.folders, m ∉ f'.messages) ∧
        ∀ c ∈ (Machine.run step (.init (lit "a") (lit "ann@example.org") 0) renamed).clients,
          c.origin ≠ some (f.id, f.validity) := by
  decide +kernel

end Imap
end Elemta.Mailbox
