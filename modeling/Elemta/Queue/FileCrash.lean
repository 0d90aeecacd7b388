import Elemta.Queue.FileStore

/-!
# Crashes of the file backend

Wherever `createMessageIfAbsent` or `DeleteMessageWithTombstone` dies, the files
of the id are in a state that the same call recognizes and completes. Once there
is an entry or a tombstone, a conflicting enqueue changes nothing.
-/

namespace Elemta.Queue.FileStore

open Bytes Crash

def FreshNames (random : Dir → Bytes) (d : Files) : Prop :=
  ∀ dir, d (.temp dir (random dir)) = none

section

variable {d : Files} {random : Dir → Bytes} {Q : Answer → Files → Prop} {C : Files → Prop}

theorem wp_publish {name : Bytes} {dir : Dir} {target : Path} {file : File}
    {next : Prog Files Answer} (hne : Path.temp dir name ≠ target) (hstart : C d)
    (htaken : d (.temp dir name) ≠ none → Q (.error .tempExists) d)
    (htemp : ∀ f, C (d.put (.temp dir name) f)) (hnext : next.wp Q C (d.put target file)) :
    (publish name dir target file next).wp Q C d := by
  apply Prog.wp_bind
  apply Disk.wp_atomicWrite hne hstart
  · intro hsome
    exact ⟨htaken hsome, hstart⟩
  · intro f _
    exact htemp f
  · intro _
    exact ⟨hnext, Prog.wp_start _ hnext⟩

/-! ## Enqueue over an entry or a tombstone -/

variable {msg m : Message} {content body : Bytes}

def entryAnswer (m : Message) (body : Bytes) (msg : Message) (content : Bytes) : Answer :=
  if !sameEnqueueMessage m msg then .error .metadataConflict
  else if contentHash body ≠ contentHash content then .error .contentConflict
  else .ok false

def tombstoneAnswer (t : EnqueueTombstone) (msg : Message) (content : Bytes) : Answer :=
  if sameEnqueueMessage t.message msg && matchesContent t content (contentHash content) then
    .ok false
  else .error .consumedConflict

def Answers (p : Prog Files Answer) (a : Answer) (d : Files) : Prop :=
  p.wp (fun answer d' => answer = a ∧ d' = d) (· = d) d

section

variable (hid : validateMessageID msg.id = none)

include hid

theorem create_of_complete (h : Complete (view d msg.id) msg.id m body) :
    Answers (createMessageIfAbsent random msg content) (entryAnswer m body msg content) d := by
  have htomb : d (.tombstone msg.id) = none := h.tombstone
  simp only [Answers, createMessageIfAbsent, hid, Prog.wp_read, htomb, retrieve_of_complete hid h,
    storedHash_of_body h.body, entryAnswer]
  split
  · simp
  · split
    · simp
    · simp

theorem create_of_buried {t : EnqueueTombstone} (h : Buried (view d msg.id) t) :
    Answers (createMessageIfAbsent random msg content) (tombstoneAnswer t msg content) d := by
  have htomb : d (.tombstone msg.id) = some (.tombstone t) := h.tombstone
  simp only [Answers, createMessageIfAbsent, hid, Prog.wp_read, htomb, tombstoneAnswer]
  split
  · simp
  · simp

theorem create_of_foreign_orphan
    (h : Orphan (view d msg.id) body) (hhash : contentHash body ≠ contentHash content) :
    Answers (createMessageIfAbsent random msg content) (.error .orphanConflict) d := by
  have htomb : d (.tombstone msg.id) = none := h.tombstone
  simp only [Answers, createMessageIfAbsent, hid, Prog.wp_read, htomb, retrieve_of_noMessage h.message,
    storedHash_of_body h.body]
  rw [if_pos hhash]
  simp

end

end

/-! ## Enqueue of a new message -/

/-- The states that a new enqueue goes through; `body` is what ends up as the message's body. -/
inductive Enqueuing (call : EnqueueCall) (body : Bytes) (v : View) : Prop where
  | absent (h : Absent v) (own : body = call.content)
  | orphan (h : Orphan v body)
  | complete (now : Time) (h : Complete v call.id (call.message now).persisted body)

section

variable {d : Files} {random : Dir → Bytes} {call : EnqueueCall} {body : Bytes}

/-- The metadata makes an entry of a body that stands alone. -/
theorem Orphan.putMessage (hutf : Utf8.valid call.id = true)
    (h : Orphan (view d call.id) body) (now : Time) :
    Complete (view (d.put (.message (call.message now).queueType call.id)
      (.message (call.message now).persisted)) call.id) call.id (call.message now).persisted
      body := by
  have hown : Utf8.toValid call.id = call.id := Utf8.toValid_eq_self_iff.2 hutf
  rw [view_put_message]
  refine ⟨hown, ?_, ?_, h.body, h.tombstone⟩
  · show Function.update (view d call.id).message .active
      (some (.message (call.message now).persisted)) .active = _
    rw [Function.update_self]
  · intro q hq
    have hother : q ≠ .active := hq
    show Function.update (view d call.id).message .active
      (some (.message (call.message now).persisted)) q = none
    rw [Function.update_of_ne hother]
    exact h.message q

/-- From wherever it starts or starts again, a new enqueue dies in one of its states, and ends
with the entry if its temporary files could be made. -/
theorem wp_create (hid : validateMessageID call.id = none) (hutf : Utf8.valid call.id = true)
    (hhash : contentHash body = contentHash call.content) (now : Time)
    (h : Enqueuing call body (view d call.id)) :
    (createMessageIfAbsent random (call.message now) call.content).wp
      (fun _ d' => FreshNames random d →
        ∃ now, Complete (view d' call.id) call.id (call.message now).persisted body)
      (fun d' => Enqueuing call body (view d' call.id)) d := by
  have hid' : validateMessageID (call.message now).id = none := hid
  cases h with
  | complete stored h =>
    refine Prog.wp_mono _ ?_ ?_ (create_of_complete hid' h)
    · rintro _ d' ⟨-, rfl⟩ _
      exact ⟨stored, h⟩
    · rintro d' rfl
      exact .complete stored h
  | orphan h =>
    have htomb : d (.tombstone (call.message now).id) = none := h.tombstone
    have hnone : retrieve d (call.message now).id = none := retrieve_of_noMessage h.message
    have hstored : storedHash d (call.message now).id = some (contentHash body) :=
      storedHash_of_body h.body
    simp only [createMessageIfAbsent, hid', Prog.wp_read, htomb, hnone, hstored, hhash, ne_eq,
      not_true, if_false, storeMessage]
    have hdone := h.putMessage hutf now
    refine wp_publish (by simp) (.orphan h) ?_ ?_ ⟨fun _ => ⟨now, hdone⟩, .complete now hdone⟩
    · exact fun htaken hfresh => absurd (hfresh _) htaken
    · intro f
      exact .orphan h
  | absent h own =>
    subst own
    have htomb : d (.tombstone (call.message now).id) = none := h.tombstone
    have hnone : retrieve d (call.message now).id = none := retrieve_of_noMessage h.message
    have hstored : storedHash d (call.message now).id = none := storedHash_of_none h.body
    simp only [createMessageIfAbsent, hid', Prog.wp_read, htomb, hnone, hstored, storeContent,
      storeMessage]
    -- the body comes first, and the metadata makes an entry of it
    have hbody : Orphan (view (d.put (.body call.id) (.body call.content)) call.id)
        call.content := by
      rw [view_put_body]
      exact ⟨h.message, rfl, h.tombstone⟩
    have hdone := hbody.putMessage hutf now
    refine wp_publish (by simp) (.absent h rfl) ?_ ?_ ?_
    · exact fun htaken hfresh => absurd (hfresh _) htaken
    · intro f
      exact .absent h rfl
    · refine wp_publish (by simp) (.orphan hbody) ?_ ?_
        ⟨fun _ => ⟨now, hdone⟩, .complete now hdone⟩
      · intro htaken hfresh
        refine absurd ?_ htaken
        exact hfresh _
      · intro f
        exact .orphan hbody

end

/-! ## Consume -/

/-- The states that a consume goes through from `start`: nothing has changed yet, or the
tombstone is there. -/
def Consuming (start : View) (t : EnqueueTombstone) (v : View) : Prop :=
  AtMostOne v ∧ (v = start ∨ v.tombstone = some (.tombstone t))

section

variable {d : Files} {random : Dir → Bytes} {retain : Bool} {msg : Message}
  {content : Bytes} {start : View}

theorem AtMostOne.unlink {v : View} (h : AtMostOne v) {q : QueueType} (hq : v.message q ≠ none) :
    NoMessage { v with message := Function.update v.message q none } := by
  intro q'
  by_cases hq' : q' = q
  · subst hq'
    exact Function.update_self q' _ _
  · refine (Function.update_of_ne hq' _ _).trans ?_
    by_contra hsome
    exact hq' (h q' q hsome hq)

variable {id : Bytes} {t : EnqueueTombstone}

theorem noMessage_of_find?_eq_none
    (h : (queueOrder.find? fun q => (d (.message q id)).isSome) = none) :
    NoMessage (view d id) := by
  intro q
  have hall := List.find?_eq_none.1 h
  have hmem : q ∈ queueOrder := by
    cases q <;> decide
  simpa [view] using hall q hmem

theorem wp_deleteContent (hnone : NoMessage (view d id))
    (htomb : (view d id).tombstone = some (.tombstone t)) :
    (deleteContent id (.done (.ok true))).wp
      (fun answer d' => answer = .ok true ∧ Gone (view d' id) t)
      (fun d' => Consuming start t (view d' id)) d := by
  have hatMost : ∀ {v : View}, NoMessage v → AtMostOne v :=
    fun hv q _ hq => absurd (hv q) hq
  unfold deleteContent
  rw [Prog.wp_read]
  split
  · rw [Prog.wp_write, Prog.wp_done, view_unlink_body]
    exact ⟨⟨hatMost hnone, .inr htomb⟩, ⟨rfl, htomb, hnone, rfl⟩, hatMost hnone, .inr htomb⟩
  · rename_i hbody
    have hbody' : (view d id).body = none := by simpa [view] using hbody
    exact ⟨⟨rfl, htomb, hnone, hbody'⟩, hatMost hnone, .inr htomb⟩

theorem wp_deleteMessage (hone : AtMostOne (view d id))
    (htomb : (view d id).tombstone = some (.tombstone t)) :
    (deleteMessage id (deleteContent id (.done (.ok true)))).wp
      (fun answer d' => answer = .ok true ∧ Gone (view d' id) t)
      (fun d' => Consuming start t (view d' id)) d := by
  unfold deleteMessage
  rw [Prog.wp_read]
  split
  · rename_i q hfind
    have hq : (view d id).message q ≠ none := by
      simpa [view, Option.isSome_iff_ne_none] using List.find?_some hfind
    refine ⟨⟨hone, .inr htomb⟩, wp_deleteContent ?_ ?_⟩
    · rw [view_unlink_message]
      exact hone.unlink hq
    · exact htomb
  · rename_i hfind
    exact wp_deleteContent (noMessage_of_find?_eq_none hfind) htomb

/-- From wherever it starts or starts again, a consume ends with the tombstone alone, and until
the tombstone is there nothing has changed. -/
theorem wp_delete (hid : validateMessageID msg.id = none)
    (h : Consuming start (newTombstone retain msg content) (view d msg.id)) :
    (deleteMessageWithTombstone random retain msg content).wp
      (fun answer d' => FreshNames random d →
        answer = .ok true ∧ Gone (view d' msg.id) (newTombstone retain msg content))
      (fun d' => Consuming start (newTombstone retain msg content) (view d' msg.id)) d := by
  refine wp_publish (by simp) h ?_ ?_ ?_
  · exact fun htaken hfresh => absurd (hfresh _) htaken
  · intro f
    exact h
  · simp only [hid]
    refine Prog.wp_mono _ (fun _ _ hgone _ => hgone) (fun _ hd => hd) (wp_deleteMessage ?_ ?_)
    · exact h.1
    · rw [view_put_tombstone]

end

/-! ## Other messages -/

section

variable {C : Files → Prop} {next : Prog Files Answer}

/-- Whatever it does and wherever it dies, the program keeps `C`. -/
def Keeps (C : Files → Prop) (p : Prog Files Answer) : Prop :=
  ∀ d, C d → p.wp (fun _ => C) C d

theorem keeps_done (answer : Answer) : Keeps C (.done answer) :=
  fun _ h => ⟨h, h⟩

theorem keeps_read {next : Files → Prog Files Answer} (h : ∀ d, Keeps C (next d)) :
    Keeps C (.read next) :=
  fun d hd => h d d hd

theorem keeps_write {f : Files → Files} (hf : ∀ d, C d → C (f d)) (h : Keeps C next) :
    Keeps C (.write f next) :=
  fun d hd => ⟨hd, h (f d) (hf d hd)⟩

variable {random : Dir → Bytes} {msg : Message} {content : Bytes}
  (htemp : ∀ d dir name f, C d → C (d.put (.temp dir name) f))

include htemp

theorem keeps_publish {name : Bytes} {dir : Dir} {target : Path} {file : File}
    (hne : Path.temp dir name ≠ target) (htarget : ∀ d, C d → C (d.put target file))
    (hnext : Keeps C next) : Keeps C (publish name dir target file next) := by
  intro d hd
  refine wp_publish hne hd (fun _ => hd) ?_ (hnext _ (htarget d hd))
  exact fun f => htemp d dir name f hd

theorem keeps_create (hbody : ∀ d, C d → C (d.put (.body msg.id) (.body content)))
    (hmessage : ∀ d, C d → C (d.put (.message msg.queueType msg.id) (.message msg.persisted))) :
    Keeps C (createMessageIfAbsent random msg content) := by
  have hstore : Keeps C (storeMessage random msg (.done (.ok true))) :=
    keeps_publish htemp (by simp) hmessage (keeps_done _)
  unfold createMessageIfAbsent
  split
  · exact keeps_done _
  refine keeps_read fun d => ?_
  split
  · split <;> exact keeps_done _
  · exact keeps_done _
  · split
    · split
      · exact keeps_done _
      · split <;> exact keeps_done _
    · split
      · exact keeps_done _
      · exact keeps_publish htemp (by simp) hbody (keeps_done _)
    · split
      · exact keeps_done _
      · exact hstore
    · exact keeps_publish htemp (by simp) hbody hstore

theorem keeps_delete {retain : Bool}
    (htomb : ∀ d t, C d → C (d.put (.tombstone msg.id) (.tombstone t)))
    (hunlink : ∀ d path, C d → path = .body msg.id ∨ (∃ q, path = .message q msg.id) →
      C (d.unlink path)) :
    Keeps C (deleteMessageWithTombstone random retain msg content) := by
  have hcontent : Keeps C (deleteContent msg.id (.done (.ok true))) := by
    refine keeps_read fun d => ?_
    split
    · exact keeps_write (fun d hd => hunlink d _ hd (.inl rfl)) (keeps_done _)
    · exact keeps_done _
  refine keeps_publish htemp (by simp) (fun d => htomb d _) ?_
  split
  · exact keeps_done _
  · refine keeps_read fun d => ?_
    split
    · exact keeps_write (fun d hd => hunlink d _ hd (.inr ⟨_, rfl⟩)) hcontent
    · exact hcontent

end

section

variable {d : Files} {random : Dir → Bytes} {msg : Message} {content other : Bytes}

theorem view_put_of_ne {path : Path} {f : File} (hmessage : ∀ q, path ≠ .message q other)
    (hbody : path ≠ .body other) (htomb : path ≠ .tombstone other) :
    view (d.put path f) other = view d other := by
  simp [view, Disk.put, Ne.symm hbody, Ne.symm htomb, fun q => Ne.symm (hmessage q)]

def Frames (other : Bytes) (p : Prog Files Answer) : Prop :=
  ∀ v d, view d other = v →
    p.wp (fun _ d' => view d' other = v) (fun d' => view d' other = v) d

theorem create_frame (hne : other ≠ msg.id) :
    Frames other (createMessageIfAbsent random msg content) := by
  refine fun v => keeps_create (fun _ _ _ _ h => h) (fun d => ?_) (fun d => ?_)
  · exact (view_put_of_ne (by simp) (by simp [Ne.symm hne]) (by simp)).trans
  · exact (view_put_of_ne (by simp [Ne.symm hne]) (by simp) (by simp)).trans

theorem delete_frame {retain : Bool} (hne : other ≠ msg.id) :
    Frames other (deleteMessageWithTombstone random retain msg content) := by
  refine fun v => keeps_delete (fun _ _ _ _ h => h) (fun d t => ?_) ?_
  · exact (view_put_of_ne (by simp) (by simp) (by simp [Ne.symm hne])).trans
  · rintro d _ rfl (rfl | ⟨q, rfl⟩) <;> simp [view, Disk.unlink, hne]

end

/-! ## Reachable disks -/

/-- The disks that enqueues and consumes can leave, each of which may have died anywhere. -/
inductive Reachable : Files → Prop where
  | empty : Reachable fun _ => none
  | enqueue {d : Files} (h : Reachable d) (random : Dir → Bytes) {call : EnqueueCall}
      (hid : validateMessageID call.id = none) (hutf : Utf8.valid call.id = true) (now : Time)
      (n : Nat) :
      Reachable ((createMessageIfAbsent random (call.message now) call.content).after n d)
  | consume {d : Files} (h : Reachable d) (random : Dir → Bytes) (retain : Bool)
      {msg : Message} (hid : validateMessageID msg.id = none) (content : Bytes) (n : Nat) :
      Reachable ((deleteMessageWithTombstone random retain msg content).after n d)

section

variable {d : Files} {random : Dir → Bytes}

theorem create_consistent {call : EnqueueCall} (hid : validateMessageID call.id = none)
    (hutf : Utf8.valid call.id = true) (now : Time) (h : Consistent (view d call.id) call.id)
    (n : Nat) :
    Consistent (view ((createMessageIfAbsent random (call.message now) call.content).after n d)
      call.id) call.id := by
  have hid' : validateMessageID (call.message now).id = none := hid
  have henqueuing : ∀ {body v}, Enqueuing call body v → Consistent v call.id := by
    intro body v hv
    cases hv with
    | absent h => exact .absent h
    | orphan h => exact .orphan _ h
    | complete now h => exact .complete _ _ h
  have hfixed : ∀ {d'}, d' = d → Consistent (view d' call.id) call.id := by
    rintro _ rfl
    exact h
  cases h with
  | absent h =>
    exact henqueuing (Prog.wp_after _ (wp_create hid hutf rfl now (.absent h rfl)) n)
  | orphan body h =>
    by_cases hhash : contentHash body = contentHash call.content
    · exact henqueuing (Prog.wp_after _ (wp_create hid hutf hhash now (.orphan h)) n)
    · exact hfixed (Prog.wp_after _ (create_of_foreign_orphan hid' h hhash) n)
  | complete m body h => exact hfixed (Prog.wp_after _ (create_of_complete hid' h) n)
  | buried t h => exact hfixed (Prog.wp_after _ (create_of_buried hid' h) n)

theorem delete_consistent {retain : Bool} {msg : Message} {content : Bytes}
    (hid : validateMessageID msg.id = none) (h : Consistent (view d msg.id) msg.id) (n : Nat) :
    Consistent (view ((deleteMessageWithTombstone random retain msg content).after n d) msg.id)
      msg.id := by
  obtain ⟨hone, hsame | htomb⟩ := Prog.wp_after _ (wp_delete hid ⟨h.atMostOne, .inl rfl⟩) n
  · rw [hsame]
    exact h
  · exact .buried _ ⟨htomb, hone⟩

theorem Reachable.consistent (h : Reachable d) (id : Bytes) : Consistent (view d id) id := by
  induction h with
  | empty => exact .absent ⟨fun _ => rfl, rfl, rfl⟩
  | @enqueue d _ random call hid hutf now n ih =>
    by_cases hown : id = call.id
    · subst hown
      exact create_consistent hid hutf now ih n
    · have hne : id ≠ (call.message now).id := hown
      rw [Prog.wp_after _ (create_frame hne _ d rfl) n]
      exact ih
  | @consume d _ random retain msg hid content n ih =>
    by_cases hown : id = msg.id
    · subst hown
      exact delete_consistent hid ih n
    · rw [Prog.wp_after _ (delete_frame hown _ d rfl) n]
      exact ih

end

/-! ## Retried calls -/

def enqueueAttempt (call : EnqueueCall) (choice : (Dir → Bytes) × Time) : Prog Files Answer :=
  createMessageIfAbsent choice.1 (call.message choice.2) call.content

def consumeAttempt (retain : Bool) (msg : Message) (content : Bytes)
    (random : Dir → Bytes) : Prog Files Answer :=
  deleteMessageWithTombstone random retain msg content

/-- The call reuses the id of something else: of an entry or a tombstone with another identity or
another content, or of a body that is not its own. -/
inductive Conflicts (v : View) (call : EnqueueCall) : Prop where
  | entry (m : Message) (body : Bytes) (h : Complete v call.id m body)
      (differs : sameEnqueueMessage m (call.message 0) = false ∨
        contentHash body ≠ contentHash call.content)
  | tombstone (t : EnqueueTombstone) (h : Buried v t)
      (differs : sameEnqueueMessage t.message (call.message 0) = false ∨
        matchesContent t call.content (contentHash call.content) = false)
  | orphan (body : Bytes) (h : Orphan v body)
      (differs : contentHash body ≠ contentHash call.content)

section

variable {d d' : Files} {call : EnqueueCall}

/-- An attempt that meets an entry; the time it is made at does not matter. -/
theorem enqueueAttempt_of_complete {m : Message} {body : Bytes}
    (hid : validateMessageID call.id = none) (h : Complete (view d call.id) call.id m body)
    (choice : (Dir → Bytes) × Time) :
    Answers (enqueueAttempt call choice) (entryAnswer m body (call.message 0) call.content) d :=
  @create_of_complete d choice.1 (call.message choice.2) m call.content body hid h

theorem enqueueAttempt_of_buried {t : EnqueueTombstone} (hid : validateMessageID call.id = none)
    (h : Buried (view d call.id) t) (choice : (Dir → Bytes) × Time) :
    Answers (enqueueAttempt call choice) (tombstoneAnswer t (call.message 0) call.content) d :=
  @create_of_buried d choice.1 (call.message choice.2) call.content hid t h

/-- A program that writes nothing leaves the disk as it is, however often it is retried. -/
theorem eq_of_retries {answer : Answer}
    (h : ∀ choice, Answers (enqueueAttempt call choice) answer d)
    (hretries : Prog.Retries (enqueueAttempt call) d d') :
    d' = d ∧ ∀ choice, (enqueueAttempt call choice).run d' = (answer, d) := by
  have hsame : d' = d := by
    refine hretries.invariant (C := (· = d)) ?_ rfl
    rintro choice _ rfl
    exact ⟨_, h choice⟩
  refine ⟨hsame, ?_⟩
  intro choice
  obtain ⟨hanswer, hdisk⟩ := Prog.wp_run _ (h choice)
  rw [hsame]
  exact Prod.ext hanswer hdisk

theorem Conflicts.refused (hid : validateMessageID call.id = none)
    (h : Conflicts (view d call.id) call) (hretries : Prog.Retries (enqueueAttempt call) d d') :
    d' = d ∧ ∀ choice, ∃ e, (enqueueAttempt call choice).run d' = (.error e, d) := by
  have hrefused : ∃ e, ∀ choice, Answers (enqueueAttempt call choice) (.error e) d := by
    cases h with
    | entry m body h differs =>
      obtain ⟨e, he⟩ : ∃ e, entryAnswer m body (call.message 0) call.content = .error e := by
        unfold entryAnswer
        split
        · exact ⟨_, rfl⟩
        · rename_i hsame
          have hhash := differs.resolve_left (by simpa using hsame)
          exact ⟨_, if_pos hhash⟩
      refine ⟨e, fun choice => ?_⟩
      rw [← he]
      exact enqueueAttempt_of_complete hid h choice
    | tombstone t h differs =>
      have he : tombstoneAnswer t (call.message 0) call.content = .error .consumedConflict := by
        unfold tombstoneAnswer
        rcases differs with hmessage | hbody
        · simp [hmessage]
        · simp [hbody]
      refine ⟨.consumedConflict, fun choice => ?_⟩
      rw [← he]
      exact enqueueAttempt_of_buried hid h choice
    | orphan body h differs =>
      refine ⟨.orphanConflict, fun choice => ?_⟩
      exact @create_of_foreign_orphan d choice.1 (call.message choice.2) call.content body hid h
        differs
  obtain ⟨e, he⟩ := hrefused
  obtain ⟨hsame, hrun⟩ := eq_of_retries he hretries
  exact ⟨hsame, fun choice => ⟨e, hrun choice⟩⟩

/-- The states that retries of a call that does not conflict can end in. -/
theorem retries_complete (hid : validateMessageID call.id = none) (hutf : Utf8.valid call.id = true)
    (h : Consistent (view d call.id) call.id) (hfree : ¬Conflicts (view d call.id) call)
    (hretries : Prog.Retries (enqueueAttempt call) d d') (choice : (Dir → Bytes) × Time)
    (hfresh : FreshNames choice.1 d') :
    (∃ m body, Complete (view ((enqueueAttempt call choice).run d').2 call.id) call.id m body ∧
        contentHash body = contentHash call.content) ∨
      ∃ t, Buried (view ((enqueueAttempt call choice).run d').2 call.id) t := by
  -- a new enqueue goes through its own states
  have hnew : ∀ {body}, contentHash body = contentHash call.content →
      Enqueuing call body (view d call.id) →
      ∃ m body, Complete (view ((enqueueAttempt call choice).run d').2 call.id) call.id m body ∧
        contentHash body = contentHash call.content := by
    intro body hhash hstart
    have hinv : Enqueuing call body (view d' call.id) := by
      refine hretries.invariant (C := fun d => Enqueuing call body (view d call.id)) ?_ hstart
      exact fun choice d hd => ⟨_, wp_create hid hutf hhash choice.2 hd⟩
    obtain ⟨stored, hdone⟩ :=
      Prog.wp_run _ (@wp_create d' choice.1 call body hid hutf hhash choice.2 hinv) hfresh
    exact ⟨_, body, hdone, hhash⟩
  cases h with
  | absent h => exact .inl (hnew rfl (.absent h rfl))
  | orphan body h =>
    have hhash : contentHash body = contentHash call.content := by
      by_contra hne
      exact hfree (.orphan body h hne)
    exact .inl (hnew hhash (.orphan h))
  | complete m body h =>
    have hhash : contentHash body = contentHash call.content := by
      by_contra hne
      exact hfree (.entry m body h (.inr hne))
    obtain ⟨-, hrun⟩ := eq_of_retries (enqueueAttempt_of_complete hid h) hretries
    rw [hrun]
    exact .inl ⟨m, body, h, hhash⟩
  | buried t h =>
    obtain ⟨-, hrun⟩ := eq_of_retries (enqueueAttempt_of_buried hid h) hretries
    rw [hrun]
    exact .inr ⟨t, h⟩

theorem retries_consume {retain : Bool} {msg : Message} {content : Bytes}
    (hid : validateMessageID msg.id = none) (h : Consistent (view d msg.id) msg.id)
    (hretries : Prog.Retries (consumeAttempt retain msg content) d d') :
    (view d' msg.id = view d msg.id ∨
      (view d' msg.id).tombstone = some (.tombstone (newTombstone retain msg content))) ∧
      ∀ random, FreshNames random d' →
        ((consumeAttempt retain msg content random).run d').1 = .ok true ∧
          Gone (view ((consumeAttempt retain msg content random).run d').2 msg.id)
            (newTombstone retain msg content) := by
  have hinv : Consuming (view d msg.id) (newTombstone retain msg content) (view d' msg.id) := by
    refine hretries.invariant (C := fun d' =>
      Consuming (view d msg.id) (newTombstone retain msg content) (view d' msg.id)) ?_
      ⟨h.atMostOne, .inl rfl⟩
    exact fun random d hd => ⟨_, wp_delete hid hd⟩
  refine ⟨hinv.2, ?_⟩
  intro random hfresh
  exact Prog.wp_run _ (wp_delete hid hinv) hfresh

/-- On every disk that enqueues and consumes can leave, dying anywhere: however often a call is
retried, in the end there is one entry or a tombstone; a call that conflicts with what the id
stands for is refused and writes nothing; and nothing next to a tombstone is deliverable. -/
theorem crash_safe (hd : Reachable d) (hid : validateMessageID call.id = none)
    (hutf : Utf8.valid call.id = true) :
    (¬Conflicts (view d call.id) call → ∀ d', Prog.Retries (enqueueAttempt call) d d' →
      ∀ choice, FreshNames choice.1 d' →
        (∃ m body,
          Complete (view ((enqueueAttempt call choice).run d').2 call.id) call.id m body ∧
            contentHash body = contentHash call.content) ∨
          ∃ t, Buried (view ((enqueueAttempt call choice).run d').2 call.id) t) ∧
      (Conflicts (view d call.id) call → ∀ d', Prog.Retries (enqueueAttempt call) d d' →
        d' = d ∧ ∀ choice, ∃ e, (enqueueAttempt call choice).run d' = (.error e, d)) ∧
      (∀ m body retain msg content, Complete (view d call.id) call.id m body →
        sameEnqueueMessage m msg = true → contentHash body = contentHash content → ∀ d',
        Prog.Retries (consumeAttempt retain msg content) d d' →
          (view d' call.id = view d call.id ∨ (view d' call.id).tombstone =
            some (.tombstone (newTombstone retain msg content))) ∧
          ∀ random, FreshNames random d' →
            ((consumeAttempt retain msg content random).run d').1 = .ok true ∧
              Gone (view ((consumeAttempt retain msg content random).run d').2 call.id)
                (newTombstone retain msg content)) ∧
      ((view d call.id).tombstone ≠ none → retrieve d call.id = none) := by
  have hconsistent := hd.consistent call.id
  refine ⟨?_, ?_, ?_, retrieve_of_tombstone⟩
  · intro hfree d' hretries choice hfresh
    exact retries_complete hid hutf hconsistent hfree hretries choice hfresh
  · intro hconflicts d' hretries
    exact hconflicts.refused hid hretries
  · intro m body retain msg content hcomplete hsame _ d' hretries
    have hown : msg.id = call.id :=
      (sameEnqueueMessage_iff.1 hsame).1.symm.trans hcomplete.own
    rw [← hown] at hid hconsistent ⊢
    exact retries_consume hid hconsistent hretries

end

/-- A call, and one with the same id and content from another sender. -/
def helloCall (mailFrom : Bytes) : EnqueueCall :=
  { id := lit "1-a"
    mailFrom := mailFrom
    rcptTo := [lit "a@y.org"]
    subject := lit "hi"
    content := lit "text"
    priority := .normal
    receivedAt := 5 }

def tempNames (name : Bytes) : Dir → Bytes :=
  fun _ => name

def halfway : Files :=
  (enqueueAttempt (helloCall (lit "s@x.org")) (tempNames (lit ".tmp_1"), 5)).after 3 fun _ => none

theorem crash_safe_halfway :
    (view halfway (lit "1-a")).body = some (.body (lit "text")) ∧
      ((∃ m body, Complete (view ((enqueueAttempt (helloCall (lit "s@x.org"))
            (tempNames (lit ".tmp_2"), 6)).run halfway).2 (lit "1-a")) (lit "1-a") m body ∧
          contentHash body = contentHash (lit "text")) ∨
        ∃ t, Buried (view ((enqueueAttempt (helloCall (lit "s@x.org"))
          (tempNames (lit ".tmp_2"), 6)).run halfway).2 (lit "1-a")) t) := by
  have hid : validateMessageID (helloCall (lit "s@x.org")).id = none := by decide +kernel
  have hutf : Utf8.valid (helloCall (lit "s@x.org")).id = true := by decide +kernel
  have hreach : Reachable halfway := .enqueue .empty _ hid hutf 5 3
  have hbody : (view halfway (lit "1-a")).body = some (.body (lit "text")) := by decide +kernel
  have htomb : (view halfway (lit "1-a")).tombstone = none := by decide +kernel
  refine ⟨hbody, (crash_safe hreach hid hutf).1 ?_ halfway .refl (tempNames (lit ".tmp_2"), 6) ?_⟩
  · intro hconflicts
    have hown : (view halfway (helloCall (lit "s@x.org")).id).body = some (.body (lit "text")) :=
      hbody
    cases hconflicts with
    | entry m body h =>
      have hactive : (view halfway (lit "1-a")).message m.queueType = none := by
        cases m.queueType <;> decide +kernel
      exact absurd (h.message.symm.trans hactive) (by simp)
    | tombstone t h => exact absurd (h.tombstone.symm.trans htomb) (by simp)
    | orphan body h differs =>
      have hsame := h.body.symm.trans hown
      obtain rfl : body = lit "text" := File.body.inj (Option.some.inj hsame)
      exact differs rfl
  · intro dir
    cases dir with
    | queue q => cases q <;> decide +kernel
    | data => decide +kernel
    | tmp => decide +kernel

/-- Over the body that the first call left, a call from another sender is accepted: only the
content is compared. -/
theorem halfway_accepts_other_sender :
    sameEnqueueMessage ((helloCall (lit "s@x.org")).message 5)
        ((helloCall (lit "t@x.org")).message 6) = false ∧
      ((enqueueAttempt (helloCall (lit "t@x.org")) (tempNames (lit ".tmp_2"), 6)).run halfway).1 =
        .ok true ∧
      (retrieve ((enqueueAttempt (helloCall (lit "t@x.org")) (tempNames (lit ".tmp_2"), 6)).run
        halfway).2 (lit "1-a")).map Message.mailFrom = some (lit "t@x.org") := by
  decide +kernel

end Elemta.Queue.FileStore
