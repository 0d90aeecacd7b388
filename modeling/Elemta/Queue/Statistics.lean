import Elemta.Foundation.Machine
import Elemta.Queue.Manager
import Mathlib.Algebra.BigOperators.Group.List.Basic

/-!
# The statistics of the manager

The manager of `manager.go` keeps a count for each queue and the total size up to date with
every operation, and `UpdateStats` computes them from a listing of the storage. All storage
calls are taken to succeed here.

Flushing one queue clears its count and leaves the total size as it was, and a cleanup changes
neither, whatever it removes.
-/

namespace Elemta.Queue

open Bytes

/-- The counts of the four queues and the total size. -/
@[ext] structure QueueStats where
  count : QueueType → Int
  totalSize : Int

namespace QueueStats

def zero : QueueStats :=
  { count := fun _ => 0, totalSize := 0 }

variable (stats : QueueStats)

def adjusted (q : QueueType) (n : Int) : QueueStats :=
  { stats with count := Function.update stats.count q (stats.count q + n) }

def recordEnqueued (msg : Message) : QueueStats :=
  { stats.adjusted .active 1 with totalSize := stats.totalSize + msg.size }

def deleted (msg : Message) : QueueStats :=
  { stats.adjusted msg.queueType (-1) with totalSize := stats.totalSize - msg.size }

def moved (source target : QueueType) : QueueStats :=
  (stats.adjusted source (-1)).adjusted target 1

def flushed (q : QueueType) : QueueStats :=
  { stats with count := Function.update stats.count q 0 }

/-- `UpdateStats` over the messages that the storage lists. -/
def updated (messages : List Message) : QueueStats :=
  { count := fun q => (messages.filter fun m => m.queueType = q).length
    totalSize := (messages.map fun m => (m.size : Int)).sum }

end QueueStats

structure Managed where
  store : Store
  stats : QueueStats

namespace Managed

def start : Managed :=
  ⟨.empty, .zero⟩

/-- The operations; what a listing of the storage gives is part of a flush. -/
inductive Operation
  | enqueue (id mailFrom : Bytes) (rcptTo : List Bytes) (subject content : Bytes)
      (size : Nat) (priority : Priority) (receivedAt now : Time)
  | move (id : Bytes) (target : QueueType) (reason : Bytes) (now : Time) (jitter : Int)
  | delete (id : Bytes) (now : Time)
  | flush (q : QueueType) (listed : List Bytes)
  | flushAll (listed : List Bytes)
  | cleanup (now : Time) (hours : Nat)

/-- An operation that returns an error changes nothing. -/
def step (cfg : ManagerConfig) (s : Managed) : Operation → Managed
  | .enqueue id mailFrom rcptTo subject content size priority receivedAt now =>
    let msg := newEnqueueMessage id mailFrom rcptTo subject size priority receivedAt now
    match s.store.createMessageIfAbsent msg content with
    | none => s
    | some (created, store) =>
      ⟨store, if created then s.stats.recordEnqueued msg else s.stats⟩
  | .move id target reason now jitter =>
    match s.store.retrieve id with
    | none => s
    | some msg =>
      ⟨Manager.moveMessage cfg (fun _ => true) now jitter s.store id target reason,
        s.stats.moved msg.queueType target⟩
  | .delete id now =>
    match s.store.retrieve id, s.store.retrieveContent id with
    | some msg, some content =>
      match s.store.deleteMessageWithTombstone cfg.retainTombstoneBody msg content now with
      | some store => ⟨store, s.stats.deleted msg⟩
      | none => s
    | _, _ => s
  | .flush q listed => ⟨Manager.flushQueue s.store listed, s.stats.flushed q⟩
  | .flushAll listed => ⟨Manager.flushQueue s.store listed, .zero⟩
  | .cleanup now hours =>
    if hours = 0 then s else ⟨s.store.cleanup now hours, s.stats⟩

end Managed

/-! ## Listings -/

/-- The listed messages are the entries of the store, each of them once. -/
structure Lists (s : Store) (messages : List Message) : Prop where
  nodup : messages.Nodup
  mem_iff : ∀ m, m ∈ messages ↔ s.entries m.id = some m

namespace Lists

variable {s s' : Store} {messages messages' : List Message}

theorem updated_eq (h : Lists s messages) (h' : Lists s messages') :
    QueueStats.updated messages = .updated messages' := by
  have hperm : messages.Perm messages' :=
    (List.perm_ext_iff_of_nodup h.nodup h'.nodup).mpr fun m => (h.mem_iff m).trans (h'.mem_iff m).symm
  apply QueueStats.ext
  · funext q
    exact congrArg Int.ofNat (hperm.filter _).length_eq
  · exact (hperm.map _).sum_eq

variable {e : Option Message} {id : Bytes}

theorem update (h : Lists s messages) (hid : ∀ m ∈ e, m.id = id)
    (hentries : s'.entries = Function.update s.entries id e) :
    Lists s' (e.toList ++ messages.filter fun m => m.id ≠ id) := by
  constructor
  · refine List.nodup_append'.mpr ⟨?_, h.nodup.filter _, ?_⟩
    · cases e <;> simp
    · intro m he hrest
      have hne := (List.mem_filter.1 hrest).2
      simp [hid m (Option.mem_toList.1 he)] at hne
  · intro m
    rw [List.mem_append, Option.mem_toList, List.mem_filter, h.mem_iff, hentries]
    by_cases hm : m.id = id
    · simp [hm]
    · simp only [Function.update_of_ne hm, decide_not, Bool.not_eq_true', decide_eq_false_iff_not,
        hm, not_false_eq_true, and_true, or_iff_right_iff_imp]
      exact fun he => absurd (hid m he) hm

theorem updated_update (hs : s.WF) (h : Lists s messages) (hid : ∀ m ∈ e, m.id = id)
    (hentries : s'.entries = Function.update s.entries id e) :
    ∃ rest, QueueStats.updated messages = .updated ((s.entries id).toList ++ rest) ∧
      Lists s' (e.toList ++ rest) := by
  refine ⟨messages.filter fun m => m.id ≠ id, ?_, h.update hid hentries⟩
  refine h.updated_eq (h.update (fun m hm => hs.id_eq hm) ?_)
  rw [Function.update_eq_self]

theorem filter (h : Lists s messages) {keep : Message → Bool}
    (hentries : ∀ id, s'.entries id = (s.entries id).filter keep) :
    Lists s' (messages.filter keep) := by
  refine ⟨h.nodup.filter _, fun m => ?_⟩
  rw [List.mem_filter, h.mem_iff, hentries]
  cases hentry : s.entries m.id with
  | none => simp
  | some m' =>
    by_cases hkeep : keep m' = true
    · simp only [Option.filter, hkeep, if_true, Option.some.injEq, and_iff_left_iff_imp]
      rintro rfl
      exact hkeep
    simp only [Option.filter, hkeep, Bool.false_eq_true, if_false, reduceCtorEq, iff_false,
      Option.some.injEq, not_and]
    rintro rfl
    exact hkeep

end Lists

/-! ## Runs -/

namespace Managed

variable {cfg : ManagerConfig} {s : Managed}

structure Tallied (s : Managed) : Prop where
  wf : s.store.WF
  tallied : ∃ messages, Lists s.store messages ∧ s.stats = .updated messages

/-- A flush is given a listing of its queue, whose messages are empty, and a cleanup finds nothing
that is old enough. -/
def Exact (s : Managed) : Operation → Prop
  | .flush q listed =>
    (∀ id, id ∈ listed ↔ ∃ m, s.store.entries id = some m ∧ m.queueType = q) ∧
      ∀ id m, s.store.entries id = some m → m.queueType = q → m.size = 0
  | .flushAll listed => ∀ id m, s.store.entries id = some m → id ∈ listed
  | .cleanup now hours =>
    ∀ id m, s.store.entries id = some m → olderThan hours now m.createdAt = false
  | _ => True

theorem tallied_start : start.Tallied :=
  ⟨.empty, [], ⟨.nil, by simp [start, Store.empty]⟩, rfl⟩

theorem Tallied.update (h : s.Tallied) {store : Store} {stats : QueueStats} {id : Bytes}
    {e : Option Message} (hwf : store.WF) (hid : ∀ m ∈ e, m.id = id)
    (hentries : store.entries = Function.update s.store.entries id e)
    (hstats : ∀ rest, s.stats = .updated ((s.store.entries id).toList ++ rest) →
      stats = .updated (e.toList ++ rest)) : Tallied ⟨store, stats⟩ := by
  obtain ⟨messages, hlists, hstats'⟩ := h.tallied
  obtain ⟨rest, hbefore, hafter⟩ := hlists.updated_update h.wf hid hentries
  exact ⟨hwf, _, hafter, hstats rest (hstats'.trans hbefore)⟩

theorem updated_cons (m : Message) (messages : List Message) :
    QueueStats.updated (m :: messages) =
      { (QueueStats.updated messages).adjusted m.queueType 1 with
        totalSize := (QueueStats.updated messages).totalSize + m.size } := by
  apply QueueStats.ext
  · funext q
    by_cases hq : m.queueType = q
    · subst hq
      simp [QueueStats.updated, QueueStats.adjusted]
    · simp [QueueStats.updated, QueueStats.adjusted, hq, Function.update_of_ne (Ne.symm hq)]
  · simp [QueueStats.updated, add_comm]

theorem adjusted_cancel (stats : QueueStats) (q : QueueType) :
    (stats.adjusted q 1).adjusted q (-1) = stats := by
  simp [QueueStats.adjusted]

section Steps

variable (h : s.Tallied)

include h

variable {content id : Bytes} {store : Store} {m : Message}

theorem tallied_enqueue {msg : Message} (hactive : msg.queueType = .active) {created : Bool}
    (hcreate : s.store.createMessageIfAbsent msg content = some (created, store)) :
    Tallied ⟨store, if created then s.stats.recordEnqueued msg else s.stats⟩ := by
  have hwf := h.wf.createMessageIfAbsent hcreate
  have hentries := Store.entries_of_createMessageIfAbsent h.wf hcreate
  cases created with
  | false =>
    obtain ⟨messages, hlists, hstats⟩ := h.tallied
    refine ⟨hwf, messages, ⟨hlists.nodup, fun m => ?_⟩, hstats⟩
    rw [hentries]
    exact hlists.mem_iff m
  | true =>
    refine h.update hwf (by simp) hentries fun rest hrest => ?_
    cases Store.creates_of_createMessageIfAbsent hcreate with
    | created tombstone entry =>
      rw [entry] at hrest
      have hrecorded : (Store.recorded msg).queueType = .active := hactive
      rw [Option.toList_some, List.singleton_append, updated_cons, hrecorded]
      rw [show s.stats = .updated rest from hrest]
      rfl

theorem tallied_move (hentry : s.store.entries id = some m) (target : QueueType)
    (reason : Bytes) (now : Time) (jitter : Int) :
    Tallied ⟨Manager.moveMessage cfg (fun _ => true) now jitter s.store id target reason,
      s.stats.moved m.queueType target⟩ := by
  obtain ⟨m', hrewrites, henvelope, hqueue⟩ :=
    Manager.moveMessage_moves now (fun _ => rfl) cfg jitter h.wf hentry target reason
  have hsize : m'.size = m.size := congrArg Envelope.size henvelope
  have hid : m'.id = m.id := congrArg Envelope.id henvelope
  refine h.update hrewrites.wf ?_ hrewrites.entries fun rest hrest => ?_
  · rintro _ ⟨⟩
    exact hid.trans (h.wf.id_eq hentry)
  · rw [hentry, Option.toList_some, List.singleton_append, updated_cons] at hrest
    rw [Option.toList_some, List.singleton_append, updated_cons, hqueue, hsize, hrest]
    have hcancel := congrArg QueueStats.count (adjusted_cancel (.updated rest) m.queueType)
    apply QueueStats.ext
    · simp only [QueueStats.moved, QueueStats.adjusted] at hcancel ⊢
      rw [hcancel]
    · rfl

theorem tallied_delete (hentry : s.store.entries id = some m)
    (hcontent : s.store.contents id = some content) {now : Time}
    (hdelete : s.store.deleteMessageWithTombstone cfg.retainTombstoneBody m content
      now = some store) : Tallied ⟨store, s.stats.deleted m⟩ := by
  have hrewrites := Manager.consume_rewrites now h.wf hentry hcontent hdelete
  refine h.update (e := none) hrewrites.wf nofun hrewrites.entries fun rest hrest => ?_
  rw [hentry, Option.toList_some, List.singleton_append, updated_cons] at hrest
  have hcancel := congrArg QueueStats.count (adjusted_cancel (.updated rest) m.queueType)
  rw [hrest]
  apply QueueStats.ext
  · exact hcancel
  · simp [QueueStats.deleted, QueueStats.adjusted]

theorem tallied_flush {q : QueueType} {listed : List Bytes} (hop : Exact s (.flush q listed)) :
    Tallied ⟨Manager.flushQueue s.store listed, s.stats.flushed q⟩ := by
  obtain ⟨hlisted, hempty⟩ := hop
  obtain ⟨messages, hlists, hstats⟩ := h.tallied
  have hentries : ∀ id, (Manager.flushQueue s.store listed).entries id =
      (s.store.entries id).filter fun m => m.queueType ≠ q := by
    intro id
    rw [flushQueue_entries]
    by_cases hid : id ∈ listed
    · obtain ⟨m, hm, hq⟩ := (hlisted id).1 hid
      simp [hid, hm, hq, Option.filter]
    cases hentry : s.store.entries id with
    | none => simp
    | some m =>
      have hq : m.queueType ≠ q := fun hq => hid ((hlisted id).2 ⟨m, hentry, hq⟩)
      simp [hid, hq, Option.filter]
  refine ⟨flushQueue_wf h.wf listed, _, hlists.filter hentries, ?_⟩
  have hsizes : ∀ m ∈ messages, m.queueType = q → m.size = 0 := fun m hm hq =>
    hempty m.id m ((hlists.mem_iff m).1 hm) hq
  rw [hstats]
  clear hstats hlists
  induction messages with
  | nil => exact QueueStats.ext (by funext q'; simp [QueueStats.flushed, QueueStats.updated]) rfl
  | cons m messages ih =>
    have hrest := ih fun m' hm' => hsizes m' (List.mem_cons_of_mem m hm')
    by_cases hq : m.queueType = q
    · rw [List.filter_cons_of_neg (by simp [hq]), ← hrest, updated_cons, hq]
      simp [QueueStats.flushed, QueueStats.adjusted, hsizes m List.mem_cons_self hq]
    · rw [List.filter_cons_of_pos (by simp [hq]), updated_cons, updated_cons, ← hrest]
      simp [QueueStats.flushed, QueueStats.adjusted, Function.update_comm hq,
        Function.update_of_ne hq]

theorem tallied_step {op : Operation} (hop : Exact s op) : (step cfg s op).Tallied := by
  cases op with
  | enqueue id mailFrom rcptTo subject content size priority receivedAt now =>
    simp only [step]
    split
    · exact h
    · rename_i created store hcreate
      exact tallied_enqueue h rfl hcreate
  | move id target reason now jitter =>
    simp only [step]
    split
    · exact h
    · rename_i m hentry
      exact tallied_move h hentry target reason now jitter
  | delete id now =>
    simp only [step]
    split
    · rename_i m content hentry hcontent
      split
      · rename_i store hdelete
        exact tallied_delete h hentry hcontent hdelete
      · exact h
    · exact h
  | flush q listed => exact tallied_flush h hop
  | flushAll listed =>
    refine ⟨flushQueue_wf h.wf listed, [], ⟨.nil, fun m => ?_⟩, rfl⟩
    have hgone : (Manager.flushQueue s.store listed).entries m.id = none := by
      rw [flushQueue_entries]
      cases hentry : s.store.entries m.id with
      | none => simp
      | some m' => simp [hop m.id m' hentry]
    simp [step, hgone]
  | cleanup now hours =>
    simp only [step]
    split_ifs
    · exact h
    · obtain ⟨messages, hlists, hstats⟩ := h.tallied
      have hsame : (s.store.cleanup now hours).entries = s.store.entries := by
        funext id
        cases hentry : s.store.entries id with
        | none => simp [Store.cleanup, hentry]
        | some m => simp [Store.cleanup, hentry, hop id m hentry]
      exact ⟨h.wf.cleanup now hours, messages, ⟨hlists.nodup, fun m => by
        rw [hsame]; exact hlists.mem_iff m⟩, hstats⟩

end Steps

/-- As long as flushed queues hold no octets and cleanups find nothing, the statistics that
operations maintain are those of every listing of the storage. -/
theorem stats_eq_updated {cfg : ManagerConfig} {ops : List Operation}
    (hrun : Machine.Along (step cfg) Exact start ops) {messages : List Message}
    (hlists : Lists (Machine.run (step cfg) start ops).store messages) :
    (Machine.run (step cfg) start ops).stats = .updated messages := by
  have hend : (Machine.run (step cfg) start ops).Tallied :=
    hrun.run_invariant _ (fun _ _ hop h => tallied_step h hop) tallied_start
  obtain ⟨listed, hlisted, hstats⟩ := hend.tallied
  exact hstats.trans (hlisted.updated_eq hlists)

/-- Five octets that are enqueued and put on hold. -/
theorem stats_eq_updated_held :
    let cfg : ManagerConfig := ⟨0, [], true⟩
    let s := Machine.run (step cfg) start [.enqueue (lit "a") [] [] [] (lit "text") 5 .normal 0 0,
      .move (lit "a") .hold [] 0 0]
    ∃ m, Lists s.store [m] ∧ s.stats = .updated [m] ∧ s.stats.count .hold = 1 := by
  intro cfg s
  have hheld : (s.store.entries (lit "a")).map Message.id = some (lit "a") := by decide +kernel
  obtain ⟨m, hentry, hid⟩ := Option.map_eq_some_iff.1 hheld
  have hother (id : Bytes) (hne : id ≠ lit "a") : s.store.entries id = none := by
    -- the enqueue writes the entry once, the move twice
    iterate 3 refine (Function.update_of_ne hne _ _).trans ?_
    rfl
  have hlists : Lists s.store [m] := by
    refine ⟨List.nodup_singleton m, fun m' => ?_⟩
    by_cases hm' : m'.id = lit "a"
    · rw [hm', hentry, List.mem_singleton, Option.some_inj, eq_comm]
    · rw [hother _ hm', List.mem_singleton]
      exact ⟨fun h => absurd (h ▸ hid) hm', nofun⟩
  have hrun : Machine.Along (step cfg) Exact start [.enqueue (lit "a") [] [] [] (lit "text") 5 .normal
      0 0, .move (lit "a") .hold [] 0 0] := ⟨trivial, trivial, trivial⟩
  exact ⟨m, hlists, stats_eq_updated hrun hlists, by decide +kernel⟩

/-- After five octets are enqueued and flushed the storage is empty and the size is five; after
they are enqueued and cleaned up the count is one. -/
theorem stats_left_behind :
    let cfg : ManagerConfig := ⟨0, [], true⟩
    let enqueued := step cfg start (.enqueue (lit "a") [] [] [] (lit "text") 5 .normal 0 0)
    let flushed := step cfg enqueued (.flush .active [lit "a"])
    let cleaned := step cfg enqueued (.cleanup (2 * nanosPerHour) 1)
    (Lists flushed.store [] ∧ flushed.stats.totalSize = 5) ∧
      Lists cleaned.store [] ∧ cleaned.stats.count .active = 1 := by
  intro cfg enqueued flushed cleaned
  have hentry : ∀ id, enqueued.store.entries id =
      if id = lit "a" then enqueued.store.entries (lit "a") else none := by
    intro id
    by_cases hid : id = lit "a"
    · rw [if_pos hid, hid]
    · rw [if_neg hid]
      exact Function.update_of_ne hid _ _
  refine ⟨⟨⟨.nil, fun m => ?_⟩, by decide⟩, ⟨.nil, fun m => ?_⟩, by decide⟩
  · have hnone : flushed.store.entries m.id = none := by
      change (Manager.flushQueue enqueued.store [lit "a"]).entries m.id = none
      rw [flushQueue_entries]
      split_ifs <;> simp_all
    simp [hnone]
  · have hold : (enqueued.store.entries (lit "a")).filter
        (fun m => !olderThan 1 (2 * nanosPerHour) m.createdAt) = none := by decide
    have hnone : cleaned.store.entries m.id = none := by
      change (enqueued.store.cleanup (2 * nanosPerHour) 1).entries m.id = none
      rw [Store.cleanup_entries, hentry]
      split_ifs
      · exact hold
      · rfl
    simp [hnone]

end Managed
end Elemta.Queue
