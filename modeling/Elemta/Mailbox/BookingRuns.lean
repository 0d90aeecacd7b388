import Elemta.Mailbox.Bookings
import Mathlib.Data.List.Nodup

/-!
# Deliveries to a resource in any order

Only the delivery that holds the lock changes the calendar, so what it has read is still
there when it appends and removes. `Rules` says what has to be shown of a decision: how
the new booking stands to every stored one, and on whose bookings the message acts. From
that it follows for the calendar and the log of every run.
-/

namespace Elemta.Mailbox.Bookings

open Bytes Webmail.Ical Webmail.Booking

variable {lib : Library} {account : Bytes}

def Distinct (calendar : List Entry) : Prop :=
  (calendar.map Entry.number).Nodup

variable {calendar : List Entry}

theorem Distinct.eq (h : Distinct calendar) {e e' : Entry} (he : e ∈ calendar)
    (he' : e' ∈ calendar) (hnumber : e.number = e'.number) : e = e' :=
  List.inj_on_of_nodup_map h he he' hnumber

theorem Distinct.id_of_mem (h : Distinct calendar) {e : Entry} {id : Bytes}
    (he : e ∈ calendar) (hold : e.number ∈ withID calendar id) : e.obj.id = id := by
  obtain ⟨e', he', hnumber⟩ := List.mem_map.1 hold
  obtain ⟨hmem, hid⟩ := List.mem_filter.1 he'
  rw [← h.eq hmem he hnumber]
  exact of_decide_eq_true hid

/-- What has to be shown of the decisions in runs whose steps meet `G`: of each booking, of an
older and a newer one, and of a booking and the message that replaces or removes it. -/
structure Rules (lib : Library) (account : Bytes) (G : State → Input → Prop)
    (Ready : Message → Request → Prop) (Good : Entry → Prop) (Pair : Entry → Entry → Prop)
    (Own : Entry → Message → Prop) : Prop where
  deliver : ∀ {s i m r}, G s (.deliver i m) → admitted lib account m = some r → Ready m r
  append : ∀ {s i now a m r obj old}, G s (.advance i now a) → s.tasks i = .reading m r →
    Ready m r → Distinct s.calendar → (∀ e ∈ s.calendar, Good e) → s.calendar.Pairwise Pair →
    decideOn lib s.calendar m r now = .appending m obj old →
    (∀ n, Good ⟨n, obj, m⟩) ∧ (∀ e ∈ s.calendar, ∀ n, Pair e ⟨n, obj, m⟩) ∧
      ∀ e ∈ s.calendar, e.number ∈ old → Own e m
  remove : ∀ {s i now a m r old}, G s (.advance i now a) → s.tasks i = .reading m r →
    Ready m r → Distinct s.calendar → (∀ e ∈ s.calendar, Good e) → s.calendar.Pairwise Pair →
    decideOn lib s.calendar m r now = .removing m old →
    ∀ e ∈ s.calendar, e.number ∈ old → Own e m

def Task.holds : Task → Bool
  | .idle => false
  | .locking _ _ => false
  | .reading _ _ => true
  | .appending _ _ _ => true
  | .removing _ _ => true
  | .unlocking => true

section Runs

variable {G : State → Input → Prop} {Ready : Message → Request → Prop} {Good : Entry → Prop}
  {Pair : Entry → Entry → Prop} {Own : Entry → Message → Prop}

/-- What a task relies on; the calendar is the one that it has read. -/
def Task.Knows (Ready : Message → Request → Prop) (Good : Entry → Prop)
    (Pair : Entry → Entry → Prop) (Own : Entry → Message → Prop) (s : State) : Task → Prop
  | .locking m r => Ready m r
  | .reading m r => Ready m r
  | .appending m obj old =>
    (∀ n, Good ⟨n, obj, m⟩) ∧ (∀ e ∈ s.calendar, ∀ n, Pair e ⟨n, obj, m⟩) ∧
      (∀ n ∈ old, n < s.next) ∧ ∀ e ∈ s.calendar, e.number ∈ old → Own e m
  | .removing m old => ∀ e ∈ s.calendar, e.number ∈ old → Own e m
  | .idle => True
  | .unlocking => True

variable (Ready Good Pair Own) in
structure Regular (s : State) : Prop where
  distinct : Distinct s.calendar
  numbers : ∀ e ∈ s.calendar, e.number < s.next
  good : ∀ e ∈ s.calendar, Good e
  pairs : s.calendar.Pairwise Pair
  own : ∀ ev ∈ s.log, Own ev.booking ev.by'
  lock : ∀ i, (s.tasks i).holds = true → s.lock = some i
  knows : ∀ i, (s.tasks i).Knows Ready Good Pair Own s

theorem Task.Knows.other {t : Task} {s s' : State} (h : t.Knows Ready Good Pair Own s)
    (ht : t.holds = false) : t.Knows Ready Good Pair Own s' := by
  cases t with
  | idle => trivial
  | locking m r => exact h
  | reading | appending | removing | unlocking => cases ht

namespace Regular

variable {s s' : State} {i : Nat} {t : Task}

/-- The task that has the lock makes a call, and the others stay where they are. -/
theorem holder (h : Regular Ready Good Pair Own s) (hi : (s.tasks i).holds = true)
    (htasks : s'.tasks = s.tasks) (hlock : s'.lock = s.lock) (hdistinct : Distinct s'.calendar)
    (hnumbers : ∀ e ∈ s'.calendar, e.number < s'.next) (hgood : ∀ e ∈ s'.calendar, Good e)
    (hpairs : s'.calendar.Pairwise Pair) (hown : ∀ ev ∈ s'.log, Own ev.booking ev.by')
    (hknows : t.Knows Ready Good Pair Own s') :
    Regular Ready Good Pair Own (s'.setTask i t) := by
  have hothers : ∀ j, j ≠ i → (s.tasks j).holds = false := by
    intro j hj
    by_contra hheld
    have hsame := (h.lock j (by simpa using hheld)).symm.trans (h.lock i hi)
    exact hj (Option.some.inj hsame)
  refine ⟨hdistinct, hnumbers, hgood, hpairs, hown, ?_, ?_⟩
  · intro j hj
    by_cases hji : j = i
    · subst hji
      exact hlock.trans (h.lock j hi)
    · simp only [State.setTask, Function.update_of_ne hji, htasks] at hj
      rw [hothers j hji] at hj
      cases hj
  · intro j
    by_cases hji : j = i
    · subst hji
      simp only [State.setTask, Function.update_self]
      cases t <;> exact hknows
    · simp only [State.setTask, Function.update_of_ne hji, htasks]
      exact (h.knows j).other (hothers j hji)

variable {m : Message} {old : List Nat}

theorem mem_acts {ev : Event} (h : ev ∈ s.acts old m) :
    ev.booking ∈ s.calendar ∧ ev.booking.number ∈ old ∧ ev.by' = m := by
  obtain ⟨e, he, rfl⟩ := List.mem_map.1 h
  obtain ⟨hmem, hold⟩ := List.mem_filter.1 he
  exact ⟨hmem, of_decide_eq_true hold, rfl⟩

section

variable (h : Regular Ready Good Pair Own s)

include h

theorem own_acts (hown : ∀ e ∈ s.calendar, e.number ∈ old → Own e m) :
    ∀ ev ∈ s.acts old m ++ s.log, Own ev.booking ev.by' := by
  intro ev hev
  rcases List.mem_append.1 hev with hnew | hold
  · obtain ⟨hmem, hnumber, hby⟩ := mem_acts hnew
    rw [hby]
    exact hown _ hmem hnumber
  · exact h.own ev hold

theorem append {obj : Object}
    (hi : s.tasks i = .appending m obj old) (ht : t = .removing m old ∨ t = .unlocking) :
    Regular Ready Good Pair Own ((s.append m obj old).setTask i t) := by
  have hknows := h.knows i
  rw [hi] at hknows
  obtain ⟨hgood, hpair, hless, hown⟩ := hknows
  have hmem : ∀ e ∈ (s.append m obj old).calendar, e ∈ s.calendar ∨ e = ⟨s.next, obj, m⟩ := by
    intro e he
    simpa [State.append] using he
  have hheld : (s.tasks i).holds = true := by rw [hi]; rfl
  refine h.holder hheld rfl rfl ?_ ?_ ?_ ?_ (h.own_acts hown) ?_
  · have hnew : s.next ∉ s.calendar.map Entry.number := by
      intro hused
      obtain ⟨e, he, hnumber⟩ := List.mem_map.1 hused
      exact Nat.lt_irrefl _ (hnumber ▸ h.numbers e he)
    simpa [Distinct, State.append, List.nodup_append] using ⟨h.distinct, fun e he hnumber =>
      hnew (List.mem_map.2 ⟨e, he, hnumber⟩)⟩
  · intro e he
    rcases hmem e he with hold | rfl
    · exact Nat.lt_succ_of_lt (h.numbers e hold)
    · exact Nat.lt_succ_self _
  · intro e he
    rcases hmem e he with hold | rfl
    · exact h.good e hold
    · exact hgood s.next
  · exact List.pairwise_append.2 ⟨h.pairs, List.pairwise_singleton _ _, fun e he e' he' => by
      rw [List.mem_singleton.1 he']
      exact hpair e he s.next⟩
  · rcases ht with rfl | rfl
    · intro e he hold
      rcases hmem e he with hmem' | rfl
      · exact hown e hmem' hold
      · exact absurd (hless s.next hold) (Nat.lt_irrefl _)
    · trivial

theorem remove (hi : s.tasks i = .removing m old) :
    Regular Ready Good Pair Own ((s.remove m old).setTask i .unlocking) := by
  have hknows := h.knows i
  rw [hi] at hknows
  have hheld : (s.tasks i).holds = true := by rw [hi]; rfl
  have hsub : ∀ e ∈ (s.remove m old).calendar, e ∈ s.calendar := fun e he => List.mem_of_mem_filter he
  refine h.holder hheld rfl rfl ?_ ?_ ?_ (h.pairs.filter _) (h.own_acts hknows) trivial
  · exact (List.Sublist.map Entry.number List.filter_sublist).nodup h.distinct
  · exact fun e he => h.numbers e (hsub e he)
  · exact fun e he => h.good e (hsub e he)

/-- The task that has the lock goes on without a change of the calendar. -/
theorem stay (hi : (s.tasks i).holds = true)
    (hknows : t.Knows Ready Good Pair Own s) : Regular Ready Good Pair Own (s.setTask i t) :=
  h.holder hi rfl rfl h.distinct h.numbers h.good h.pairs h.own hknows

theorem withID_lt (id : Bytes) : ∀ n ∈ withID s.calendar id, n < s.next := by
  intro n hn
  obtain ⟨e, he, rfl⟩ := List.mem_map.1 hn
  exact h.numbers e (List.mem_of_mem_filter he)

end

end Regular

/-- A decision is to leave the calendar alone, to remove what is stored under the id, or to put the
invitation in its place. -/
theorem decideOn_cases (m : Message) (r : Request) (now : Int) :
    decideOn lib calendar m r now = .unlocking ∨
    (m.method = .cancel ∧ bookingOwnedBy lib (calendar.map Entry.obj) r.uid r.organizer = true ∧
      decideOn lib calendar m r now = .removing m (withID calendar (objectID r.uid))) ∨
    (m.method = .request ∧
      decideBooking lib m.data (calendar.map Entry.obj) = some .accept ∧
      ∃ obj, bookingObject lib m.data now = some obj ∧
        decideOn lib calendar m r now = .appending m obj (withID calendar (objectID r.uid))) := by
  unfold decideOn
  cases hmethod : m.method with
  | cancel =>
    cases howned : bookingOwnedBy lib (calendar.map Entry.obj) r.uid r.organizer with
    | false => exact .inl (by simp [howned])
    | true => exact .inr (.inl ⟨rfl, rfl, by simp [howned]⟩)
  | request =>
    rcases hdecision : decideBooking lib m.data (calendar.map Entry.obj) with - | d
    · exact .inl (by simp [hdecision])
    cases d with
    | decline | stale => exact .inl (by simp [hdecision])
    | accept =>
      cases hobj : bookingObject lib m.data now with
      | none => exact .inl (by simp [hdecision])
      | some obj => exact .inr (.inr ⟨rfl, rfl, obj, rfl, by simp [hdecision]⟩)

variable {calendar : List Entry} {m m' : Message} {old : List Nat} {r : Request}

theorem decideOn_appending {now : Int} {obj : Object}
    (h : decideOn lib calendar m r now = .appending m' obj old) :
    decideBooking lib m.data (calendar.map Entry.obj) = some .accept ∧
      bookingObject lib m.data now = some obj ∧ old = withID calendar (objectID r.uid) := by
  rcases decideOn_cases m r now with heq | ⟨-, -, heq⟩ | ⟨-, haccept, obj', hobj, heq⟩
  · cases h.symm.trans heq
  · cases h.symm.trans heq
  · obtain ⟨-, rfl, rfl⟩ := Task.appending.inj (h.symm.trans heq)
    exact ⟨haccept, hobj, rfl⟩

theorem decideOn_removing {now : Int} (h : decideOn lib calendar m r now = .removing m' old) :
    bookingOwnedBy lib (calendar.map Entry.obj) r.uid r.organizer = true ∧
      old = withID calendar (objectID r.uid) := by
  rcases decideOn_cases m r now with heq | ⟨-, howned, heq⟩ | ⟨-, -, obj', -, heq⟩
  · cases h.symm.trans heq
  · obtain ⟨-, rfl⟩ := Task.removing.inj (h.symm.trans heq)
    exact ⟨howned, rfl⟩
  · cases h.symm.trans heq

namespace Regular

variable {s : State} {i : Nat}

section

variable (h : Regular Ready Good Pair Own s) (hrules : Rules lib account G Ready Good Pair Own)

include h hrules

theorem read {now : Int} {a : Answer} (hG : G s (.advance i now a))
    (hi : s.tasks i = .reading m r) :
    Regular Ready Good Pair Own (s.setTask i (decideOn lib s.calendar m r now)) := by
  have hready : Ready m r := by
    have hknows := h.knows i
    rw [hi] at hknows
    exact hknows
  apply h.stay (by rw [hi]; rfl)
  rcases decideOn_cases m r now with heq | ⟨-, -, heq⟩ | ⟨-, -, obj, -, heq⟩
  · rw [heq]
    trivial
  · rw [heq]
    exact hrules.remove hG hi hready h.distinct h.good h.pairs heq
  · obtain ⟨hgood, hpair, hown⟩ := hrules.append hG hi hready h.distinct h.good h.pairs heq
    rw [heq]
    exact ⟨hgood, hpair, h.withID_lt _, hown⟩

theorem advance {now : Int} {a : Answer}
    (hG : G s (.advance i now a)) : Regular Ready Good Pair Own (advance lib s i now a) := by
  unfold Bookings.advance
  cases hi : s.tasks i with
  | idle => exact h
  | locking m r =>
    have hready : Ready m r := by
      have hknows := h.knows i
      rw [hi] at hknows
      exact hknows
    dsimp only
    split
    · -- the lock was free, so no other task has it
      rename_i hfree
      have hnobody : ∀ j, (s.tasks j).holds = false := by
        intro j
        by_contra hheld
        have hlock := h.lock j (by simpa using hheld)
        rw [hfree] at hlock
        cases hlock
      refine ⟨h.distinct, h.numbers, h.good, h.pairs, h.own, fun j hj => ?_, fun j => ?_⟩
      · by_cases hji : j = i
        · rw [hji]
          rfl
        · simp only [State.setTask, State.setLock, Function.update_of_ne hji] at hj
          rw [hnobody j] at hj
          cases hj
      · by_cases hji : j = i
        · subst hji
          simp only [State.setTask, Function.update_self]
          exact hready
        · simp only [State.setTask, State.setLock, Function.update_of_ne hji]
          exact (h.knows j).other (hnobody j)
    · exact h
  | reading m r =>
    dsimp only
    split
    · exact h.read hrules hG hi
    · exact h.stay (by rw [hi]; rfl) trivial
  | appending m obj old =>
    cases a with
    | ok => exact h.append hi (.inl rfl)
    | lost => exact h.append hi (.inr rfl)
    | failed => exact h.stay (by rw [hi]; rfl) trivial
  | removing m old =>
    cases a with
    | ok => exact h.remove hi
    | lost => exact h.remove hi
    | failed => exact h.stay (by rw [hi]; rfl) trivial
  | unlocking =>
    have hheld : (s.tasks i).holds = true := by rw [hi]; rfl
    have hdone := h.stay hheld (show Task.idle.Knows Ready Good Pair Own s from trivial)
    refine ⟨hdone.distinct, hdone.numbers, hdone.good, hdone.pairs, hdone.own, fun j hj => ?_,
      fun j => ?_⟩
    · -- nobody else had the lock that is given back
      have hlock : s.lock = some j := hdone.lock j hj
      have hsame := hlock.symm.trans (h.lock i hheld)
      cases hsame
      simp [State.setTask, Task.holds] at hj
    · have hknows := hdone.knows j
      by_cases hji : j = i
      · trivial
      · simp only [State.setTask, State.setLock, Function.update_of_ne hji] at hknows ⊢
        cases hj : s.tasks j <;> rw [hj] at hknows <;> exact hknows

theorem step (input : Input) (hG : G s input) :
    Regular Ready Good Pair Own (step lib account s input) := by
  cases input with
  | deliver i m =>
    simp only [Bookings.step]
    split
    · rename_i r hidle hadmit
      refine ⟨h.distinct, h.numbers, h.good, h.pairs, h.own, fun j hj => ?_, fun j => ?_⟩
      · by_cases hji : j = i
        · subst hji
          simp [State.setTask, Task.holds] at hj
        · simp only [State.setTask, Function.update_of_ne hji] at hj
          exact h.lock j hj
      · by_cases hji : j = i
        · subst hji
          simp only [State.setTask, Function.update_self]
          exact hrules.deliver hG hadmit
        · have hknows := h.knows j
          simp only [State.setTask, Function.update_of_ne hji]
          cases hj : s.tasks j <;> rw [hj] at hknows <;> exact hknows
    · exact h
  | advance i now a => exact h.advance hrules hG

end

end Regular

theorem regular_init : Regular Ready Good Pair Own State.init :=
  { distinct := List.nodup_nil
    numbers := fun _ h => nomatch h
    good := fun _ h => nomatch h
    pairs := List.Pairwise.nil
    own := fun _ h => nomatch h
    lock := fun _ h => nomatch h
    knows := fun _ => trivial }

theorem regular_run (hrules : Rules lib account G Ready Good Pair Own) {inputs : List Input}
    (hrun : Machine.Along (step lib account) G State.init inputs) :
    Regular Ready Good Pair Own (Machine.run (step lib account) State.init inputs) :=
  hrun.run_invariant (Regular Ready Good Pair Own) (fun _ input hG h => h.step hrules input hG)
    regular_init

end Runs

end Elemta.Mailbox.Bookings
