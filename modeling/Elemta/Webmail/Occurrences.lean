import Elemta.Webmail.Ical
import Mathlib.Algebra.Order.BigOperators.Group.List
import Mathlib.Data.List.Sort

/-!
# All occurrences of an event

An expansion is cut short in three ways: by the number of steps of all rules together, by
the occurrences of one event and by those of all events. `times` is what an event means
without these limits, and `withinLimits` says that a list of events stays below all of
them. Then `expand` leaves out nothing of the period.

All-day occurrences last a number of whole days, which may be more than the duration of
the event. The loop looks back by the duration only, so this is part of the condition.
-/

namespace Elemta.Webmail.Ical

open Bytes

namespace Event

variable (lib : Library) (e : Event)

def rule : Option (List Int) :=
  if e.rrule = [] then none else lib.recurrence e.rrule e.start (e.exDates.map Moment.instant)

def times : List (Int × Int) :=
  match e.rule lib with
  | none => [(e.start.instant, e.end.instant)]
  | some instants => instants.map fun s => (s, e.endAt lib s)

def timesIn (since until' : Int) : List (Int × Int) :=
  (e.times lib).filter fun x => e.touches since until' x.1 x.2

def steps (until' : Int) : Nat :=
  match e.rule lib with
  | none => 0
  | some instants => (instants.filter fun s => s < until').length + 1

/-- No occurrence of a rule lasts longer than the event. -/
def fits : Bool :=
  ((e.rule lib).getD []).all fun s => decide (e.endAt lib s ≤ s + e.duration)

end Event

def withinLimits (lib : Library) (events : List Event) (since until' : Int) : Bool :=
  decide ((events.map fun e => e.steps lib until').sum < maxRecurrenceSteps) &&
    decide ((events.map fun e => (e.timesIn lib since until').length).sum ≤ maxViewOccurrences) &&
    events.all fun e => e.fits lib && decide ((e.timesIn lib since until').length ≤ maxOccurrences)

variable {lib : Library} {e : Event} {since until' : Int}

/-! ## The loop over a rule -/

def Event.found (lib : Library) (e : Event) (since until' : Int) (instants : List Int) :
    List Occurrence :=
  (instants.filter fun s => e.touches since until' s (e.endAt lib s)).map fun s =>
    { event := e, start := s, «end» := e.endAt lib s }

variable {rest : List Int} {s : Int}

theorem Event.found_cons_pos (h : e.touches since until' s (e.endAt lib s) = true) :
    e.found lib since until' (s :: rest) =
      { event := e, start := s, «end» := e.endAt lib s } :: e.found lib since until' rest := by
  rw [found, List.filter_cons_of_pos (by exact h)]
  rfl

theorem Event.found_cons_neg (h : e.touches since until' s (e.endAt lib s) = false) :
    e.found lib since until' (s :: rest) = e.found lib since until' rest := by
  rw [found, List.filter_cons_of_neg (by simp [h])]
  rfl

theorem Event.touches_iff {t : Int} : e.touches since until' s t = true ↔
    s < until' ∧ (since < t ∨ e.duration = 0 ∧ since ≤ s) := by
  simp [touches]

/-- An occurrence that the loop passes over is over before the period. -/
theorem Event.touches_early (hfits : e.endAt lib s ≤ s + e.duration) (h : s < since - e.duration) :
    e.touches since until' s (e.endAt lib s) = false := by
  by_contra hcon
  rcases (touches_iff.1 (by simpa using hcon)).2 with hend | ⟨hzero, hstart⟩
  · omega
  · omega

/-- The instants of a rule come in order, so nothing of the period is behind its end. -/
theorem Event.found_late (hsorted : (s :: rest).Pairwise (· ≤ ·)) (h : until' ≤ s) :
    e.found lib since until' (s :: rest) = [] := by
  have hlate : ∀ x ∈ s :: rest, ¬e.touches since until' x (e.endAt lib x) = true := by
    intro x hx
    have hle : s ≤ x := by
      rcases List.mem_cons.1 hx with rfl | hrest
      · exact le_refl _
      · exact (List.pairwise_cons.1 hsorted).1 x hrest
    have hnot : ¬x < until' := by omega
    simp [touches, hnot]
  rw [found, List.filter_eq_nil_iff.2 hlate]
  rfl

theorem Event.walk_nil (budget : Nat) (out : List Occurrence) :
    e.walk lib since until' (budget + 1) out [] =
      if maxOccurrences ≤ out.length then (out, budget + 1) else (out, budget) := by
  rw [walk]

theorem Event.walk_cons (budget : Nat) (out : List Occurrence) :
    e.walk lib since until' (budget + 1) out (s :: rest) =
      if maxOccurrences ≤ out.length then (out, budget + 1)
      else if until' ≤ s then (out, budget)
      else if s < since - e.duration then e.walk lib since until' budget out rest
      else if e.touches since until' s (e.endAt lib s) then
        e.walk lib since until' budget
          (out ++ [{ event := e, start := s, «end» := e.endAt lib s }]) rest
      else e.walk lib since until' budget out rest := by
  rw [walk]

theorem Event.walk_eq {instants : List Int} (hsorted : instants.Pairwise (· ≤ ·))
    (hfits : ∀ s ∈ instants, e.endAt lib s ≤ s + e.duration) :
    ∀ (budget : Nat) (out : List Occurrence),
      (instants.filter fun s => s < until').length < budget →
      out.length + (e.found lib since until' instants).length ≤ maxOccurrences →
      (e.walk lib since until' budget out instants).1 = out ++ e.found lib since until' instants ∧
      budget ≤ (e.walk lib since until' budget out instants).2 +
        ((instants.filter fun s => s < until').length + 1) := by
  induction instants with
  | nil =>
    intro budget out hbudget _
    cases budget with
    | zero => cases hbudget
    | succ budget =>
      rw [walk_nil]
      split <;> simp [found]
  | cons s rest ih =>
    intro budget out hbudget hroom
    cases budget with
    | zero => cases hbudget
    | succ budget =>
      rw [walk_cons]
      by_cases hfull : maxOccurrences ≤ out.length
      · have hnone : e.found lib since until' (s :: rest) = [] :=
          List.eq_nil_of_length_eq_zero (by omega)
        rw [if_pos hfull, hnone]
        exact ⟨(List.append_nil _).symm, Nat.le_add_right _ _⟩
      rw [if_neg hfull]
      by_cases hlate : until' ≤ s
      · simp only [if_pos hlate, found_late hsorted hlate, List.append_nil, true_and]
        omega
      simp only [if_neg hlate]
      have hcount : ((s :: rest).filter fun s => s < until').length =
          (rest.filter fun s => s < until').length + 1 := by
        rw [List.filter_cons_of_pos (by simpa using hlate)]
        rfl
      have hstep := ih (List.pairwise_cons.1 hsorted).2
        (fun x hx => hfits x (List.mem_cons_of_mem _ hx)) budget
      by_cases hearly : s < since - e.duration
      · rw [found_cons_neg (touches_early (hfits s (List.mem_cons_self ..)) hearly)] at hroom ⊢
        rw [if_pos hearly]
        obtain ⟨hout, hleft⟩ := hstep out (by omega) hroom
        exact ⟨hout, by omega⟩
      rw [if_neg hearly]
      by_cases htouch : e.touches since until' s (e.endAt lib s) = true
      · rw [found_cons_pos htouch] at hroom ⊢
        rw [if_pos htouch]
        obtain ⟨hout, hleft⟩ := hstep
          (out ++ [{ event := e, start := s, «end» := e.endAt lib s }]) (by omega) (by
            simp only [List.length_append, List.length_cons, List.length_nil] at hroom ⊢
            omega)
        rw [hout]
        exact ⟨List.append_assoc .., by omega⟩
      · rw [found_cons_neg (by simpa using htouch)] at hroom ⊢
        rw [if_neg htouch]
        obtain ⟨hout, hleft⟩ := hstep out (by omega) hroom
        exact ⟨hout, by omega⟩

/-! ## The loop over the events -/

theorem Event.single_spec (e' : Event) (hstart : e'.start = e.start) (hend : e'.end = e.end)
    (hstatus : e'.status = e.status) (hrule : e.rule lib = none) :
    ((e'.single since until').map fun o => (o.start, o.end)) = e.timesIn lib since until' ∧
      ∀ o ∈ e'.single since until', o.event.status = e.status := by
  have hsame : ∀ s t, e'.touches since until' s t = e.touches since until' s t := by
    intro s t
    simp only [touches, duration, hstart, hend]
  simp only [single, timesIn, times, hrule, hsame, hstart, hend]
  by_cases htouch : e.touches since until' e.start.instant e.end.instant = true
  · simp [htouch, hstatus]
  · simp [htouch]

theorem Event.occurrencesBudget_spec (budget : Nat) (hfits : e.fits lib = true)
    (hbudget : e.steps lib until' ≤ budget)
    (hroom : (e.timesIn lib since until').length ≤ maxOccurrences) :
    ((e.occurrencesBudget lib since until' budget).1.map fun o => (o.start, o.end)) =
        e.timesIn lib since until' ∧
      (∀ o ∈ (e.occurrencesBudget lib since until' budget).1, o.event.status = e.status) ∧
      budget ≤ (e.occurrencesBudget lib since until' budget).2 + e.steps lib until' := by
  unfold occurrencesBudget
  by_cases hrrule : e.rrule = []
  · have hrule : e.rule lib = none := by rw [rule, if_pos hrrule]
    rw [if_pos hrrule]
    obtain ⟨htimes, hstatus⟩ := single_spec e rfl rfl rfl hrule
    exact ⟨htimes, hstatus, Nat.le_add_right _ _⟩
  rw [if_neg hrrule]
  cases hrec : lib.recurrence e.rrule e.start (e.exDates.map Moment.instant) with
  | none =>
    have hrule : e.rule lib = none := by rw [rule, if_neg hrrule, hrec]
    obtain ⟨htimes, hstatus⟩ := single_spec (e := e) { e with rrule := [] } rfl rfl rfl hrule
    exact ⟨htimes, hstatus, Nat.le_add_right _ _⟩
  | some instants =>
    have hrule : e.rule lib = some instants := by rw [rule, if_neg hrrule, hrec]
    have hlast : ∀ s ∈ instants, e.endAt lib s ≤ s + e.duration := by
      simpa [fits, hrule] using hfits
    have htimes : ((e.found lib since until' instants).map fun o => (o.start, o.end)) =
        e.timesIn lib since until' := by
      simp only [found, timesIn, times, hrule, List.filter_map, List.map_map]
      rfl
    have hlength : (e.found lib since until' instants).length =
        (e.timesIn lib since until').length := by
      rw [← htimes, List.length_map]
    simp only [steps, hrule] at hbudget ⊢
    obtain ⟨hout, hleft⟩ := walk_eq (lib.recurrence_sorted _ _ _ _ hrec) hlast budget []
      (Nat.lt_of_succ_le hbudget) (by rw [hlength, List.length_nil]; omega)
    rw [hout]
    refine ⟨htimes, fun o ho => ?_, hleft⟩
    obtain ⟨s, -, rfl⟩ := List.mem_map.1 ho
    rfl

/-- An occurrence at a time, of an event with the status of another. -/
def Occurrence.Shows (o : Occurrence) (e : Event) (x : Int × Int) : Prop :=
  (o.start, o.end) = x ∧ o.event.status = e.status

theorem expandFrom_complete (events : List Event) :
    ∀ (budget : Nat) (out : List Occurrence),
      (events.map fun e => e.steps lib until').sum < budget →
      out.length + (events.map fun e => (e.timesIn lib since until').length).sum ≤
        maxViewOccurrences →
      (∀ e ∈ events, e.fits lib = true ∧
        (e.timesIn lib since until').length ≤ maxOccurrences) →
      (∀ o ∈ out, o ∈ expandFrom lib since until' budget out events) ∧
      ∀ e ∈ events, ∀ x ∈ e.timesIn lib since until',
        ∃ o ∈ expandFrom lib since until' budget out events, o.Shows e x := by
  induction events with
  | nil => exact fun _ _ _ _ _ => ⟨fun _ ho => ho, fun _ he => nomatch he⟩
  | cons e rest ih =>
    intro budget out hbudget hroom hevents
    simp only [List.map_cons, List.sum_cons] at hbudget hroom
    have hrest : ∀ e ∈ rest, e.fits lib = true ∧
        (e.timesIn lib since until').length ≤ maxOccurrences :=
      fun e he => hevents e (List.mem_cons_of_mem _ he)
    obtain ⟨hfits, hfew⟩ := hevents e (List.mem_cons_self ..)
    obtain ⟨htimes, hstatus, hleft⟩ := Event.occurrencesBudget_spec budget hfits
      (Nat.le_of_lt (Nat.lt_of_le_of_lt (Nat.le_add_right _ _) hbudget)) hfew
    unfold expandFrom
    by_cases hstop : budget = 0 ∨ maxViewOccurrences ≤ out.length
    · -- the list is full, so nothing is left to be found
      rw [if_pos hstop]
      refine ⟨fun _ ho => ho, fun e' he' x hx => ?_⟩
      have hsome : 0 < (e'.timesIn lib since until').length := List.length_pos_of_mem hx
      have hsum := List.le_sum_of_mem (List.mem_map_of_mem
        (f := fun e : Event => (e.timesIn lib since until').length) he')
      simp only [List.map_cons, List.sum_cons] at hsum
      omega
    · rw [if_neg hstop]
      have hlength : (e.occurrencesBudget lib since until' budget).1.length =
          (e.timesIn lib since until').length := by
        rw [← htimes, List.length_map]
      have htake : (e.occurrencesBudget lib since until' budget).1.take
          (maxViewOccurrences - out.length) = (e.occurrencesBudget lib since until' budget).1 :=
        List.take_of_length_le (by omega)
      simp only [htake]
      obtain ⟨hkept, hfound⟩ := ih (e.occurrencesBudget lib since until' budget).2
        (out ++ (e.occurrencesBudget lib since until' budget).1) (by omega)
        (by rw [List.length_append]; omega) hrest
      refine ⟨fun o ho => hkept o (List.mem_append_left _ ho), fun e' he' x hx => ?_⟩
      rcases List.mem_cons.1 he' with rfl | he'
      · rw [← htimes] at hx
        obtain ⟨o, ho, rfl⟩ := List.mem_map.1 hx
        exact ⟨o, hkept o (List.mem_append_right _ ho), rfl, hstatus o ho⟩
      · exact hfound e' he' x hx

/-- Nothing of a period of at most a year is left out. -/
theorem expand_complete {events : List Event} (hyear : until' ≤ since + 366 * 24 * hour)
    (hlimits : withinLimits lib events since until' = true) :
    ∀ e ∈ events, ∀ x ∈ e.timesIn lib since until',
      ∃ o ∈ expand lib events since until', o.Shows e x := by
  have hwhole : ¬366 * 24 * hour < difference until' since := by
    unfold difference
    unfold hour at hyear ⊢
    omega
  simp only [withinLimits, Bool.and_eq_true, decide_eq_true_eq, List.all_eq_true] at hlimits
  obtain ⟨⟨hsteps, htotal⟩, hevents⟩ := hlimits
  have hfound := (expandFrom_complete events maxRecurrenceSteps [] hsteps (by simpa using htotal)
    hevents).2
  intro e he x hx
  obtain ⟨o, ho, hshows⟩ := hfound e he x hx
  refine ⟨o, ?_, hshows⟩
  simp only [expand, if_neg hwhole]
  exact List.mem_mergeSort.2 ho

end Elemta.Webmail.Ical
