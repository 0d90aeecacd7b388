import Elemta.Mailbox.BookingRuns
import Elemta.Webmail.Occurrences

/-!
# Bookings that overlap

A decision compares the first event of an invitation with the events that are stored, by
listing the occurrences of both in a year. All events of the invitation are stored. Where
an invitation has one event, and the lists are not cut short, the bookings in the calendar
of a resource keep apart in every run.
-/

namespace Elemta.Mailbox.Bookings

open Bytes Webmail.Ical Webmail.Booking

variable {lib : Library}

def cancelled (e : Webmail.Ical.Event) : Bool :=
  equalFold e.status (lit "CANCELLED")

/-- In the year that is looked at for the newer booking, no occurrence of its events overlaps one
of an older booking with another name. -/
def Apart (lib : Library) (older newer : Entry) : Prop :=
  ∀ f ∈ objectEvents lib newer.obj utc, ∀ e ∈ objectEvents lib older.obj utc,
    e.uid ≠ f.uid → cancelled e = false →
    ∀ y ∈ f.timesIn lib (windowStart f) (windowEnd f),
    ∀ x ∈ e.timesIn lib (windowStart f) (windowEnd f), ¬(y.1 < x.2 ∧ x.1 < y.2)

instance (lib : Library) : DecidableRel (Apart lib) := fun older newer =>
  inferInstanceAs (Decidable (∀ f ∈ objectEvents lib newer.obj utc,
    ∀ e ∈ objectEvents lib older.obj utc, e.uid ≠ f.uid → cancelled e = false →
    ∀ y ∈ f.timesIn lib (windowStart f) (windowEnd f),
    ∀ x ∈ e.timesIn lib (windowStart f) (windowEnd f), ¬(y.1 < x.2 ∧ x.1 < y.2)))

def others (lib : Library) (calendar : List Entry) (request : Webmail.Ical.Event) :
    List Webmail.Ical.Event :=
  (eventsFrom lib (calendar.map Entry.obj) utc).filter fun e => e.uid ≠ request.uid

/-- An invitation has one event, and neither its occurrences nor those of the stored events go
beyond the limits of an expansion. -/
def roomy (lib : Library) (s : State) : Input → Bool
  | .deliver _ m => (decodeCalendar lib m.data utc).all fun p => p.events.length == 1
  | .advance i _ _ =>
    match s.tasks i with
    | .reading m _ =>
      ((decodeCalendar lib m.data utc).map Parsed.events).all fun events => events.all fun q =>
        withinLimits lib [q] (windowStart q) (windowEnd q) &&
          withinLimits lib (others lib s.calendar q) (windowStart q) (windowEnd q)
    | _ => true

theorem timesIn_named (e : Webmail.Ical.Event) (since until' : Int) :
    e.named.timesIn lib since until' = e.timesIn lib since until' := by
  unfold Event.named
  split <;> rfl

theorem cancelled_named (e : Webmail.Ical.Event) : cancelled e.named = cancelled e := by
  unfold Event.named
  split <;> rfl

/-- An accepted event keeps apart from everything that is stored. -/
theorem apart_of_accept {s : State} {data : Bytes} {p : Parsed} {first : Webmail.Ical.Event}
    {rest : List Webmail.Ical.Event} (hp : decodeCalendar lib data utc = some p)
    (hevents : p.events = first :: rest)
    (haccept : decideBooking lib data (s.calendar.map Entry.obj) = some .accept)
    (hwanted : withinLimits lib [first] (windowStart first) (windowEnd first) = true)
    (hbusy : withinLimits lib (others lib s.calendar first) (windowStart first)
      (windowEnd first) = true) {b : Entry} (hb : b ∈ s.calendar) {e : Webmail.Ical.Event}
    (he : e ∈ objectEvents lib b.obj utc) (huid : e.uid ≠ first.uid)
    (hcancelled : cancelled e = false) {x y : Int × Int}
    (hy : y ∈ first.timesIn lib (windowStart first) (windowEnd first))
    (hx : x ∈ e.timesIn lib (windowStart first) (windowEnd first)) :
    ¬(y.1 < x.2 ∧ x.1 < y.2) := by
  have hyear : windowEnd first ≤ windowStart first + 366 * 24 * hour := le_refl _
  obtain ⟨w, hw, rfl, -⟩ := expand_complete hyear hwanted first (List.mem_singleton_self _) y hy
  have hother : e.named ∈ others lib s.calendar first :=
    List.mem_filter.2 ⟨mem_eventsFrom (List.mem_map_of_mem hb) he, by simpa [named_uid] using huid⟩
  obtain ⟨t, ht, rfl, hstatus⟩ := expand_complete hyear hbusy e.named hother x
    (by rwa [timesIn_named])
  have hfree := (decideBooking_accept hp hevents haccept).2 w hw t ht
  have hcounts : equalFold t.event.status (lit "CANCELLED") = false := by
    rw [hstatus, ← hcancelled, ← cancelled_named]
    rfl
  rintro ⟨hstart, hend⟩
  simp [conflicts, overlaps, hcounts, hstart, hend] at hfree

/-- Bookings keep apart where invitations have one event. -/
theorem time_rules (account : Bytes) :
    Rules lib account (fun s input => roomy lib s input = true)
      (fun m _ => ∀ p, decodeCalendar lib m.data utc = some p → p.events.length = 1)
      (fun _ => True) (Apart lib) fun _ _ => True := by
  refine ⟨?_, ?_, fun _ _ _ _ _ _ _ _ _ _ => trivial⟩
  · intro s i m r hroomy _ p hp
    simpa [roomy, hp] using hroomy
  · intro s i now a m r obj old hroomy hi hsingle hdistinct _ _ hdecision
    obtain ⟨haccept, hobj, -⟩ := decideOn_appending hdecision
    obtain ⟨p, first, rest, hp, hevents, hstored, -⟩ := bookingObject_spec hobj
    have hrest : rest = [] := by
      have hlength := hsingle p hp
      rw [hevents] at hlength
      exact List.eq_nil_of_length_eq_zero (Nat.succ.inj hlength)
    have hlimits : withinLimits lib [first] (windowStart first) (windowEnd first) = true ∧
        withinLimits lib (others lib s.calendar first) (windowStart first) (windowEnd first) =
          true := by
      simpa [roomy, hi, hp, hevents, hrest] using hroomy
    refine ⟨fun _ => trivial, fun b hb n f hf e he huid hcancelled y hy x hx => ?_,
      fun _ _ _ => trivial⟩
    rw [hstored, hrest, List.mem_singleton] at hf
    subst hf
    exact apart_of_accept hp hevents haccept hlimits.1 hlimits.2 hb he huid hcancelled hy hx

/-- In a run in which every invitation has one event and the occurrences stay within the limits, no
two bookings in the calendar overlap. -/
theorem bookings_apart (lib : Library) (account : Bytes) (inputs : List Input)
    (hrun : Machine.Along (step lib account) (fun s input => roomy lib s input = true)
      State.init inputs) :
    (Machine.run (step lib account) State.init inputs).calendar.Pairwise (Apart lib) :=
  (regular_run (time_rules account) hrun).pairs

open Plain in
/-- The first invitation is for two days without the first of them, and the second one overlaps it
on the other day. -/
theorem bookings_apart_declined :
    let alice := lit "alice@corp.org"
    let inputs := delivered (request alice (event alice (lit "standup") (lit "02T10")
        (lit "RRULE:FREQ=DAILY;COUNT=2\r\nEXDATE:19700102T100000Z\r\n"))) ++
      delivered (request alice (event alice (lit "review") (lit "03T10") [])) ++
      delivered (request alice (event alice (lit "retro") (lit "03T11") []))
    let s := Machine.run (step Webmail.Ical.Plain.library room) State.init inputs
    (s.calendar.map fun b => b.obj.id) = [lit "standup", lit "retro"] ∧
      s.calendar.Pairwise (Apart Webmail.Ical.Plain.library) := by
  intro alice inputs s
  have hrun : Machine.Along (step Webmail.Ical.Plain.library room)
      (fun s input => roomy Webmail.Ical.Plain.library s input = true) State.init inputs := by
    decide +kernel
  exact ⟨by decide +kernel, bookings_apart _ _ _ hrun⟩

open Plain in
/-- The second event of an invitation is booked over another booking. -/
theorem second_event_overlaps :
    let alice := lit "alice@corp.org"
    let bob := lit "bob@corp.org"
    let inputs := delivered (request alice (event alice (lit "standup") (lit "02T10") [])) ++
      delivered (request bob (event bob (lit "review") (lit "02T12") [] ++
        event bob (lit "retro") (lit "02T10") []))
    let s := Machine.run (step Webmail.Ical.Plain.library room) State.init inputs
    (s.calendar.map fun b => (objectEvents Webmail.Ical.Plain.library b.obj utc).map fun e =>
        (e.uid, e.timesIn Webmail.Ical.Plain.library (windowStart e) (windowEnd e))) =
      [[(lit "standup", [(34 * hour, 34 * hour + hour / 2)])],
        [(lit "review", [(36 * hour, 36 * hour + hour / 2)]),
          (lit "retro", [(34 * hour, 34 * hour + hour / 2)])]] ∧
    ¬s.calendar.Pairwise (Apart Webmail.Ical.Plain.library) := by
  decide +kernel

end Elemta.Mailbox.Bookings
