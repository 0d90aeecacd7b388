import Elemta.Webmail.Ical

/-!
# What a resource does with an invitation

A room has nobody to answer its invitations, so the mailbox service decides on them as
they are delivered: whether the time is free of the stored bookings, and whether a
booking that is already there belongs to the same organizer.
-/

namespace Elemta.Webmail.Booking

open Bytes Ical

structure Request where
  uid : Bytes
  organizer : Bytes
  sequence : Int
  occurrence : Bool
  deriving DecidableEq

inductive Decision where
  | accept
  | decline
  | stale
  deriving DecidableEq

/-- How far ahead a recurring booking is checked for conflicts. -/
def bookingWindow : Int := 366 * 24 * hour

variable (lib : Library)

def parseBooking (data : Bytes) : Option Request :=
  match decodeCalendar lib data utc, lib.decode data with
  | some { events := e :: _, .. }, some raw =>
    some
      { uid := e.uid
        organizer := (e.organizer.map Attendee.email).getD []
        sequence := e.sequence
        occurrence := raw.children.any fun c =>
          c.name == lit "VEVENT" && (c.get (lit "RECURRENCE-ID")).isSome }
  | _, _ => none

def sameOrganizer (e request : Event) : Bool :=
  match e.organizer, request.organizer with
  | some a, some b => equalFold a.email b.email
  | _, _ => false

/-- The stored events of the same name are looked at in order; `none` lets the request go on. -/
def refuse (request : Event) : List Event → Option Decision
  | [] => none
  | e :: rest =>
    if e.uid ≠ request.uid then refuse request rest
    else if e.sequence > request.sequence then some .stale
    else if sameOrganizer e request then refuse request rest
    else some .decline

def windowStart (request : Event) : Int :=
  request.start.instant - 24 * hour

def windowEnd (request : Event) : Int :=
  windowStart request + bookingWindow

def overlaps (wanted taken : Occurrence) : Bool :=
  decide (wanted.start < taken.end) && decide (taken.start < wanted.end)

def conflicts (wanted taken : Occurrence) : Bool :=
  !equalFold taken.event.status (lit "CANCELLED") && overlaps wanted taken

def decideEvent (request : Event) (existing : List Event) : Decision :=
  match refuse request existing with
  | some d => d
  | none =>
    let others := existing.filter fun e => e.uid ≠ request.uid
    let busy := expand lib others (windowStart request) (windowEnd request)
    let wanted := expand lib [request] (windowStart request) (windowEnd request)
    if wanted.any fun w => busy.any fun t => conflicts w t then .decline else .accept

def decideBooking (data : Bytes) (stored : List Object) : Option Decision :=
  match decodeCalendar lib data utc with
  | some { events := request :: _, .. } =>
    some (decideEvent lib request (eventsFrom lib stored utc))
  | _ => none

def bookingOwnedBy (stored : List Object) (uid organizer : Bytes) : Bool :=
  match (eventsFrom lib stored utc).find? fun e => e.uid = uid with
  | none => false
  | some e => (e.organizer.map fun a => equalFold a.email organizer).getD false

/-- A stored object is not a message, so it has no method. -/
def withoutMethod (cal : Component) : Component :=
  .mk cal.name (cal.props.filter fun p => p.name != lit "METHOD") cal.children

def bookingObject (data : Bytes) (now : Int) : Option Object :=
  match lib.decode data with
  | none => none
  | some cal =>
    match lib.encode (withoutMethod cal), parseBooking lib data with
    | some encoded, some r =>
      some { id := objectID r.uid, name := [], data := encoded, modified := now }
    | _, _ => none

def domainOf (address : Bytes) : Bytes :=
  (address.reverse.takeWhile (· != 64)).reverse

def sameDomain (a b : Bytes) : Bool :=
  a ≠ [] && equalFold (domainOf a) (domainOf b) && decide (64 ∈ b)

/-! ## What a decision says -/

variable {lib : Library}

theorem named_uid (e : Event) : e.named.uid = e.uid := by
  unfold Event.named
  split <;> rfl

theorem named_organizer (e : Event) : e.named.organizer = e.organizer := by
  unfold Event.named
  split <;> rfl

variable {data : Bytes}

theorem parseBooking_first {r : Request} (h : parseBooking lib data = some r) :
    ∃ p first rest, decodeCalendar lib data utc = some p ∧ p.events = first :: rest ∧
      r.uid = first.uid ∧ r.organizer = (first.organizer.map Attendee.email).getD [] := by
  unfold parseBooking at h
  split at h
  · rename_i method first rest raw hdecode hraw
    cases h
    exact ⟨_, first, rest, hdecode, rfl, rfl, rfl⟩
  · cases h

theorem bookingObject_spec {now : Int} {obj : Object} (h : bookingObject lib data now = some obj) :
    ∃ p first rest, decodeCalendar lib data utc = some p ∧ p.events = first :: rest ∧
      objectEvents lib obj utc = first :: rest ∧ obj.id = objectID first.uid := by
  unfold bookingObject at h
  split at h
  · cases h
  rename_i cal hcal
  split at h
  · rename_i encoded r hencode hparse
    cases h
    obtain ⟨p, first, rest, hp, hevents, huid, -⟩ := parseBooking_first hparse
    refine ⟨p, first, rest, hp, hevents, ?_, by rw [huid]⟩
    -- the same components are read, with or without a method
    rw [objectEvents_eq (lib.decode_encode _ _ hencode)]
    have hread : objectEvents lib { id := [], name := [], data := data, modified := 0 } utc =
        first :: rest := by
      rw [objectEvents, hp, ← hevents]
      rfl
    rw [← hread, objectEvents_eq hcal]
    rfl
  · cases h

theorem refuse_eq_none {request : Event} {existing : List Event}
    (h : refuse request existing = none) :
    ∀ e ∈ existing, e.uid = request.uid → sameOrganizer e request = true := by
  fun_induction refuse request existing with
  | case1 => exact fun _ hmem => nomatch hmem
  | case2 e rest hother ih =>
    exact List.forall_mem_cons.2 ⟨fun huid => absurd huid hother, ih h⟩
  | case4 e rest _ _ hsame ih => exact List.forall_mem_cons.2 ⟨fun _ => hsame, ih h⟩
  | case3 | case5 => cases h

theorem refuse_ne_accept (request : Event) (existing : List Event) :
    refuse request existing ≠ some .accept := by
  fun_induction refuse request existing with
  | case2 | case4 => assumption
  | case1 | case3 | case5 => nofun

/-- An invitation is accepted only when the events of its name that are stored have its organizer
and no occurrence is in its way. -/
theorem decideBooking_accept {stored : List Object} {p : Parsed} {first : Event}
    {rest : List Event} (hp : decodeCalendar lib data utc = some p)
    (hevents : p.events = first :: rest) (h : decideBooking lib data stored = some .accept) :
    (∀ e ∈ eventsFrom lib stored utc, e.uid = first.uid → sameOrganizer e first = true) ∧
    ∀ w ∈ expand lib [first] (windowStart first) (windowEnd first),
      ∀ t ∈ expand lib ((eventsFrom lib stored utc).filter fun e => e.uid ≠ first.uid)
        (windowStart first) (windowEnd first), conflicts w t = false := by
  obtain ⟨method, events⟩ := p
  subst hevents
  unfold decideBooking at h
  simp only [hp, Option.some.injEq] at h
  unfold decideEvent at h
  split at h
  · rename_i d hd
    rw [h] at hd
    exact absurd hd (refuse_ne_accept _ _)
  rename_i hrefuse
  refine ⟨refuse_eq_none hrefuse, ?_⟩
  simp only at h
  split at h
  · cases h
  rename_i hfree
  intro w hw t ht
  by_contra hconflict
  have htaken : conflicts w t = true := by simpa using hconflict
  exact hfree (List.any_eq_true.2 ⟨w, hw, List.any_eq_true.2 ⟨t, ht, htaken⟩⟩)

theorem mem_eventsFrom {objs : List Object} {o : Object} {e : Event} (ho : o ∈ objs)
    (he : e ∈ objectEvents lib o utc) : e.named ∈ eventsFrom lib objs utc :=
  List.mem_flatMap.2 ⟨o, ho, List.mem_map.2 ⟨e, he, rfl⟩⟩

end Elemta.Webmail.Booking
