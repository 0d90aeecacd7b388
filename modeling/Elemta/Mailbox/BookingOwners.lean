import Elemta.Mailbox.BookingRuns

/-!
# Whose messages change a booking

Ownership is judged by the organizer that the calendar data names. Where this is always
the envelope sender, and no two names share an object id, a booking is replaced and
removed by messages of the sender who made it, and by no others. Without that, anyone of
the domain who writes another organizer into the data can do it.
-/

namespace Elemta.Mailbox.Bookings

open Bytes Webmail.Ical Webmail.Booking

variable {lib : Library}

/-! ## Organizers -/

variable {a b address : Bytes} {e : Webmail.Ical.Event} {m : Message} {r : Request}
  {rest : List Webmail.Ical.Event}

theorem equalFold_iff : equalFold a b = true ↔ foldCase a = foldCase b :=
  beq_iff_eq

def OrganizedBy (e : Webmail.Ical.Event) (address : Bytes) : Prop :=
  ∃ a, e.organizer = some a ∧ equalFold a.email address = true

theorem OrganizedBy.of_sameOrganizer {e' : Webmail.Ical.Event} (h : sameOrganizer e e' = true)
    (h' : OrganizedBy e' address) : OrganizedBy e address := by
  obtain ⟨b, hb, hfold⟩ := h'
  cases ha : e.organizer with
  | none => simp [sameOrganizer, ha] at h
  | some a =>
    simp only [sameOrganizer, ha, hb, equalFold_iff] at h
    exact ⟨a, ha, equalFold_iff.2 (h.trans (equalFold_iff.1 hfold))⟩

theorem OrganizedBy.equalFold (h : OrganizedBy e a) (h' : OrganizedBy e b) :
    equalFold a b = true := by
  obtain ⟨o, ho, hfold⟩ := h
  obtain ⟨o', ho', hfold'⟩ := h'
  obtain rfl := Option.some.inj (ho.symm.trans ho')
  rw [equalFold_iff] at hfold hfold' ⊢
  exact hfold.symm.trans hfold'

theorem OrganizedBy.congr (h : OrganizedBy e a) (hab : Bytes.equalFold a b = true) :
    OrganizedBy e b := by
  obtain ⟨o, ho, hfold⟩ := h
  exact ⟨o, ho, equalFold_iff.2 ((equalFold_iff.1 hfold).trans (equalFold_iff.1 hab))⟩

/-! ## Runs in which organizers are senders -/

/-- The organizer that a message names is its envelope sender, and a booking that is stored under
the object id of a request has the request's name. -/
def honest (lib : Library) (s : State) : Input → Bool
  | .deliver _ m => (parseBooking lib m.data).all fun r => equalFold r.organizer m.sender
  | .advance i _ _ =>
    match s.tasks i with
    | .reading _ r => s.calendar.all fun e =>
        e.obj.id != objectID r.uid || (parseBooking lib e.obj.data).any fun r' => r'.uid == r.uid
    | _ => true

def OwnersNamed (lib : Library) (b : Entry) : Prop :=
  ∃ first rest, objectEvents lib b.obj utc = first :: rest ∧ OrganizedBy first b.origin.sender

def SameOwner (lib : Library) (older newer : Entry) : Prop :=
  ∀ first rest, objectEvents lib newer.obj utc = first :: rest →
    ∀ e ∈ objectEvents lib older.obj utc, e.uid = first.uid → sameOrganizer e first = true

def Signed (lib : Library) (m : Message) (r : Request) : Prop :=
  parseBooking lib m.data = some r ∧ r.organizer ≠ [] ∧ equalFold r.organizer m.sender = true

theorem signed_of_admit {account : Bytes} {s : State} {i : Nat}
    (hhonest : honest lib s (.deliver i m) = true) (h : admitted lib account m = some r) :
    Signed lib m r := by
  unfold admitted at h
  split at h
  · cases h
  rename_i r' hparse
  split_ifs at h with hskip hdomain
  obtain rfl := Option.some.inj h
  have hsender : equalFold r'.organizer m.sender = true := by
    simpa [honest, hparse] using hhonest
  exact ⟨hparse, fun hnone => hskip (.inr (.inl hnone)), hsender⟩

theorem Signed.first (h : Signed lib m r) {p : Parsed} {first : Webmail.Ical.Event}
    (hp : decodeCalendar lib m.data utc = some p) (hevents : p.events = first :: rest) :
    first.uid = r.uid ∧ OrganizedBy first m.sender := by
  obtain ⟨hparse, hne, hsender⟩ := h
  obtain ⟨p', first', rest', hp', hevents', huid, horganizer⟩ := parseBooking_first hparse
  obtain rfl := Option.some.inj (hp.symm.trans hp')
  obtain ⟨rfl, -⟩ := List.cons.inj (hevents.symm.trans hevents')
  refine ⟨huid.symm, ?_⟩
  cases ho : first.organizer with
  | none =>
    rw [ho] at horganizer
    exact absurd horganizer hne
  | some a =>
    rw [ho] at horganizer
    exact ⟨a, ho, by rw [← hsender, horganizer]; rfl⟩

theorem first_uid {s : State} {i : Nat} {now : Int} {a : Answer}
    (hhonest : honest lib s (.advance i now a) = true) (hi : s.tasks i = .reading m r)
    (hdistinct : Distinct s.calendar) {b : Entry} (hb : b ∈ s.calendar)
    (hold : b.number ∈ withID s.calendar (objectID r.uid)) {first : Webmail.Ical.Event}
    (hevents : objectEvents lib b.obj utc = first :: rest) : first.uid = r.uid := by
  have hid : b.obj.id = objectID r.uid := hdistinct.id_of_mem hb hold
  simp only [honest, hi, List.all_eq_true] at hhonest
  have hname := hhonest b hb
  simp only [hid, bne_self_eq_false, Bool.false_or, Option.any_eq_true, beq_iff_eq] at hname
  obtain ⟨r', hparse, huid⟩ := hname
  obtain ⟨p, first', rest', hp, hfirst, hr', -⟩ := parseBooking_first hparse
  have hsame : objectEvents lib b.obj utc = first' :: rest' := by
    rw [objectEvents, hp, ← hfirst]
    rfl
  rw [hevents] at hsame
  rw [(List.cons.inj hsame).1, ← hr', huid]

/-- The event that a cancellation is judged by: the first of its name, and so one that has the
organizer of any booking of that name. -/
theorem found_sameOwner {calendar : List Entry} (hpairs : calendar.Pairwise (SameOwner lib))
    {b : Entry} (hb : b ∈ calendar) {first : Webmail.Ical.Event}
    (hevents : objectEvents lib b.obj utc = first :: rest) {found : Webmail.Ical.Event}
    (hfound : (eventsFrom lib (calendar.map Entry.obj) utc).find? (fun e => e.uid = first.uid) =
      some found) (hfirst : OrganizedBy first address) : OrganizedBy found address := by
  obtain ⟨before, after, rfl⟩ := List.append_of_mem hb
  have hsplit : eventsFrom lib ((before ++ b :: after).map Entry.obj) utc =
      eventsFrom lib (before.map Entry.obj) utc ++ first.named ::
        (rest.map Event.named ++ eventsFrom lib (after.map Entry.obj) utc) := by
    simp [eventsFrom, hevents]
  rw [hsplit, List.find?_append] at hfound
  cases hbefore : (eventsFrom lib (before.map Entry.obj) utc).find? fun e => e.uid = first.uid with
  | none =>
    -- the booking's own first event
    rw [hbefore, List.find?_cons_of_pos (by simp [named_uid])] at hfound
    cases hfound
    rwa [OrganizedBy, named_organizer]
  | some e =>
    -- an event of an older booking
    rw [hbefore] at hfound
    cases hfound
    obtain ⟨o, ho, hnamed⟩ := List.mem_flatMap.1 (List.mem_of_find?_eq_some hbefore)
    obtain ⟨older, holder, rfl⟩ := List.mem_map.1 ho
    obtain ⟨e', he', rfl⟩ := List.mem_map.1 hnamed
    have huid : e'.uid = first.uid := by
      simpa [named_uid] using List.find?_some hbefore
    have hpair := (List.pairwise_append.1 hpairs).2.2 older holder b (List.mem_cons_self ..)
    rw [OrganizedBy, named_organizer]
    exact OrganizedBy.of_sameOrganizer (hpair first rest hevents e' he' huid) hfirst

/-- Whoever acts on a booking is the one who made it. -/
theorem owner_rules (account : Bytes) :
    Rules lib account (fun s input => honest lib s input = true) (Signed lib) (OwnersNamed lib)
      (SameOwner lib) fun b m => equalFold b.origin.sender m.sender = true := by
  refine ⟨fun hhonest hadmit => signed_of_admit hhonest hadmit, ?_, ?_⟩
  · intro s i now a m r obj old hhonest hi hsigned hdistinct hgood hpairs hdecision
    obtain ⟨haccept, hobj, rfl⟩ := decideOn_appending hdecision
    obtain ⟨p, first, rest, hp, hevents, hstored, -⟩ := bookingObject_spec hobj
    obtain ⟨huid, hfirst⟩ := hsigned.first hp hevents
    have hsame : ∀ b ∈ s.calendar, ∀ e ∈ objectEvents lib b.obj utc, e.uid = first.uid →
        sameOrganizer e first = true := by
      intro b hb e he heuid
      have hnamed := (decideBooking_accept hp hevents haccept).1 e.named
        (mem_eventsFrom (List.mem_map_of_mem hb) he) (by rw [named_uid, heuid])
      simpa only [sameOrganizer, named_organizer] using hnamed
    refine ⟨fun n => ⟨first, rest, hstored, hfirst⟩, ?_, ?_⟩
    · intro b hb n first' rest' hstored' e he heuid
      obtain ⟨rfl, -⟩ := List.cons.inj (hstored.symm.trans hstored')
      exact hsame b hb e he heuid
    · intro b hb hold
      obtain ⟨firstB, restB, heventsB, hownerB⟩ := hgood b hb
      have huidB := first_uid hhonest hi hdistinct hb hold heventsB
      have hmem : firstB ∈ objectEvents lib b.obj utc := by
        rw [heventsB]
        exact List.mem_cons_self ..
      have horganizer := hsame b hb firstB hmem (huidB.trans huid.symm)
      exact hownerB.equalFold (.of_sameOrganizer horganizer hfirst)
  · intro s i now a m r old hhonest hi hsigned hdistinct hgood hpairs hdecision b hb hold
    obtain ⟨howned, rfl⟩ := decideOn_removing hdecision
    obtain ⟨first, rest, hevents, howner⟩ := hgood b hb
    have huid := first_uid hhonest hi hdistinct hb hold hevents
    unfold bookingOwnedBy at howned
    split at howned
    · cases howned
    rename_i found hfound
    rw [← huid] at hfound
    obtain ⟨o, ho, hfold⟩ := found_sameOwner hpairs hb hevents hfound howner
    -- the organizer of the cancellation is its sender
    rw [ho] at howned
    have hnamed : OrganizedBy found r.organizer := ⟨o, ho, howned⟩
    exact OrganizedBy.equalFold ⟨o, ho, hfold⟩ (hnamed.congr hsigned.2.2)

/-- In a run in which the organizer that a message names is its sender, a stored booking is
replaced or removed by a message of the sender who made it. -/
theorem booking_kept_for_sender (lib : Library) (account : Bytes) (inputs : List Input)
    (hrun : Machine.Along (step lib account) (fun s input => honest lib s input = true)
      State.init inputs) :
    ∀ ev ∈ (Machine.run (step lib account) State.init inputs).log,
      equalFold ev.booking.origin.sender ev.by'.sender = true :=
  (regular_run (owner_rules account) hrun).own

open Plain in
theorem booking_kept_for_sender_moved :
    let alice := lit "alice@corp.org"
    let inputs := delivered (request alice (event alice (lit "standup") (lit "02T10") [])) ++
      delivered (request (lit "Alice@corp.org") (event alice (lit "standup") (lit "02T11") []))
    ((Machine.run (step Webmail.Ical.Plain.library room) State.init inputs).log.map fun ev =>
        (ev.booking.number, ev.by'.sender)) =
      [(1, lit "Alice@corp.org"), (1, lit "Alice@corp.org")] ∧
    ∀ ev ∈ (Machine.run (step Webmail.Ical.Plain.library room) State.init inputs).log,
      equalFold ev.booking.origin.sender ev.by'.sender = true := by
  intro alice inputs
  have hrun : Machine.Along (step Webmail.Ical.Plain.library room)
      (fun s input => honest Webmail.Ical.Plain.library s input = true) State.init inputs := by
    decide +kernel
  exact ⟨by decide +kernel, booking_kept_for_sender _ _ _ hrun⟩

open Plain in
/-- Someone else of the domain names the organizer of a booking and cancels it. -/
theorem booking_cancelled_by_other :
    let alice := lit "alice@corp.org"
    let mallory := lit "mallory@corp.org"
    let inputs := delivered (request alice (event alice (lit "standup") (lit "02T10") [])) ++
      delivered (cancel mallory (event alice (lit "standup") (lit "02T10") []))
    let s := Machine.run (step Webmail.Ical.Plain.library room) State.init inputs
    s.calendar = [] ∧
      (s.log.map fun ev => (ev.booking.origin.sender, ev.by'.sender)) = [(alice, mallory)] := by
  decide +kernel

end Elemta.Mailbox.Bookings
