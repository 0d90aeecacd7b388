import Elemta.Webmail.Ical
import Mathlib.Data.List.Forall2

/-!
# Calendars of other people

What someone can obtain of a calendar that is shared with them: its objects over CalDAV
and its events in the webmail. With view access the details of private events are hidden,
in the stored data for CalDAV and in the events that pages are made of. The two are
separate routines, and a page reads all of an event but the time of its last change.

Requests name the calendar and the access is looked up each time, so a request here comes
with the share. Failures of the store and checks of new content are left out, and what a
write does when it is allowed.
-/

namespace Elemta.Webmail.Sharing

open Bytes Ical

inductive Level where
  | view
  | edit
  | delegate
  deriving DecidableEq

structure Share where
  owner : Bytes
  level : Level
  deriving DecidableEq

def Share.canEdit (s : Share) : Bool :=
  s.level == .edit || s.level == .delegate

def Share.canActFor (s : Share) : Bool :=
  s.level == .delegate

/-- The part of an address that people recognise. -/
def sharedName (owner : Bytes) : Bytes :=
  match cut (lit "@") owner with
  | some (name, _) => name
  | none => owner

/-! ## Private events in stored data -/

/-- What free/busy tells a colleague, and what a client needs to place the event. -/
def davRedactedProps : List Bytes :=
  [ lit "UID", lit "DTSTAMP", lit "DTSTART", lit "DTEND", lit "DURATION", lit "RRULE",
    lit "RDATE", lit "EXDATE", lit "RECURRENCE-ID", lit "STATUS", lit "CLASS", lit "TRANSP" ]

def markedPrivate (c : Component) : Bool :=
  let «class» := toUpper (((c.get (lit "CLASS")).map Property.value).getD [])
  c.name == lit "VEVENT" && («class» == lit "PRIVATE" || «class» == lit "CONFIDENTIAL")

def bare (c : Component) : Component :=
  .mk (lit "VEVENT")
    (davRedactedProps.flatMap c.values ++
      [{ name := lit "SUMMARY", params := [], value := lit "Busy" }]) []

variable (lib : Library)

def redactPrivateCalendar (data : Bytes) : Option Bytes :=
  match lib.decode data with
  | none => none
  | some cal =>
    if cal.children.any markedPrivate then
      lib.encode (.mk cal.name cal.props
        (cal.children.map fun c => if markedPrivate c then bare c else c))
    else some data

/-! ## CalDAV -/

structure CalendarObject where
  path : Bytes
  modTime : Int
  contentLength : Nat
  etag : Bytes
  data : Component

def davSharedHome : Bytes := lit "/dav/calendars/shared/"

def davETag (data : Bytes) : Bytes :=
  Sha256.hex ((Sha256.sum256 data).take 16)

def davObjectName (o : Object) : Bytes :=
  if o.name ≠ [] then o.name
  else if o.id.any fun b => b ∈ lit "/?#%" then
    lit "h-" ++ Sha256.hex ((Sha256.sum256 o.id).take 16) ++ lit ".ics"
  else o.id ++ lit ".ics"

def findDAVObject (objs : List Object) (name : Bytes) : Option Object :=
  objs.find? fun o => davObjectName o == name

/-- The data is redacted before its length and its tag are taken. -/
def davCalendarObject (share : Share) (o : Object) : Option CalendarObject :=
  match if share.canEdit then some o.data else redactPrivateCalendar lib o.data with
  | none => none
  | some data =>
    (lib.decode data).map fun cal =>
      { path := davSharedHome ++ toLower share.owner ++ lit "/" ++ davObjectName o
        modTime := o.modified
        contentLength := data.length
        etag := davETag data
        data := cal }

def icalHasGuests (cal : Component) : Bool :=
  cal.children.any fun c =>
    c.name == lit "VEVENT" && ((c.get (lit "ATTENDEE")).isSome || (c.get (lit "ORGANIZER")).isSome)

/-- A change is allowed; guests are only for someone who acts for the owner. -/
def checkSharedWrite (share : Share) (cur : Option Object) (cal : Option Component) : Bool :=
  share.canActFor ||
    (share.canEdit && (cal.all fun cal => !icalHasGuests cal) &&
      cur.all fun o => (lib.decode o.data).any fun stored => !icalHasGuests stored)

/-! ## The webmail -/

/-- An event with whose it is and what may be done with it. -/
structure SharedEvent where
  event : Event
  owner : Bytes
  ownerCalendar : Bytes
  readOnly : Bool
  delegated : Bool
  deriving DecidableEq

def redactPrivate (e : Event) : Event :=
  { uid := e.uid
    summary := lit "Busy"
    location := []
    description := []
    url := []
    start := e.start
    «end» := e.end
    allDay := e.allDay
    rrule := e.rrule
    exDates := e.exDates
    calendar := []
    organizer := none
    attendees := []
    sequence := 0
    status := e.status
    busy := true
    reminder := -1
    modified := e.modified
    «private» := true }

def sharedEvent (share : Share) (e : Event) : SharedEvent :=
  let e := if e.private && !share.canEdit then redactPrivate e else e
  { event := { e with calendar := sharedName share.owner }
    owner := share.owner
    ownerCalendar := e.calendar
    readOnly := !share.canEdit
    delegated := share.canActFor }

def sharedEvents (objs : List Object) (share : Share) (loc : Zone) : List SharedEvent :=
  (eventsFrom lib objs loc).map (sharedEvent share)

def SharedEvent.shown (e : SharedEvent) : SharedEvent :=
  { e with event := { e.event with modified := none } }

/-! ## Requests -/

inductive Request where
  | list
  /-- The objects are filtered by the library as the query says. -/
  | query (filter : List CalendarObject → Option (List CalendarObject))
  | get (name : Bytes)
  | put (name : Bytes) (cal : Component)
  | delete (name : Bytes)
  /-- A page of the webmail, in the zone of the reader. -/
  | page (loc : Zone)
  | eventSubmit
  | inviteSubmit

inductive Response where
  | objects (l : List CalendarObject)
  | object (o : CalendarObject)
  | events (l : List SharedEvent)
  | notFound
  | forbidden
  | failed
  | allowed

def listCalendarObjects (share : Share) (objs : List Object) : List CalendarObject :=
  objs.filterMap (davCalendarObject lib share)

def getCalendarObject (share : Share) (objs : List Object) (name : Bytes) : Response :=
  match findDAVObject objs name with
  | none => .notFound
  | some o =>
    match davCalendarObject lib share o with
    | none => .failed
    | some co => .object co

def respond (share : Share) (objs : List Object) : Request → Response
  | .list => .objects (listCalendarObjects lib share objs)
  | .query filter =>
    match filter (listCalendarObjects lib share objs) with
    | none => .failed
    | some l => .objects l
  | .get name => getCalendarObject lib share objs name
  | .put name cal =>
    if checkSharedWrite lib share none (some cal) &&
        checkSharedWrite lib share (findDAVObject objs name) (some cal) then .allowed
    else .forbidden
  | .delete name =>
    if checkSharedWrite lib share (findDAVObject objs name) none then .allowed else .forbidden
  | .page loc => .events ((sharedEvents lib objs share loc).map SharedEvent.shown)
  | .eventSubmit => if share.canEdit then .allowed else .forbidden
  | .inviteSubmit => if share.canActFor then .allowed else .forbidden

/-! ## Calendars that differ in private events -/

/-- Two components are the same, or private events with the same properties of the kept names. -/
def SameOpenly (c c' : Component) : Prop :=
  c = c' ∨ (markedPrivate c = true ∧ markedPrivate c' = true ∧
    ∀ name ∈ davRedactedProps, c.values name = c'.values name)

/-- Two objects of one name and time whose data differs in private events only. -/
structure Indistinct (o o' : Object) : Prop where
  id : o.id = o'.id
  name : o.name = o'.name
  modified : o.modified = o'.modified
  data : o.data = o'.data ∨ ∃ cal cal', lib.decode o.data = some cal ∧
    lib.decode o'.data = some cal' ∧ cal.name = cal'.name ∧ cal.props = cal'.props ∧
    List.Forall₂ SameOpenly cal.children cal'.children ∧ cal.children.any markedPrivate = true

variable {lib}

/-! ### Stored data -/

variable {c c' : Component} {cs cs' : List Component} {e e' : Event}

theorem SameOpenly.markedPrivate (h : SameOpenly c c') : markedPrivate c = markedPrivate c' := by
  rcases h with rfl | ⟨hc, hc', -⟩
  · rfl
  · rw [hc, hc']

theorem SameOpenly.redacted (h : SameOpenly c c') :
    (if Sharing.markedPrivate c then bare c else c) =
      if Sharing.markedPrivate c' then bare c' else c' := by
  rcases h with rfl | ⟨hc, hc', hvalues⟩
  · rfl
  · rw [if_pos hc, if_pos hc', bare, bare, List.flatMap_congr hvalues]

theorem any_markedPrivate (h : List.Forall₂ SameOpenly cs cs') :
    cs.any markedPrivate = cs'.any markedPrivate := by
  induction h with
  | nil => rfl
  | cons hc _ ih => rw [List.any_cons, List.any_cons, hc.markedPrivate, ih]

theorem map_redacted (h : List.Forall₂ SameOpenly cs cs') :
    (cs.map fun c => if markedPrivate c then bare c else c) =
      cs'.map fun c => if markedPrivate c then bare c else c := by
  induction h with
  | nil => rfl
  | cons hc _ ih => rw [List.map_cons, List.map_cons, hc.redacted, ih]

namespace Indistinct

variable {o o' : Object}

theorem redactPrivateCalendar (h : Indistinct lib o o') :
    Sharing.redactPrivateCalendar lib o.data = Sharing.redactPrivateCalendar lib o'.data := by
  rcases h.data with hdata | ⟨cal, cal', hcal, hcal', hname, hprops, hchildren, hprivate⟩
  · rw [hdata]
  · have hprivate' := any_markedPrivate hchildren ▸ hprivate
    simp only [Sharing.redactPrivateCalendar, hcal, hcal', if_pos hprivate, if_pos hprivate']
    rw [hname, hprops, map_redacted hchildren]

theorem davObjectName (h : Indistinct lib o o') :
    Sharing.davObjectName o = Sharing.davObjectName o' := by
  rw [Sharing.davObjectName, Sharing.davObjectName, h.name, h.id]

theorem davCalendarObject {share : Share} (hview : share.canEdit = false)
    (h : Indistinct lib o o') :
    Sharing.davCalendarObject lib share o = Sharing.davCalendarObject lib share o' := by
  simp only [Sharing.davCalendarObject, hview, Bool.false_eq_true, if_false,
    h.redactPrivateCalendar, h.davObjectName, h.modified]

end Indistinct

/-! ### Events -/

/-- The two routines agree on which events are private: a class that says so has nothing in it that
would be read as another text. -/
theorem isPrivate_of_marked (h : markedPrivate c = true) : isPrivate lib c = true := by
  simp only [markedPrivate, Bool.and_eq_true] at h
  obtain ⟨-, hclass⟩ := h
  cases hget : c.get (lit "CLASS") with
  | none =>
    rw [hget] at hclass
    cases hclass
  | some p =>
    simp only [hget, Option.map_some, Option.getD_some] at hclass
    have hplain : ∀ b : UInt8, upperByte b = b → b < 0x80 → b ∉ lit "PRIVATE" →
        b ∉ lit "CONFIDENTIAL" → b ∉ p.value := by
      intro b hb hb' hprivate hconfidential hmem
      have hupper := mem_toUpper hb hb' hmem
      rcases Bool.or_eq_true_iff.1 hclass with heq | heq
      · exact hprivate (beq_iff_eq.1 heq ▸ hupper)
      · exact hconfidential (beq_iff_eq.1 heq ▸ hupper)
    have htext : textOf lib c (lit "CLASS") = p.value := by
      simp only [textOf, hget]
      cases ht : lib.text p with
      | none => rfl
      | some s =>
        exact lib.text_plain p s (hplain 92 (by decide) (by decide) (by decide) (by decide))
          (hplain 44 (by decide) (by decide) (by decide) (by decide)) ht
    simp only [isPrivate, htext]
    exact hclass

structure Veiled (e e' : Event) : Prop where
  uid : e.uid = e'.uid
  start : e.start = e'.start
  «end» : e.end = e'.end
  allDay : e.allDay = e'.allDay
  rrule : e.rrule = e'.rrule
  exDates : e.exDates = e'.exDates
  status : e.status = e'.status
  priv : e.private = true ∧ e'.private = true

def Alike (e e' : Event) : Prop :=
  e = e' ∨ Veiled e e'

theorem Alike.uid (h : Alike e e') : e.uid = e'.uid := by
  rcases h with rfl | h
  · rfl
  · exact h.uid

section Components

variable {c c' : Component} (hvalues : ∀ name ∈ davRedactedProps, c.values name = c'.values name)

include hvalues

theorem get_congr : ∀ name ∈ davRedactedProps, c.get name = c'.get name := by
  intro name hname
  rw [Component.get, Component.get, hvalues name hname]

theorem textOf_congr (lib : Library) : ∀ name ∈ davRedactedProps, textOf lib c name = textOf lib c' name := by
  intro name hname
  rw [textOf, textOf, get_congr hvalues name hname]

theorem endOf_congr (start : Moment) (allDay : Bool) (loc : Zone) :
    endOf lib c start allDay loc = endOf lib c' start allDay loc := by
  rw [endOf, endOf, get_congr hvalues (lit "DTEND") (by decide),
    get_congr hvalues (lit "DURATION") (by decide)]

/-- The kept properties decide whether there is an event, and when it is. -/
theorem eventFromComponent_veiled (lib : Library) (hc : isPrivate lib c = true)
    (hc' : isPrivate lib c' = true) (loc : Zone) :
    Option.Rel Veiled (eventFromComponent lib c loc) (eventFromComponent lib c' loc) := by
  have hstart := get_congr hvalues (lit "DTSTART") (by decide)
  have huid := textOf_congr hvalues lib (lit "UID") (by decide)
  have hrrule := get_congr hvalues (lit "RRULE") (by decide)
  have hexdate := hvalues (lit "EXDATE") (by decide)
  have hstatus := textOf_congr hvalues lib (lit "STATUS") (by decide)
  simp only [eventFromComponent, hstart, huid, endOf_congr hvalues]
  cases propTime lib (c'.get (lit "DTSTART")) loc with
  | none => exact .none
  | some t =>
    obtain ⟨start, allDay⟩ := t
    dsimp only
    cases endOf lib c' start allDay loc with
    | none => exact .none
    | some e =>
      dsimp only
      split
      · exact .none
      exact .some
        { uid := rfl
          start := rfl
          «end» := rfl
          allDay := rfl
          rrule := by rw [hrrule]
          exDates := by rw [hexdate]
          status := by rw [hstatus]
          priv := ⟨hc, hc'⟩ }

end Components

/-- The events of alike components, with the times of the occurrences that they change. -/
def AlikeRow (r r' : Event × Option Moment) : Prop :=
  Alike r.1 r'.1 ∧ r.2 = r'.2

def rowOf (lib : Library) (loc : Zone) (c : Component) : Option (Event × Option Moment) :=
  if c.name == lit "VEVENT" then
    (eventFromComponent lib c loc).map fun e =>
      (e, (propTime lib (c.get (lit "RECURRENCE-ID")) e.start.zone).map Prod.fst)
  else none

theorem collect_eq (loc : Zone) : collect lib loc cs = cs.filterMap (rowOf lib loc) := by
  rw [collect, List.filterMap_filter]
  rfl

theorem rowOf_alike (h : SameOpenly c c') (loc : Zone) :
    Option.Rel AlikeRow (rowOf lib loc c) (rowOf lib loc c') := by
  rcases h with rfl | ⟨hmarked, hmarked', hvalues⟩
  · cases rowOf lib loc c with
    | none => exact .none
    | some r => exact .some ⟨.inl rfl, rfl⟩
  have hevent := (Bool.and_eq_true_iff.1 hmarked).1
  have hevent' := (Bool.and_eq_true_iff.1 hmarked').1
  have hveiled := eventFromComponent_veiled hvalues lib (isPrivate_of_marked hmarked)
    (isPrivate_of_marked hmarked') loc
  rw [rowOf, rowOf, if_pos hevent, if_pos hevent']
  generalize eventFromComponent lib c loc = e, eventFromComponent lib c' loc = e' at hveiled
  cases hveiled with
  | none => exact .none
  | some hveiled =>
    refine .some ⟨.inr hveiled, ?_⟩
    dsimp only
    rw [get_congr hvalues (lit "RECURRENCE-ID") (by decide), hveiled.start]

theorem exclude_alike (uid : Bytes) (t : Moment) {l l' : List Event}
    (h : List.Forall₂ Alike l l') : List.Forall₂ Alike (exclude uid t l) (exclude uid t l') := by
  induction h with
  | nil => exact .nil
  | @cons e e' rest rest' he hrest ih =>
    have hlast : (rest.all fun x => x.uid ≠ uid) = rest'.all fun x => x.uid ≠ uid := by
      clear ih
      induction hrest with
      | nil => rfl
      | cons hx _ ih => rw [List.all_cons, List.all_cons, hx.uid, ih]
    have hsame : (e.uid = uid ∧ (rest.all fun x => x.uid ≠ uid) = true) ↔
        e'.uid = uid ∧ (rest'.all fun x => x.uid ≠ uid) = true := by
      rw [he.uid, hlast]
    rw [exclude, exclude]
    by_cases hthis : e'.uid = uid ∧ (rest'.all fun x => x.uid ≠ uid) = true
    · rw [if_pos hthis, if_pos (hsame.2 hthis)]
      refine .cons ?_ hrest
      rcases he with rfl | he
      · exact .inl rfl
      · exact .inr { he with exDates := by rw [he.exDates] }
    · rw [if_neg hthis, if_neg fun h => hthis (hsame.1 h)]
      exact .cons he ih

theorem override_alike (t : Moment) (h : Alike e e') :
    Alike (override lib e t) (override lib e' t) := by
  rcases h with rfl | h
  · exact .inl rfl
  exact .inr { h with
    uid := by rw [override, override, h.uid]
    rrule := rfl
    exDates := rfl }

theorem eventsOf_alike (h : List.Forall₂ SameOpenly cs cs') (loc : Zone) :
    List.Forall₂ Alike (eventsOf lib loc cs) (eventsOf lib loc cs') := by
  have hfound : List.Forall₂ AlikeRow (collect lib loc cs) (collect lib loc cs') := by
    rw [collect_eq, collect_eq]
    have hrow : ∀ ⦃c c'⦄, SameOpenly c c' →
        Option.Rel AlikeRow (rowOf lib loc c) (rowOf lib loc c') := fun _ _ hc => rowOf_alike hc loc
    exact List.rel_filterMap hrow h
  have hkept : ∀ ⦃row row'⦄, AlikeRow row row' → (row.2.isNone = true ↔ row'.2.isNone = true) :=
    fun _ _ hrow => by rw [hrow.2]
  have hevent : ∀ ⦃row row'⦄, AlikeRow row row' → Alike row.1 row'.1 := fun _ _ hrow => hrow.1
  have hseries := List.rel_map hevent (List.rel_filter hkept hfound)
  have hoverrides : List.Forall₂ (fun o o' : Event × Moment => Alike o.1 o'.1 ∧ o.2 = o'.2)
      ((collect lib loc cs).filterMap fun row => row.2.map fun t => (row.1, t))
      ((collect lib loc cs').filterMap fun row => row.2.map fun t => (row.1, t)) := by
    refine List.rel_filterMap (fun row row' hrow => ?_) hfound
    rw [hrow.2]
    cases row'.2 with
    | none => exact .none
    | some t => exact .some ⟨hrow.1, rfl⟩
  refine List.rel_append (List.rel_foldl ?_ hseries hoverrides) (List.rel_map ?_ hoverrides)
  · intro l l' hl o o' ho
    dsimp only
    rw [ho.1.uid, ho.2]
    exact exclude_alike _ _ hl
  · intro o o' ho
    dsimp only
    rw [ho.2]
    exact override_alike _ ho.1

theorem Indistinct.objectEvents {o o' : Object} (h : Indistinct lib o o') (loc : Zone) :
    List.Forall₂ Alike (objectEvents lib o loc) (objectEvents lib o' loc) := by
  rcases h.data with hdata | ⟨cal, cal', hcal, hcal', -, -, hchildren, -⟩
  · rw [Ical.objectEvents, hdata]
    exact List.forall₂_same.2 fun _ _ => .inl rfl
  · rw [objectEvents_eq hcal, objectEvents_eq hcal']
    exact eventsOf_alike hchildren loc

/-- With view access, pages show alike events the same. -/
theorem shown_alike {share : Share} (hview : share.canEdit = false) (h : Alike e e') :
    (sharedEvent share e.named).shown = (sharedEvent share e'.named).shown := by
  rcases h with rfl | h
  · rfl
  have hveil : ∀ x : Event, x.private = true →
      (sharedEvent share x.named).shown = (sharedEvent share (redactPrivate x)).shown := by
    intro x hx
    unfold Event.named
    split <;> simp [sharedEvent, SharedEvent.shown, redactPrivate, hview, hx]
  rw [hveil e h.priv.1, hveil e' h.priv.2]
  simp [sharedEvent, SharedEvent.shown, redactPrivate, hview, h.uid, h.start, h.end, h.allDay,
    h.rrule, h.exDates, h.status]

/-! ### Everything that can be obtained -/

section Calendars

variable {share : Share} (hview : share.canEdit = false) {objs objs' : List Object}
  (h : List.Forall₂ (Indistinct lib) objs objs')

include h

theorem findDAVObject_indistinct (name : Bytes) :
    Option.Rel (Indistinct lib) (findDAVObject objs name) (findDAVObject objs' name) := by
  induction h with
  | nil => exact .none
  | @cons o o' rest rest' ho _ ih =>
    unfold findDAVObject at ih ⊢
    rw [List.find?_cons, List.find?_cons, ho.davObjectName]
    cases davObjectName o' == name with
    | true => exact .some ho
    | false => exact ih

include hview

theorem listCalendarObjects_eq :
    listCalendarObjects lib share objs = listCalendarObjects lib share objs' := by
  induction h with
  | nil => rfl
  | cons ho _ ih =>
    unfold listCalendarObjects at ih ⊢
    rw [List.filterMap_cons, List.filterMap_cons, ho.davCalendarObject hview, ih]

theorem getCalendarObject_eq (name : Bytes) :
    getCalendarObject lib share objs name = getCalendarObject lib share objs' name := by
  have hfound := findDAVObject_indistinct h name
  unfold getCalendarObject
  generalize findDAVObject objs name = o, findDAVObject objs' name = o' at hfound
  cases hfound with
  | none => rfl
  | some ho => dsimp only; rw [ho.davCalendarObject hview]

theorem page_eq (loc : Zone) :
    (sharedEvents lib objs share loc).map SharedEvent.shown =
      (sharedEvents lib objs' share loc).map SharedEvent.shown := by
  have hevents : List.Forall₂ Alike (objs.flatMap fun o => objectEvents lib o loc)
      (objs'.flatMap fun o => objectEvents lib o loc) :=
    List.rel_flatMap h fun _ _ ho => ho.objectEvents loc
  have hshown := List.rel_map (fun _ _ he => shown_alike hview he) hevents
  simp only [sharedEvents, eventsFrom, ← List.map_flatMap, List.map_map]
  exact List.forall₂_eq_eq_eq ▸ hshown

end Calendars

theorem checkSharedWrite_view (owner : Bytes) (cur : Option Object) (cal : Option Component) :
    checkSharedWrite lib { owner, level := .view } cur cal = false :=
  rfl

/-- Calendars that differ in private events only are the same to a person with view access. -/
theorem private_events_unseen (lib : Library) (owner : Bytes) (objs objs' : List Object)
    (h : List.Forall₂ (Indistinct lib) objs objs') (request : Request) :
    respond lib { owner, level := .view } objs request =
      respond lib { owner, level := .view } objs' request := by
  have hview : ({ owner, level := .view } : Share).canEdit = false := rfl
  cases request with
  | list | query => rw [respond, respond, listCalendarObjects_eq hview h]
  | get name => exact getCalendarObject_eq hview h name
  | put name cal => simp only [respond, checkSharedWrite_view, Bool.false_and]
  | delete name => rw [respond, respond, checkSharedWrite_view, checkSharedWrite_view]
  | page loc => rw [respond, respond, page_eq hview h loc]
  | eventSubmit => rfl
  | inviteSubmit => rfl

namespace Plain

def appointment (place : Bytes) : Component :=
  .mk (lit "VCALENDAR") [] [.mk (lit "VEVENT")
    [⟨lit "UID", [], lit "visit"⟩, ⟨lit "DTSTART", [], lit "19700102T100000Z"⟩,
      ⟨lit "DTEND", [], lit "19700102T110000Z"⟩, ⟨lit "CLASS", [], lit "Private"⟩,
      ⟨lit "LOCATION", [], place⟩] []]

def stored (place : Bytes) : Object :=
  { id := lit "visit", name := [], data := Ical.Plain.render (appointment place), modified := 50 }

end Plain

open Plain in
/-- Where someone goes is not told to others, but that they are busy is. -/
theorem private_events_unseen_place :
    (sharedEvents Ical.Plain.library [stored (lit "clinic")]
        { owner := lit "ann@corp.org", level := .view } utc).map
      (fun e => (e.event.summary, e.event.location, e.event.start.instant)) =
        [(lit "Busy", [], 34 * hour)] ∧
    ∀ request, respond Ical.Plain.library { owner := lit "ann@corp.org", level := .view }
        [stored (lit "clinic")] request =
      respond Ical.Plain.library { owner := lit "ann@corp.org", level := .view }
        [stored (lit "court")] request := by
  refine ⟨by decide +kernel, fun request => private_events_unseen _ _ _ _ (.cons ?_ .nil) request⟩
  refine ⟨rfl, rfl, rfl, .inr ⟨appointment (lit "clinic"), appointment (lit "court"),
    by decide +kernel, by decide +kernel, rfl, rfl, .cons (.inr ?_) .nil, by decide +kernel⟩⟩
  exact ⟨by decide +kernel, by decide +kernel, by decide +kernel⟩

end Elemta.Webmail.Sharing
