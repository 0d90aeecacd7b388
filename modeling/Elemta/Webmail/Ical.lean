import Elemta.Foundation.Sha256

/-!
# Calendar objects

How calendar data is read: `eventFromComponent` makes an event of a component,
`decodeCalendar` collects the events of an object with the exceptions of their series,
and `expand` lists the occurrences of events in a period.

Reading and writing the iCalendar format, the names of time zones and the expansion of
recurrence rules are the work of libraries, which `Library` stands for; its laws say what
is used of them. The properties of a component are a map from names to lists, so only the
order of properties of one name has a meaning. A time is an instant in nanoseconds with
the zone it is shown in. Limits on how long an expansion may run are left out.
-/

namespace Elemta.Webmail.Ical

open Bytes

/-! ## Components -/

structure Property where
  name : Bytes
  params : List (Bytes × Bytes)
  value : Bytes
  deriving DecidableEq

/-- `Params.Get`, empty for a parameter that is not there. -/
def Property.param (p : Property) (name : Bytes) : Bytes :=
  (p.params.lookup name).getD []

inductive Component where
  | mk (name : Bytes) (props : List Property) (children : List Component)

namespace Component

mutual

def decEq : (c c' : Component) → Decidable (c = c')
  | mk n ps cs, mk n' ps' cs' =>
    if hn : n = n' then
      if hps : ps = ps' then
        match decEqList cs cs' with
        | .isTrue hcs => .isTrue (by rw [hn, hps, hcs])
        | .isFalse hcs => .isFalse fun h => hcs (mk.inj h).2.2
      else .isFalse fun h => hps (mk.inj h).2.1
    else .isFalse fun h => hn (mk.inj h).1

def decEqList : (cs cs' : List Component) → Decidable (cs = cs')
  | [], [] => .isTrue rfl
  | [], _ :: _ => .isFalse (List.cons_ne_nil _ _).symm
  | _ :: _, [] => .isFalse (List.cons_ne_nil _ _)
  | c :: cs, c' :: cs' =>
    match decEq c c', decEqList cs cs' with
    | .isTrue hc, .isTrue hcs => .isTrue (by rw [hc, hcs])
    | .isFalse hc, _ => .isFalse fun h => hc (List.cons.inj h).1
    | _, .isFalse hcs => .isFalse fun h => hcs (List.cons.inj h).2

end

instance : DecidableEq Component := decEq

def name : Component → Bytes
  | mk name _ _ => name

def props : Component → List Property
  | mk _ props _ => props

def children : Component → List Component
  | mk _ _ children => children

def values (c : Component) (name : Bytes) : List Property :=
  c.props.filter fun p => p.name == name

def get (c : Component) (name : Bytes) : Option Property :=
  (c.values name).head?

end Component

/-! ## Times -/

abbrev Zone := Bytes

def utc : Zone := lit "UTC"

structure Moment where
  instant : Int
  zone : Zone
  deriving DecidableEq

/-- `Sub`: the difference of two times, as far as a signed word of 64 bits goes. -/
def difference (a b : Int) : Int :=
  max (-2 ^ 63) (min (2 ^ 63 - 1) (a - b))

def hour : Int := 3600000000000

structure Library where
  decode : Bytes → Option Component
  encode : Component → Option Bytes
  /-- `Prop.Text`. -/
  text : Property → Option Bytes
  /-- `Prop.TextList`. -/
  textList : Property → Option (List Bytes)
  /-- `Prop.Duration`. -/
  duration : Property → Option Int
  /-- `Prop.ValueType` is `DATE`. -/
  isDate : Property → Bool
  loadLocation : Bytes → Option Zone
  /-- `ParseInLocation` with the layouts of a date, of a time and of a time in UTC. -/
  parseDate : Bytes → Zone → Option Int
  parseLocal : Bytes → Zone → Option Int
  parseUTC : Bytes → Option Int
  formatUTC : Int → Bytes
  addDays : Zone → Int → Int → Int
  /-- A duration rounded to days, in floating point. -/
  wholeDays : Int → Int
  /-- The instants of a rule that begins at a time, without the excluded ones; nothing for a rule
  that cannot be read. The library ends every rule with the year 9999. -/
  recurrence : Bytes → Moment → List Int → Option (List Int)
  decode_encode : ∀ c data, encode c = some data → decode data = some c
  /-- A value in which nothing is escaped or separated is its own text. -/
  text_plain : ∀ p s, 92 ∉ p.value → 44 ∉ p.value → text p = some s → s = p.value
  recurrence_sorted : ∀ rule start excluded l, recurrence rule start excluded = some l →
    l.Pairwise (· ≤ ·)

def windowsZones : List (Bytes × Bytes) :=
  [ (lit "Eastern Standard Time", lit "America/New_York"),
    (lit "Central Standard Time", lit "America/Chicago"),
    (lit "Mountain Standard Time", lit "America/Denver"),
    (lit "US Mountain Standard Time", lit "America/Phoenix"),
    (lit "Pacific Standard Time", lit "America/Los_Angeles"),
    (lit "Alaskan Standard Time", lit "America/Anchorage"),
    (lit "Hawaiian Standard Time", lit "Pacific/Honolulu"),
    (lit "Atlantic Standard Time", lit "America/Halifax"),
    (lit "GMT Standard Time", lit "Europe/London"),
    (lit "Greenwich Standard Time", lit "Atlantic/Reykjavik"),
    (lit "W. Europe Standard Time", lit "Europe/Berlin"),
    (lit "Romance Standard Time", lit "Europe/Paris"),
    (lit "Central Europe Standard Time", lit "Europe/Budapest"),
    (lit "Central European Standard Time", lit "Europe/Warsaw"),
    (lit "E. Europe Standard Time", lit "Europe/Chisinau"),
    (lit "FLE Standard Time", lit "Europe/Kiev"),
    (lit "GTB Standard Time", lit "Europe/Bucharest"),
    (lit "Russian Standard Time", lit "Europe/Moscow"),
    (lit "Israel Standard Time", lit "Asia/Jerusalem"),
    (lit "South Africa Standard Time", lit "Africa/Johannesburg"),
    (lit "Arabian Standard Time", lit "Asia/Dubai"),
    (lit "India Standard Time", lit "Asia/Kolkata"),
    (lit "China Standard Time", lit "Asia/Shanghai"),
    (lit "Singapore Standard Time", lit "Asia/Singapore"),
    (lit "Tokyo Standard Time", lit "Asia/Tokyo"),
    (lit "Korea Standard Time", lit "Asia/Seoul"),
    (lit "AUS Eastern Standard Time", lit "Australia/Sydney"),
    (lit "W. Australia Standard Time", lit "Australia/Perth"),
    (lit "New Zealand Standard Time", lit "Pacific/Auckland"),
    (lit "E. South America Standard Time", lit "America/Sao_Paulo"),
    (lit "UTC", lit "UTC"),
    (lit "Coordinated Universal Time", lit "UTC") ]

def trimByte (b : UInt8) (s : Bytes) : Bytes :=
  ((s.dropWhile (· == b)).reverse.dropWhile (· == b)).reverse

variable (lib : Library)

/-- The zone of a `TZID`; one that is not known leaves the zone of the reader. -/
def zoneOf (tzid : Bytes) (fallback : Zone) : Zone :=
  if tzid = [] then fallback
  else
    match lib.loadLocation tzid with
    | some zone => zone
    | none =>
      match windowsZones.lookup tzid with
      | some iana => (lib.loadLocation iana).getD fallback
      | none =>
        -- some exporters write a path before the name, so its tail is tried
        let parts := split (lit "/") tzid
        let tail := fun n =>
          if n ≤ parts.length then lib.loadLocation (join (lit "/") (parts.drop (parts.length - n)))
          else none
        ((tail 3).or (tail 2)).getD fallback

def propTime (p : Option Property) (fallback : Zone) : Option (Moment × Bool) :=
  match p with
  | none => none
  | some p =>
    let v := trimSpace p.value
    if lib.isDate p ∨ v.length = 8 then
      (lib.parseDate v fallback).map fun t => ({ instant := t, zone := fallback }, true)
    else if v.getLast? = some 90 then
      (lib.parseUTC v).map fun t => ({ instant := t, zone := utc }, false)
    else
      let zone := zoneOf lib (trimByte 34 (p.param (lit "TZID"))) fallback
      (lib.parseLocal v zone).map fun t => ({ instant := t, zone }, false)

/-! ## Events -/

structure Attendee where
  email : Bytes
  name : Bytes
  status : Bytes
  optional : Bool
  resource : Bool
  sentBy : Bytes
  deriving DecidableEq

structure Event where
  uid : Bytes
  summary : Bytes
  location : Bytes
  description : Bytes
  url : Bytes
  start : Moment
  «end» : Moment
  allDay : Bool
  rrule : Bytes
  exDates : List Moment
  calendar : Bytes
  organizer : Option Attendee
  attendees : List Attendee
  sequence : Int
  status : Bytes
  busy : Bool
  reminder : Int
  modified : Option Moment
  «private» : Bool
  deriving DecidableEq

/-- `Atoi` without its error: a number that does not fit is the nearest one that does. -/
def atoi (s : Bytes) : Int :=
  match parseInt64 s with
  | some n => n
  | none =>
    match s with
    | 45 :: digits => if isDecimal digits then -2 ^ 63 else 0
    | 43 :: digits => if isDecimal digits then 2 ^ 63 - 1 else 0
    | digits => if isDecimal digits then 2 ^ 63 - 1 else 0

def mailtoAddr (v : Bytes) : Bytes :=
  let v := trimSpace v
  if 7 < v.length ∧ equalFold (v.take 7) (lit "mailto:") then v.drop 7 else v

def textOf (c : Component) (name : Bytes) : Bytes :=
  match c.get name with
  | none => []
  | some p => (lib.text p).getD p.value

def organizerOf (p : Property) : Attendee :=
  { email := mailtoAddr p.value
    name := p.param (lit "CN")
    status := []
    optional := false
    resource := false
    sentBy := mailtoAddr (p.param (lit "SENT-BY")) }

def attendeeOf (p : Property) : Attendee :=
  let status := toUpper (p.param (lit "PARTSTAT"))
  let kind := p.param (lit "CUTYPE")
  { email := mailtoAddr p.value
    name := p.param (lit "CN")
    status := if status = [] then lit "NEEDS-ACTION" else status
    optional := equalFold (p.param (lit "ROLE")) (lit "OPT-PARTICIPANT")
    resource := equalFold kind (lit "ROOM") || equalFold kind (lit "RESOURCE")
    sentBy := mailtoAddr (p.param (lit "SENT-BY")) }

def reminderOf (c : Component) : Int :=
  ((c.children.filter fun child => child.name == lit "VALARM").findSome? fun child =>
    ((child.get (lit "TRIGGER")).bind lib.duration).bind fun d =>
      if d ≤ 0 then some (-d / (60 * 1000000000)) else none).getD (-1)

/-- `CATEGORIES` names the calendar, unless the webmail has written it. -/
def calendarOf (c : Component) : Bytes :=
  let own := textOf lib c (lit "X-ELEMTA-CALENDAR")
  if own ≠ [] then own
  else (((c.get (lit "CATEGORIES")).bind lib.textList).bind List.head?).getD []

def isPrivate (c : Component) : Bool :=
  let «class» := toUpper (textOf lib c (lit "CLASS"))
  «class» == lit "PRIVATE" || «class» == lit "CONFIDENTIAL"

def endOf (c : Component) (start : Moment) (allDay : Bool) (loc : Zone) : Option Moment :=
  let nextDay : Moment := { start with instant := lib.addDays start.zone start.instant 1 }
  let given : Option Moment :=
    if (c.get (lit "DTEND")).isSome then (propTime lib (c.get (lit "DTEND")) loc).map Prod.fst
    else if (c.get (lit "DURATION")).isSome then
      ((c.get (lit "DURATION")).bind lib.duration).map fun d =>
        { start with instant := start.instant + d }
    else if allDay then some nextDay
    else some start
  given.map fun e =>
    let e := if e.instant ≤ start.instant ∧ allDay then nextDay else e
    if e.instant < start.instant then start else e

/-- `loc` is the zone of times without one. -/
def eventFromComponent (c : Component) (loc : Zone) : Option Event :=
  let text := textOf lib c
  match propTime lib (c.get (lit "DTSTART")) loc with
  | none => none
  | some (start, allDay) =>
    match endOf lib c start allDay loc with
    | none => none
    | some e =>
      if text (lit "UID") = [] then none
      else
        let status := toUpper (text (lit "STATUS"))
        some
          { uid := text (lit "UID")
            summary := text (lit "SUMMARY")
            location := text (lit "LOCATION")
            description := text (lit "DESCRIPTION")
            url := text (lit "URL")
            start
            «end» := e
            allDay
            rrule := ((c.get (lit "RRULE")).map fun p => trimSpace p.value).getD []
            exDates := (c.values (lit "EXDATE")).flatMap fun p =>
              (split (lit ",") p.value).filterMap fun v =>
                (propTime lib (some { p with value := v }) start.zone).map Prod.fst
            calendar := calendarOf lib c
            organizer := (c.get (lit "ORGANIZER")).map organizerOf
            attendees := ((c.values (lit "ATTENDEE")).map attendeeOf).filter fun a => a.email ≠ []
            sequence := ((c.get (lit "SEQUENCE")).map fun p => atoi (trimSpace p.value)).getD 0
            status := if status = [] then lit "CONFIRMED" else status
            busy := !equalFold (text (lit "TRANSP")) (lit "TRANSPARENT")
            reminder := reminderOf lib c
            modified := (propTime lib (c.get (lit "LAST-MODIFIED")) utc).map Prod.fst
            «private» := isPrivate lib c }

/-! ## Objects -/

structure Parsed where
  method : Bytes
  events : List Event

/-- The events of an object; those that change one occurrence of a series come with its time. -/
def collect (loc : Zone) (children : List Component) : List (Event × Option Moment) :=
  (children.filter fun c => c.name == lit "VEVENT").filterMap fun c =>
    (eventFromComponent lib c loc).map fun e =>
      (e, (propTime lib (c.get (lit "RECURRENCE-ID")) e.start.zone).map Prod.fst)

/-- The last event of a name gets an exception. -/
def exclude (uid : Bytes) (t : Moment) : List Event → List Event
  | [] => []
  | e :: rest =>
    if e.uid = uid ∧ rest.all fun e' => e'.uid ≠ uid then
      { e with exDates := e.exDates ++ [t] } :: rest
    else e :: exclude uid t rest

def override (e : Event) (t : Moment) : Event :=
  { e with exDates := [], uid := e.uid ++ lit "-" ++ lib.formatUTC t.instant, rrule := [] }

/-- The series with an exception for each override, and the overrides behind them. -/
def eventsOf (loc : Zone) (children : List Component) : List Event :=
  let found := collect lib loc children
  let series := (found.filter fun row => row.2.isNone).map Prod.fst
  let overrides := found.filterMap fun row => row.2.map fun t => (row.1, t)
  overrides.foldl (fun events o => exclude o.1.uid o.2 events) series ++
    overrides.map fun o => override lib o.1 o.2

def decodeCalendar (data : Bytes) (loc : Zone) : Option Parsed :=
  match lib.decode data with
  | none => none
  | some cal =>
    let events := eventsOf lib loc cal.children
    if events = [] then none
    else
      some
        { method := ((cal.get (lit "METHOD")).map fun p => toUpper (trimSpace p.value)).getD []
          events }

structure Object where
  id : Bytes
  name : Bytes
  data : Bytes
  modified : Int
  deriving DecidableEq

def defaultCalendar : Bytes := lit "Calendar"

def Event.named (e : Event) : Event :=
  if e.calendar = [] then { e with calendar := defaultCalendar } else e

def objectEvents (o : Object) (loc : Zone) : List Event :=
  ((decodeCalendar lib o.data loc).map Parsed.events).getD []

theorem objectEvents_eq {lib : Library} {o : Object} {cal : Component}
    (h : lib.decode o.data = some cal) (loc : Zone) :
    objectEvents lib o loc = eventsOf lib loc cal.children := by
  unfold objectEvents decodeCalendar
  simp only [h]
  split
  · rename_i hnone
    rw [hnone]
    rfl
  · rfl

def eventsFrom (objs : List Object) (loc : Zone) : List Event :=
  objs.flatMap fun o => (objectEvents lib o loc).map Event.named

def objectID (id : Bytes) : Bytes :=
  if id ≠ [] ∧ id.length ≤ 200 ∧ id.all fun b => 0x21 ≤ b && b ≤ 0x7e then id
  else lit "h-" ++ Sha256.hex ((Sha256.sum256 id).take 16)

/-! ## Occurrences -/

structure Occurrence where
  event : Event
  start : Int
  «end» : Int
  deriving DecidableEq

def maxOccurrences : Nat := 500

def maxViewOccurrences : Nat := 2000

def maxRecurrenceSteps : Nat := 20000

namespace Event

variable (e : Event)

def duration : Int :=
  difference e.end.instant e.start.instant

def endAt (s : Int) : Int :=
  if e.allDay then lib.addDays e.start.zone s (lib.wholeDays e.duration) else s + e.duration

def touches (since until' s t : Int) : Bool :=
  decide (s < until') && (decide (since < t) || (e.duration == 0 && decide (since ≤ s)))

def single (since until' : Int) : List Occurrence :=
  if e.touches since until' e.start.instant e.end.instant then
    [{ event := e, start := e.start.instant, «end» := e.end.instant }]
  else []

/-- The loop over the instants of a rule, with the steps that are left and the occurrences that
have been found. -/
def walk (since until' : Int) : Nat → List Occurrence → List Int → List Occurrence × Nat
  | budget, out, instants =>
    match budget with
    | 0 => (out, 0)
    | budget + 1 =>
      if maxOccurrences ≤ out.length then (out, budget + 1)
      else
        match instants with
        | [] => (out, budget)
        | s :: rest =>
          if until' ≤ s then (out, budget)
          else if s < since - e.duration then walk since until' budget out rest
          else if e.touches since until' s (e.endAt lib s) then
            walk since until' budget
              (out ++ [{ event := e, start := s, «end» := e.endAt lib s }]) rest
          else walk since until' budget out rest

/-- An unreadable rule still shows the first occurrence. -/
def occurrencesBudget (since until' : Int) (budget : Nat) : List Occurrence × Nat :=
  if e.rrule = [] then (e.single since until', budget)
  else
    match lib.recurrence e.rrule e.start (e.exDates.map Moment.instant) with
    | none => ({ e with rrule := [] }.single since until', budget)
    | some instants => e.walk lib since until' budget [] instants

end Event

/-- The loop over the events, before the occurrences are put in order. -/
def expandFrom (since until' : Int) : Nat → List Occurrence → List Event → List Occurrence
  | _, out, [] => out
  | budget, out, e :: rest =>
    if budget = 0 ∨ maxViewOccurrences ≤ out.length then out
    else
      let found := e.occurrencesBudget lib since until' budget
      expandFrom since until' found.2 (out ++ found.1.take (maxViewOccurrences - out.length)) rest

def comesBefore (a b : Occurrence) : Bool :=
  if a.start ≠ b.start then decide (a.start ≤ b.start)
  else if a.event.allDay ≠ b.event.allDay then a.event.allDay
  else !decide (b.event.summary < a.event.summary)

def expand (events : List Event) (since until' : Int) : List Occurrence :=
  let until' := if 366 * 24 * hour < difference until' since then since + 366 * 24 * hour else until'
  (expandFrom lib since until' maxRecurrenceSteps [] events).mergeSort comesBefore

/-! ## A library for plain texts -/

namespace Plain

/-- Lines of a name and a value, with components one level deep. -/
structure Reader where
  props : List Property
  children : List Component
  inner : Option (Bytes × List Property)
  ended : Bool

def Reader.line (r : Reader) (l : Bytes) : Reader :=
  match cut (lit ":") l with
  | none => r
  | some (name, value) =>
    if name = lit "BEGIN" then
      if value = lit "VCALENDAR" then r else { r with inner := some (value, []) }
    else
      match r.inner with
      | none =>
        if name = lit "END" then { r with ended := true }
        else { r with props := r.props ++ [⟨name, [], value⟩] }
      | some (component, props) =>
        if name = lit "END" then
          { r with children := r.children ++ [.mk component props []], inner := none }
        else { r with inner := some (component, props ++ [⟨name, [], value⟩]) }

def decode (data : Bytes) : Option Component :=
  let r := (split (lit "\r\n") data).foldl Reader.line
    { props := [], children := [], inner := none, ended := false }
  if r.ended then some (.mk (lit "VCALENDAR") r.props r.children) else none

def line (name value : Bytes) : Bytes :=
  name ++ lit ":" ++ value ++ lit "\r\n"

def block (name content : Bytes) : Bytes :=
  line (lit "BEGIN") name ++ content ++ line (lit "END") name

def render (c : Component) : Bytes :=
  block c.name (c.props.flatMap (fun p => line p.name p.value) ++ c.children.flatMap fun child =>
    block child.name (child.props.flatMap fun p => line p.name p.value))

def encode (c : Component) : Option Bytes :=
  if decode (render c) = some c then some (render c) else none

/-- Times of January 1970, such as `19700102T100000Z`. -/
def instant (v : Bytes) : Option Int := do
  let day ← parseInt64 ((v.drop 6).take 2)
  let clock ← parseInt64 ((v.drop 9).take 6)
  let seconds := (day - 1) * 86400 + clock / 10000 * 3600 + clock / 100 % 100 * 60 + clock % 100
  if v.take 6 = lit "197001" then return seconds * 1000000000 else none

def digits (n : Int) : Bytes :=
  itoaInt (n / 10) ++ itoaInt (n % 10)

def format (t : Int) : Bytes :=
  let s := t / 1000000000
  lit "197001" ++ digits (s / 86400 + 1) ++ lit "T" ++ digits (s / 3600 % 24) ++
    digits (s / 60 % 60) ++ digits (s % 60) ++ lit "Z"

/-- A number of days, such as `FREQ=DAILY;COUNT=3`. -/
def daily (rule : Bytes) (start : Moment) (excluded : List Int) : Option (List Int) :=
  match cut (lit "FREQ=DAILY;COUNT=") rule with
  | some ([], count) => (parseInt64 count).map fun n =>
      ((List.range n.toNat).map fun i : Nat => start.instant + i * (24 * hour)).filter (· ∉ excluded)
  | _ => none

/-- Calendars of January 1970 in UTC, with texts in which nothing is escaped. -/
def library : Library where
  decode := decode
  encode := encode
  text := fun p => some p.value
  textList := fun p => some [p.value]
  duration := fun _ => none
  isDate := fun _ => false
  loadLocation := fun _ => none
  parseDate := fun v _ => instant (v ++ lit "T000000")
  parseLocal := fun v _ => instant v
  parseUTC := instant
  formatUTC := format
  addDays := fun _ t n => t + n * (24 * hour)
  wholeDays := fun d => (d + 12 * hour) / (24 * hour)
  recurrence := daily
  decode_encode := by
    intro c data h
    unfold encode at h
    split at h
    · rename_i hback
      rw [← Option.some.inj h, hback]
    · cases h
  text_plain := by
    intro p s _ _ h
    exact (Option.some.inj h).symm
  recurrence_sorted := by
    intro rule start excluded l h
    unfold daily at h
    split at h
    · obtain ⟨n, -, rfl⟩ := Option.map_eq_some_iff.1 h
      refine List.Pairwise.filter _ (List.pairwise_map.2 (List.pairwise_lt_range.imp ?_))
      intro i j hij
      unfold hour
      omega
    · cases h

end Plain

end Elemta.Webmail.Ical
