import Elemta.Foundation.Bytes

/-!
# Dates in mail headers

The civil date of an instant in the proleptic Gregorian calendar, and the
RFC 1123 form with a numeric zone. Instants are nanoseconds since midnight UTC
on 1 January of year 1, which was a Monday.
-/

namespace Calendar

open Bytes

def unixEpoch : Nat := 62135596800 * 1000000000

structure CivilDate where
  year : Nat
  month : Nat
  day : Nat
  deriving DecidableEq

/-- Days are counted from 1 March of year 0, so that leap days end a counted year. -/
def civilDate (days : Nat) : CivilDate :=
  let z := days + 306
  let dayOfEra := z % 146097
  let yearOfEra := (dayOfEra - dayOfEra / 1460 + dayOfEra / 36524 - dayOfEra / 146096) / 365
  let dayOfYear := dayOfEra - (365 * yearOfEra + yearOfEra / 4 - yearOfEra / 100)
  let shifted := (5 * dayOfYear + 2) / 153
  let month := if shifted < 10 then shifted + 3 else shifted - 9
  { year := yearOfEra + z / 146097 * 400 + if month ≤ 2 then 1 else 0
    month := month
    day := dayOfYear - (153 * shifted + 2) / 5 + 1 }

example : civilDate (719162 + 20042) = { year := 2024, month := 11, day := 15 } := by decide

def weekdayNames : List String :=
  ["Mon", "Tue", "Wed", "Thu", "Fri", "Sat", "Sun"]

def monthNames : List String :=
  ["Jan", "Feb", "Mar", "Apr", "May", "Jun", "Jul", "Aug", "Sep", "Oct", "Nov", "Dec"]

def padded (width n : Nat) : Bytes :=
  List.replicate (width - (itoa n).length) 48 ++ itoa n

/-- `-0700`. -/
def zoneText (zone : Int) : Bytes :=
  let minutes := zone.natAbs / 60
  (if zone < 0 then lit "-" else lit "+") ++ padded 2 (minutes / 60) ++ padded 2 (minutes % 60)

/-- `Mon, 02 Jan 2006 15:04:05 -0700`, in a zone that is `zone` seconds east of UTC. -/
def rfc1123z (zone : Int) (instant : Nat) : Bytes :=
  let seconds := (Int.ofNat (instant / 1000000000) + zone).toNat
  let days := seconds / 86400
  let date := civilDate days
  let time := seconds % 86400
  lit (weekdayNames.getD (days % 7) "") ++ lit ", " ++ padded 2 date.day ++ lit " " ++
    lit (monthNames.getD (date.month - 1) "") ++ lit " " ++ padded 4 date.year ++ lit " " ++
    padded 2 (time / 3600) ++ lit ":" ++ padded 2 (time / 60 % 60) ++ lit ":" ++
    padded 2 (time % 60) ++ lit " " ++ zoneText zone

end Calendar
