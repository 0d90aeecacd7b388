import Mathlib.Init

/-!
# Searching by the Date field

SENTSINCE, SENTBEFORE and SENTON ask for the calendar date that is written in the Date
field. `matchMessage` takes the time of the field from the summary, if there is one, and
from the header if not; `summarize` stores that time in UTC.

A time is an instant, in seconds from the start of the year 1, which is the zero time, with
the offset of the zone it is shown in. The other search keys are left out. How the IMAP
library writes a key as criteria is a parameter.
-/

namespace Elemta.Mailbox.DateSearch

/-! ## Times -/

structure Time where
  instant : Int
  offset : Int
  deriving DecidableEq

namespace Time

def zero : Time := ⟨0, 0⟩

def isZero (t : Time) : Bool := t.instant == 0

def utc (t : Time) : Time := { t with offset := 0 }

def before (t u : Time) : Bool := decide (t.instant < u.instant)

/-- `t.Year(), t.Month(), t.Day()`, as a number of days. -/
def date (t : Time) : Int := (t.instant + t.offset) / 86400

/-- `time.Date` of midnight in UTC. -/
def ofDate (day : Int) : Time := ⟨86400 * day, 0⟩

end Time

/-! ## Matching -/

def dateMatches (t since before : Time) : Bool :=
  let d := Time.ofDate t.date
  (since.isZero || !d.before since) && (before.isZero || d.before before)

structure Summary where
  sent : Time

def summarize (date : Option Time) : Summary :=
  match date with
  | some d => { sent := d.utc }
  | none => { sent := .zero }

/-- `summary` is `none` where it is neither stored nor can be made; `date` is the header's. -/
structure SearchSource where
  summary : Option Summary
  date : Option Time

structure SearchCriteria where
  sentSince : Time
  sentBefore : Time

/-- `matchMessage` on the criteria for the Date field. -/
def matchSent (src : SearchSource) (c : SearchCriteria) : Bool :=
  if !c.sentSince.isZero || !c.sentBefore.isZero then
    let sent := match src.summary with
      | some sum => sum.sent
      | none => src.date.getD .zero
    !(sent.isZero || !dateMatches sent c.sentSince c.sentBefore)
  else true

inductive Key where
  | sentSince (day : Int)
  | sentBefore (day : Int)
  | sentOn (day : Int)

def Key.Accepts (written : Int) : Key → Prop
  | .sentSince day => day ≤ written
  | .sentBefore day => written < day
  | .sentOn day => written = day

/-- No bound of the key is the zero time, which stands for a bound that is not given. -/
def Key.Bounded : Key → Prop
  | .sentSince day => day ≠ 0
  | .sentBefore day => day ≠ 0
  | .sentOn day => day ≠ 0 ∧ day + 1 ≠ 0

/-- The date is within the criteria; the zero time stands for no bound. -/
def SearchCriteria.Admits (c : SearchCriteria) (day : Int) : Prop :=
  (c.sentSince.isZero = true ∨ c.sentSince.instant ≤ 86400 * day) ∧
    (c.sentBefore.isZero = true ∨ 86400 * day < c.sentBefore.instant)

/-- The criteria of a key admit the dates that the key asks for. -/
def Faithful (criteria : Key → SearchCriteria) : Prop :=
  ∀ key : Key, key.Bounded → ∀ day, (criteria key).Admits day ↔ key.Accepts day

/-- A message with the Date field `date`, with its summary and before it has one. -/
inductive Holds (date : Time) : SearchSource → Prop
  | summarized : Holds date ⟨some (summarize (some date)), some date⟩
  | unsummarized : Holds date ⟨none, some date⟩

/-! ## Dates as they are written -/

variable {sent date : Time} {key : Key} {src : SearchSource} {criteria : Key → SearchCriteria}

/-- The answer goes by the date that the time shows. -/
theorem dateMatches_iff (c : SearchCriteria) :
    dateMatches sent c.sentSince c.sentBefore = true ↔ c.Admits sent.date := by
  have hbefore (t u : Time) : t.before u = true ↔ t.instant < u.instant := decide_eq_true_iff
  simp only [dateMatches, SearchCriteria.Admits, Bool.and_eq_true, Bool.or_eq_true, Bool.not_eq_true',
    ← Bool.not_eq_true, hbefore, Int.not_lt, Time.ofDate]

/-- A key asks for some dates and not for others, so its criteria have a bound. -/
theorem Faithful.given (h : Faithful criteria) (hkey : key.Bounded) :
    (!(criteria key).sentSince.isZero || !(criteria key).sentBefore.isZero) = true := by
  refine Decidable.byContradiction fun hnone => ?_
  have hall : ∀ day, key.Accepts day := by
    intro day
    refine (h key hkey day).1 ⟨.inl ?_, .inl ?_⟩
    all_goals simp_all
  cases key with
  | sentSince day =>
    have hless : day ≤ day - 1 := hall (day - 1)
    omega
  | sentBefore day =>
    have hless : day < day := hall day
    omega
  | sentOn day =>
    have hsame : day + 1 = day := hall (day + 1)
    omega

theorem matchSent_summarized (h : Faithful criteria) (hdate : date.isZero = false)
    (hkey : key.Bounded) (header : Option Time) :
    matchSent ⟨some (summarize (some date)), header⟩ (criteria key) = true ↔
      key.Accepts date.utc.date := by
  have hsent : date.utc.isZero = false := hdate
  unfold matchSent
  rw [if_pos (h.given hkey)]
  simp only [summarize, hsent, Bool.false_or, Bool.not_not]
  rw [dateMatches_iff, h key hkey]

theorem matchSent_unsummarized (h : Faithful criteria) (hdate : date.isZero = false)
    (hkey : key.Bounded) :
    matchSent ⟨none, some date⟩ (criteria key) = true ↔ key.Accepts date.date := by
  unfold matchSent
  rw [if_pos (h.given hkey)]
  simp only [Option.getD_some, hdate, Bool.false_or, Bool.not_not]
  rw [dateMatches_iff, h key hkey]

/-- With and without a summary every key goes by the date that is written in the field, exactly if
it is still that day in UTC. -/
theorem sent_keys_as_written (h : Faithful criteria) (hdate : date.isZero = false)
    (hlate : 0 < date.date) :
    (∀ key : Key, key.Bounded → ∀ src, Holds date src →
      (matchSent src (criteria key) = true ↔ key.Accepts date.date)) ↔
    date.utc.date = date.date := by
  constructor
  · intro hright
    have hsummary (key : Key) (hkey : key.Bounded) :
        key.Accepts date.utc.date ↔ key.Accepts date.date := by
      rw [← matchSent_summarized h hdate hkey (some date)]
      exact hright key hkey _ .summarized
    -- SENTSINCE of the date keeps the summary from an earlier day, SENTBEFORE of the next one
    -- from a later day
    have hsince : date.date ≤ date.utc.date :=
      (hsummary (.sentSince date.date) (Int.ne_of_gt hlate)).2 (Int.le_refl _)
    have hnext : date.date + 1 ≠ 0 := by omega
    have hbefore : date.utc.date < date.date + 1 :=
      (hsummary (.sentBefore (date.date + 1)) hnext).2 (Int.lt_succ _)
    omega
  · intro hday key hkey src hsrc
    cases hsrc with
    | summarized => rw [matchSent_summarized h hdate hkey, hday]
    | unsummarized => exact matchSent_unsummarized h hdate hkey

/-- Criteria with their bounds at midnight; SENTON is the 24 hours from its date. -/
def midnights : Key → SearchCriteria
  | .sentSince day => ⟨.ofDate day, .zero⟩
  | .sentBefore day => ⟨.zero, .ofDate day⟩
  | .sentOn day => ⟨.ofDate day, .ofDate (day + 1)⟩

theorem faithful_midnights : Faithful midnights := by
  intro key hkey day
  cases key with
  | sentSince | sentBefore | sentOn =>
    simp only [Key.Bounded] at hkey
    simp only [midnights, SearchCriteria.Admits, Key.Accepts, Time.isZero, Time.ofDate, Time.zero,
      beq_iff_eq, true_or, true_and, and_true]
    omega

def january (hour : Int) : Time :=
  ⟨86400 * 738899 + 3600 * (hour - 2), 7200⟩

theorem sent_keys_as_written_noon :
    matchSent ⟨some (summarize (some (january 12))), some (january 12)⟩
        (midnights (.sentOn 738899)) = true ∧
      matchSent ⟨none, some (january 12)⟩ (midnights (.sentBefore 738899)) = false := by
  have hdate : (january 12).isZero = false := rfl
  have hright := (sent_keys_as_written faithful_midnights hdate (by decide)).2 rfl
  refine ⟨(hright (.sentOn 738899) ⟨by decide, by decide⟩ _ .summarized).2 rfl, ?_⟩
  have hbefore := hright (.sentBefore 738899) (by simp [Key.Bounded]) _ .unsummarized
  exact Bool.eq_false_iff.2 fun hfound => absurd (hbefore.1 hfound) (Int.lt_irrefl 738899)

/-- An hour past midnight the summary has the day before; whatever the criteria, SENTON finds the
message only until it is summarized. -/
theorem night_found_day_before :
    (Key.sentOn 738899).Accepts (january 1).date ∧ ∀ criteria, Faithful criteria →
      matchSent ⟨none, some (january 1)⟩ (criteria (.sentOn 738899)) = true ∧
      matchSent ⟨some (summarize (some (january 1))), some (january 1)⟩
        (criteria (.sentOn 738899)) = false ∧
      matchSent ⟨some (summarize (some (january 1))), some (january 1)⟩
        (criteria (.sentOn 738898)) = true := by
  refine ⟨rfl, fun criteria h => ?_⟩
  have hkeys : (Key.sentOn 738899).Bounded ∧ (Key.sentOn 738898).Bounded := by
    simp [Key.Bounded]
  have hdate : (january 1).isZero = false := rfl
  have hsummary {key : Key} (hkey : key.Bounded) :=
    matchSent_summarized h hdate hkey (some (january 1))
  refine ⟨(matchSent_unsummarized h rfl hkeys.1).2 rfl, ?_, (hsummary hkeys.2).2 rfl⟩
  have hother : ¬ (Key.sentOn 738899).Accepts (january 1).utc.date := by
    simp [Key.Accepts, january, Time.utc, Time.date]
  exact Bool.eq_false_iff.2 fun hfound => hother ((hsummary hkeys.1).1 hfound)

end Elemta.Mailbox.DateSearch
