import Elemta.Foundation.Interleaving
import Elemta.Mailbox.ListExpansion
import Mathlib.Logic.Relation

/-!
# Aliases of domains

An address at an alias is looked up at the domain that the alias stands for, and no further.
So that domain must not be an alias itself, and `SetRoute` looks at its route and counts the
aliases of the domain that is to become one before it writes. These are three statements,
each for itself: two changes can both look before either has written.

`Route` puts its argument into lower case, where it is at every call. Routes from a directory
are left out.
-/

namespace Elemta.Mailbox.Routing

open Bytes

/-! ## Changes -/

structure DomainRoute where
  domain : Bytes
  aliasOf : Bytes
  catchAll : Bytes
  deriving DecidableEq

inductive RouteError where
  | notDomain (raw : Bytes)
  | notAddress (raw : Bytes)
  | ownAlias
  | targetIsAlias (target ofTarget : Bytes)
  | hasAliases (domain : Bytes)
  deriving DecidableEq

def normalDomain (raw : Bytes) : Except RouteError Bytes :=
  let d := toLower (trimSpace raw)
  if d = [] ∨ 253 < d.length ∨ d.any (· ∈ lit "@/ \t") ∨ 46 ∉ d then .error (.notDomain raw)
  else .ok d

def normalAddress (raw : Bytes) : Except RouteError Bytes :=
  let a := toLower (trimSpace raw)
  match cut [64] a with
  | none => .error (.notAddress raw)
  | some (localPart, domain) =>
    if localPart = [] ∨ domain = [] ∨ 64 ∈ domain ∨ 254 < a.length ∨
        a.any (· ∈ lit " \t\r\n<>(),;:\"[]\\") then .error (.notAddress raw)
    else .ok a

/-- The rows of the table; an empty field is NULL. -/
abbrev Routes := List DomainRoute

def Routes.route (rows : Routes) (domain : Bytes) : Route :=
  match rows.find? (·.domain == domain) with
  | some r => ⟨r.aliasOf, r.catchAll⟩
  | none => ⟨[], []⟩

def Routes.put (rows : Routes) (r : DomainRoute) : Routes :=
  let others := rows.filter (·.domain != r.domain)
  if r.aliasOf = [] ∧ r.catchAll = [] then others else others ++ [r]

/-- `SetRoute` in front of its first statement. -/
def DomainRoute.normal (r : DomainRoute) : Except RouteError DomainRoute := do
  let domain ← normalDomain r.domain
  if r.aliasOf = [] then return { r with domain := domain }
  let aliasOf ← normalDomain r.aliasOf
  if aliasOf = domain then throw .ownAlias
  return { r with domain := domain, aliasOf := aliasOf }

inductive ChangePlace where
  | start
  | targetRead (r : DomainRoute)
  | counted (r : DomainRoute)
  | ended (error : Option RouteError)
  deriving DecidableEq

/-- The last statement, if the catch-all is an address. -/
def Routes.finish (rows : Routes) (r : DomainRoute) : Routes × ChangePlace :=
  match if r.catchAll = [] then .ok [] else normalAddress r.catchAll with
  | .ok catchAll => (rows.put { r with catchAll := catchAll }, .ended none)
  | .error e => (rows, .ended (some e))

def setRouteCall (rows : Routes) (request : DomainRoute) :
    ChangePlace → Option (Routes × ChangePlace)
  | .start =>
    match request.normal with
    | .error e => some (rows, .ended (some e))
    | .ok r =>
      if r.aliasOf = [] then some (rows.finish r)
      else
        let target := (rows.route r.aliasOf).aliasOf
        if target = [] then some (rows, .targetRead r)
        else some (rows, .ended (some (.targetIsAlias r.aliasOf target)))
  | .targetRead r =>
    if rows.any (·.aliasOf == r.domain) then some (rows, .ended (some (.hasAliases r.domain)))
    else some (rows, .counted r)
  | .counted r => some (rows.finish r)
  | .ended _ => none

def changes : Interleaving.System Routes DomainRoute ChangePlace where
  call := setRouteCall
  running
    | .targetRead _ | .counted _ => true
    | _ => false
  succeeded place := place == .ended none
  not_running h := by rw [eq_of_beq h]
  exclusive _ := false

def Routes.Alias (rows : Routes) (domain target : Bytes) : Prop :=
  (rows.route domain).aliasOf = target ∧ target ≠ []

def Routes.OneStep (rows : Routes) : Prop :=
  ∀ domain target further, rows.Alias domain target → ¬ rows.Alias target further

def Midway (rows : Routes) : ChangePlace → Prop
  | .targetRead r => r.domain ≠ [] ∧ r.aliasOf ≠ r.domain ∧ ∀ d, ¬ rows.Alias r.aliasOf d
  | .counted r => r.aliasOf ≠ r.domain ∧ (∀ d, ¬ rows.Alias r.aliasOf d) ∧ ∀ d, ¬ rows.Alias d r.domain
  | _ => True

variable {rows rows' : Routes} {r request : DomainRoute} {place next : ChangePlace}

theorem aliasOf_put (d : Bytes) :
    ((rows.put r).route d).aliasOf = if d = r.domain then r.aliasOf else (rows.route d).aliasOf := by
  unfold Routes.route Routes.put
  by_cases hd : d = r.domain
  · have hgone : (rows.filter (·.domain != r.domain)).find? (·.domain == d) = none := by
      simp [hd]
    by_cases hempty : r.aliasOf = [] ∧ r.catchAll = []
    · rw [if_pos hempty, hgone, if_pos hd, hempty.1]
    · rw [if_neg hempty, List.find?_append, hgone]
      simp [hd]
  · have hothers : (rows.filter (·.domain != r.domain)).find? (·.domain == d) =
        rows.find? (·.domain == d) := by
      rw [List.find?_filter]
      refine congrArg (List.find? · rows) (funext fun row => ?_)
      by_cases hrow : row.domain = d
      · simp [hrow, hd]
      · simp [hrow]
    by_cases hempty : r.aliasOf = [] ∧ r.catchAll = []
    · rw [if_pos hempty, hothers, if_neg hd]
    · rw [if_neg hempty, List.find?_append, hothers, if_neg hd]
      simp [Ne.symm hd]

/-- A write keeps to one step if it makes no alias, or has looked at both sides. -/
theorem OneStep.put (hrows : rows.OneStep) (hr : r.aliasOf ≠ [] → Midway rows (.counted r)) :
    (rows.put r).OneStep := by
  rintro domain target further ⟨hfirst, htarget⟩ ⟨hsecond, hfurther⟩
  rw [aliasOf_put] at hfirst hsecond
  split at hfirst
  · rw [← hfirst] at htarget hsecond
    obtain ⟨hother, hlast, -⟩ := hr htarget
    rw [if_neg hother] at hsecond
    exact hlast further ⟨hsecond, hfurther⟩
  split at hsecond
  · rename_i hdomain
    rw [← hsecond] at hfurther
    exact (hr hfurther).2.2 domain ⟨hfirst.trans hdomain, hdomain ▸ htarget⟩
  · exact hrows _ _ _ ⟨hfirst, htarget⟩ ⟨hsecond, hfurther⟩

theorem OneStep.finish (hrows : rows.OneStep) (hr : r.aliasOf ≠ [] → Midway rows (.counted r))
    (h : rows.finish r = (rows', next)) : rows'.OneStep ∧ Midway rows' next := by
  unfold Routes.finish at h
  split at h
  · cases h
    exact ⟨OneStep.put hrows hr, trivial⟩
  · cases h
    exact ⟨hrows, trivial⟩

section

variable {ε : Type} (d : Directory ε)

structure Directory.Free (address : Bytes) : Prop where
  enabled : d.inDisabledDomain address = .ok false
  unclaimed : d.resolvePlus address = .ok none
  noAccount : d.accountExists address = .ok false
  noUntagged : d.accountExists (withoutTag address) = .ok false

/-- Aliases, one after the other, lead from the address to one that is claimed. -/
def Directory.Reaches (rows : Routes) (address : Bytes) (recipient : Recipient) : Prop :=
  ∃ localPart domain target, cut [64] address = some (localPart, domain) ∧
    Relation.TransGen rows.Alias domain target ∧
    d.resolvePlus (localPart ++ [64] ++ target) = .ok (some recipient)

variable {d}

theorem OneStep.resolveRecipient (hrows : rows.OneStep)
    (hroute : ∀ domain, d.route domain = .ok (rows.route domain))
    {address : Bytes} {recipient : Recipient} (hfree : d.Free (toLower (trimSpace address)))
    (hreach : d.Reaches rows (toLower (trimSpace address)) recipient) :
    d.resolveRecipient address = .ok (some recipient) := by
  obtain ⟨localPart, domain, target, hcut, haliases, hclaim⟩ := hreach
  obtain ⟨next, hfirst, hrest⟩ := Relation.TransGen.head'_iff.1 haliases
  obtain rfl : next = target := by
    rcases hrest.cases_head with rfl | ⟨further, hsecond, -⟩
    · rfl
    · exact absurd hsecond (hrows domain next further hfirst)
  obtain ⟨hnext, hne⟩ := hfirst
  simp_all [Directory.resolveRecipient, hfree.enabled, hfree.unclaimed, hfree.noAccount,
    hfree.noUntagged, bind, Except.bind, pure, Except.pure]

end

open Interleaving

end Elemta.Mailbox.Routing
