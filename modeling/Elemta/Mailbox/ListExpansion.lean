import Elemta.Foundation.Bytes

/-!
# Expanding a list

A list reaches accounts and outside addresses, through lists among its members (`expandList` in
`routing.go`). The walk marks every name when it meets it, and it does not go into a list that it
meets too deep. A list that is met too deep first is marked all the same, so a shorter way to it
is not taken any more, and whom it reaches depends on the order of the members.

Nobody is there twice, and nobody who is out of reach. Everybody within reach is there, in whatever
order the members stand, exactly where no list within the bound also ends a chain of different names
that is too long.
-/

namespace Elemta.Mailbox.Routing

open Bytes

/-! ## What an address means -/

/-- An account is given by its own address. -/
inductive Recipient where
  | account (address : Bytes)
  | list (address : Bytes)
  deriving DecidableEq

structure Route where
  aliasOf : Bytes
  catchAll : Bytes

/-- What is known about accounts, lists and domains. That nothing claims an address is an answer,
not an error. -/
structure Directory (ε : Type) where
  domainDisabled : Bytes → Except ε Bool
  resolve : Bytes → Except ε (Option Bytes)
  accountExists : Bytes → Except ε Bool
  directoryList : Bytes → Except ε (Option Bytes)
  isList : Bytes → Except ε Bool
  route : Bytes → Except ε Route
  members : Bytes → Except ε (List Bytes)

def withoutTag (address : Bytes) : Bytes :=
  match cut [64] address with
  | none => address
  | some (localPart, domain) =>
    match cut [43] localPart with
    | none => address
    | some (base, _) => if base = [] then address else base ++ [64] ++ domain

namespace Directory

variable {ε : Type} (d : Directory ε)

def resolveDirect (address : Bytes) : Except ε (Option Recipient) := do
  match ← d.resolve address with
  | some a => return some (.account a)
  | none =>
    match ← d.directoryList address with
    | some l => return some (.list l)
    | none => return if ← d.isList address then some (.list address) else none

def resolvePlus (address : Bytes) : Except ε (Option Recipient) := do
  match ← d.resolveDirect address with
  | some r => return some r
  | none =>
    if withoutTag address = address then return none else d.resolveDirect (withoutTag address)

def resolveCatchAll (route : Route) : Except ε (Option Recipient) :=
  if route.catchAll = [] then .ok none else d.resolveDirect route.catchAll

def inDisabledDomain (address : Bytes) : Except ε Bool :=
  if 64 ∈ address then d.domainDisabled (address.reverse.takeWhile (· != 64)).reverse
  else .ok false

def resolveRecipient (address : Bytes) : Except ε (Option Recipient) := do
  let address := toLower (trimSpace address)
  if ← d.inDisabledDomain address then return none
  if let some r ← d.resolvePlus address then return some r
  -- a disabled account still owns its address
  if ← d.accountExists address then return none
  if ← d.accountExists (withoutTag address) then return none
  match cut [64] address with
  | none => return none
  | some (localPart, domain) =>
    let route ← d.route domain
    if route.aliasOf = [] then d.resolveCatchAll route
    else
      if let some r ← d.resolvePlus (localPart ++ [64] ++ route.aliasOf) then return some r
      d.resolveCatchAll (← d.route route.aliasOf)

end Directory

/-! ## The walk -/

structure Target where
  address : Bytes
  account : Option Bytes
  deriving DecidableEq

structure Walk where
  seen : List Bytes
  out : List Target
  deriving DecidableEq

def maxListDepth : Nat := 5

section

variable {ε : Type} (d : Directory ε)

/-- One member. `nested` walks the members of a list, unless the list is too deep. -/
def Walk.visit (nested : Option (List Bytes → Walk → Except ε Walk)) (w : Walk)
    (m : Bytes) : Except ε Walk :=
  if m ∈ w.seen then .ok w
  else do
    let w := { w with seen := m :: w.seen }
    match ← d.resolveRecipient m with
    | none => return { w with out := w.out ++ [⟨m, none⟩] }
    | some (.list l) =>
      match nested with
      | none => return w
      | some walk => walk (← d.members l) w
    | some (.account a) =>
      if a ∈ w.seen ∧ a ≠ m then return w
      else return { seen := a :: w.seen, out := w.out ++ [⟨m, some a⟩] }

/-- The members of a list below which `left` more levels are walked. -/
def walk : Nat → List Bytes → Walk → Except ε Walk
  | 0, members, w => members.foldlM (Walk.visit d none) w
  | left + 1, members, w => members.foldlM (Walk.visit d (some (walk left))) w

end

/-! ## Systems of lists -/

inductive Addressee where
  | account (address : Bytes)
  | external (address : Bytes)
  deriving DecidableEq

def Addressee.address : Addressee → Bytes
  | account a => a
  | external a => a

def Target.addressee (t : Target) : Addressee :=
  match t.account with
  | some a => .account a
  | none => .external t.address

structure System where
  meaning : Bytes → Option Recipient
  members : Bytes → List Bytes

namespace System

variable (sys : System)

def addressee (m : Bytes) : Option Addressee :=
  match sys.meaning m with
  | none => some (.external m)
  | some (.account a) => some (.account a)
  | some (.list _) => none

/-- The names that members lead to, with the number of lists on the way, none of them avoided. -/
inductive Reaches (avoided : List Bytes) : Nat → List Bytes → Bytes → Prop where
  | member {members : List Bytes} {m : Bytes} (mem : m ∈ members) :
    Reaches avoided 1 members m
  | nested {k : Nat} {members : List Bytes} {n l m : Bytes} (mem : n ∈ members)
    (new : n ∉ avoided) (list : sys.meaning n = some (.list l))
    (rest : Reaches avoided k (sys.members l) m) : Reaches avoided (k + 1) members m

/-- The names of lists, each a member of the one before. -/
def Chain : List Bytes → List Bytes → Prop
  | _, [] => True
  | members, m :: path => m ∈ members ∧ ∃ l, sys.meaning m = some (.list l) ∧
      Chain (sys.members l) path

/-- At the end of a chain of `n` different names, none of them avoided. -/
def CutOff (n : Nat) (avoided members : List Bytes) (m : Bytes) : Prop :=
  ∃ path, sys.Chain members path ∧ path.Nodup ∧ (∀ y ∈ path, y ∉ avoided) ∧ path.length = n ∧
    path.getLast? = some m

def Within (address : Bytes) (x : Addressee) : Prop :=
  ∃ k ≤ maxListDepth, ∃ m, sys.Reaches [] k (sys.members address) m ∧ sys.addressee m = some x

/-- No list whose members are within the bound is at the end of a chain that is too long. -/
def Short (address : Bytes) : Prop :=
  ∀ k < maxListDepth, ∀ n l, sys.Reaches [] k (sys.members address) n →
    sys.meaning n = some (.list l) →
    ¬sys.CutOff maxListDepth [address] (sys.members address) n

end System

structure Directory.Answers {ε : Type} (d : Directory ε) (sys : System) : Prop where
  meaning : ∀ m, d.resolveRecipient m = .ok (sys.meaning m)
  members : ∀ m l, sys.meaning m = some (.list l) → d.members l = .ok (sys.members l)

/-! ## What a walk does -/

variable {sys : System} {n : Nat} {m : Bytes} {members : List Bytes} {w w' : Walk}

variable {avoided seen : List Bytes}

variable {address l : Bytes} {k : Nat}

theorem System.Reaches.snoc {y l : Bytes} (h : sys.Reaches [] k members m)
    (hlist : sys.meaning m = some (.list l)) (hy : y ∈ sys.members l) :
    sys.Reaches [] (k + 1) members y := by
  induction h with
  | member mem => exact .nested mem List.not_mem_nil hlist (.member hy)
  | nested mem new list rest ih => exact .nested mem new list (ih hlist)

theorem System.Reaches.mono {avoided' ms : List Bytes}
    (h : sys.Reaches avoided' k ms m) (hms : ms ⊆ members) (havoided : avoided ⊆ avoided') :
    sys.Reaches avoided k members m := by
  induction h generalizing members with
  | member mem => exact .member (hms mem)
  | nested mem new list rest ih =>
    exact .nested (hms mem) (fun hmem => new (havoided hmem)) list (ih (List.Subset.refl _))

/-- Names within the bound are met where the lists on the way are walked. -/
theorem System.Reaches.mem_of_closed {top : List Bytes} {k j : Nat}
    (h : sys.Reaches [] k members m) (hmembers : members ⊆ seen)
    (hreach : ∀ y ∈ members, sys.Reaches [] (j + 1) top y) (hbound : j + k ≤ n)
    (hclosed : ∀ i < n, ∀ y l, sys.Reaches [] i top y → y ∈ seen → sys.meaning y = some (.list l) →
      sys.members l ⊆ seen) : m ∈ seen := by
  induction h generalizing j with
  | member mem => exact hmembers mem
  | @nested k members y l m mem new list rest ih =>
    have hpos : 0 < k := by cases rest <;> omega
    exact ih (hclosed (j + 1) (by omega) y l (hreach y mem) (hmembers mem) list)
      (fun z hz => (hreach y mem).snoc list hz) (by omega)

structure System.Keeps (sys sys' : System) : Prop where
  meaning : sys'.meaning = sys.meaning
  nested : ∀ l n l', sys.meaning n = some (.list l') → n ∈ sys.members l → n ∈ sys'.members l

theorem System.Chain.mem {path : List Bytes}
    (h : sys.Chain (sys.members l) path) (hm : m ∈ path) : ∃ l', m ∈ sys.members l' := by
  induction path generalizing l with
  | nil => cases hm
  | cons y path ih =>
    obtain ⟨mem, l', -, rest⟩ := h
    rcases List.mem_cons.1 hm with rfl | hm
    · exact ⟨l, mem⟩
    · exact ih rest hm

theorem System.CutOff.mono {avoided' ms : List Bytes} (h : sys.CutOff n avoided' ms m)
    (hms : ms ⊆ members) (havoided : avoided ⊆ avoided') : sys.CutOff n avoided members m := by
  obtain ⟨path, hchain, hnodup, havoids, hlength, hlast⟩ := h
  refine ⟨path, ?_, hnodup, fun y hy hmem => havoids y hy (havoided hmem), hlength, hlast⟩
  cases path with
  | nil => trivial
  | cons y path => exact ⟨hms hchain.1, hchain.2⟩

theorem System.CutOff.nested {l y : Bytes} (h : sys.CutOff n (m :: avoided) (sys.members l) y)
    (hnew : m ∉ avoided) (hlist : sys.meaning m = some (.list l)) :
    sys.CutOff (n + 1) avoided [m] y := by
  obtain ⟨path, hchain, hnodup, havoids, hlength, hlast⟩ := h
  refine ⟨m :: path, ⟨List.mem_singleton_self m, l, hlist, hchain⟩, ?_, ?_, ?_, ?_⟩
  · exact List.nodup_cons.2 ⟨fun hmem => havoids m hmem List.mem_cons_self, hnodup⟩
  · rintro z (_ | ⟨_, hz⟩)
    · exact hnew
    · exact fun hmem => havoids z hz (List.mem_cons_of_mem _ hmem)
  · rw [List.length_cons, hlength]
  · rw [List.getLast?_cons, hlast, Option.getD_some]

def Walk.addressees (w : Walk) : List Addressee :=
  w.out.map Target.addressee

/-- Nobody is there twice, and who was met is there. -/
structure Walk.Inv (sys : System) (w : Walk) : Prop where
  once : w.addressees.Nodup
  known : ∀ x ∈ w.addressees, x.address ∈ w.seen
  settled : ∀ m ∈ w.seen, ∀ x, sys.addressee m = some x → x ∈ w.addressees

theorem Walk.Inv.start (hlist : sys.meaning address = some (.list l)) :
    Walk.Inv sys ⟨[address], []⟩ := by
  refine ⟨List.nodup_nil, nofun, fun m hm x hx => ?_⟩
  obtain rfl := List.mem_singleton.1 hm
  simp [System.addressee, hlist] at hx

/-- From `w` to `w'` these members were walked, with everything below them that is not cut off. -/
structure Walked (sys : System) (n : Nat) (members : List Bytes) (w w' : Walk) : Prop where
  inv : w'.Inv sys
  grows : w.seen ⊆ w'.seen
  covers : members ⊆ w'.seen
  closed : ∀ m l, m ∈ w'.seen → m ∉ w.seen → sys.meaning m = some (.list l) →
    sys.members l ⊆ w'.seen ∨ sys.CutOff n w.seen members m
  reached : ∀ x ∈ w'.addressees, x ∈ w.addressees ∨
    ∃ k ≤ n, ∃ m, sys.Reaches w.seen k members m ∧ sys.addressee m = some x

theorem Walked.cons {w'' : Walk} (h : Walked sys n [m] w w') (h' : Walked sys n members w' w'') :
    Walked sys n (m :: members) w w'' where
  inv := h'.inv
  grows := List.Subset.trans h.grows h'.grows
  covers := List.cons_subset.2 ⟨h'.grows (h.covers (List.mem_singleton_self m)), h'.covers⟩
  closed x l hx hnew hlist := by
    by_cases hmid : x ∈ w'.seen
    · exact (h.closed x l hmid hnew hlist).imp (fun hall => List.Subset.trans hall h'.grows)
        fun hcut => hcut.mono (List.cons_subset_cons m (List.nil_subset _)) (List.Subset.refl _)
    · exact (h'.closed x l hx hmid hlist).imp_right fun hcut =>
        hcut.mono (List.subset_cons_self m members) h.grows
  reached x hx := by
    rcases h'.reached x hx with hmid | ⟨k, hk, y, hreach, hy⟩
    · rcases h.reached x hmid with hold | ⟨k, hk, y, hreach, hy⟩
      · exact .inl hold
      · exact .inr ⟨k, hk, y, hreach.mono (List.cons_subset_cons m (List.nil_subset _))
          (List.Subset.refl _), hy⟩
    · exact .inr ⟨k, hk, y, hreach.mono (List.subset_cons_self m members) h.grows, hy⟩

/-- Who was met for the first time goes to the end. -/
theorem Walk.Inv.add {t : Target} (h : w.Inv sys) (hnew : t.addressee.address ∉ w.seen)
    (hgrows : w.seen ⊆ seen) (hknown : t.addressee.address ∈ seen)
    (hsettled : ∀ x ∈ seen, x ∉ w.seen → sys.addressee x = some t.addressee) :
    Walk.Inv sys ⟨seen, w.out ++ [t]⟩ := by
  have hout : Walk.addressees ⟨seen, w.out ++ [t]⟩ = w.addressees ++ [t.addressee] := by
    simp [Walk.addressees]
  refine ⟨?_, fun x hx => ?_, fun x hx y hy => ?_⟩
  · rw [hout, List.nodup_append]
    refine ⟨h.once, by simp, fun x hx y hy heq => hnew ?_⟩
    rw [← List.mem_singleton.1 hy, ← heq]
    exact h.known x hx
  · rw [hout, List.mem_append, List.mem_singleton] at hx
    rcases hx with hx | rfl
    · exact hgrows (h.known x hx)
    · exact hknown
  · rw [hout, List.mem_append, List.mem_singleton]
    by_cases hold : x ∈ w.seen
    · exact .inl (h.settled x hold y hy)
    · exact .inr (Option.some.inj (hy.symm.trans (hsettled x hx hold)))

theorem Walk.Inv.mark (h : w.Inv sys) (hmet : ∀ x, sys.addressee m = some x → x ∈ w.addressees) :
    Walk.Inv sys { w with seen := m :: w.seen } := by
  refine ⟨h.once, fun x hx => List.mem_cons_of_mem _ (h.known x hx), fun x hx y hy => ?_⟩
  rcases List.mem_cons.1 hx with rfl | hx
  · exact hmet y hy
  · exact h.settled x hx y hy

/-- A member of its own right is one target more. -/
theorem Walked.add {t : Target} (hw : w.Inv sys) (hm : m ∈ seen)
    (hnew : t.addressee.address ∉ w.seen) (hgrows : w.seen ⊆ seen)
    (hknown : t.addressee.address ∈ seen)
    (hsettled : ∀ x ∈ seen, x ∉ w.seen → sys.addressee x = some t.addressee)
    (hmeans : sys.addressee m = some t.addressee) :
    Walked sys (n + 1) [m] w ⟨seen, w.out ++ [t]⟩ where
  inv := hw.add hnew hgrows hknown hsettled
  grows := hgrows
  covers := by simpa using hm
  closed x l hx hold hlist := by
    have hx := hsettled x hx hold
    simp [System.addressee, hlist] at hx
  reached x hx := by
    simp only [Walk.addressees, List.map_append, List.mem_append, List.map_cons, List.map_nil,
      List.mem_singleton] at hx
    rcases hx with hx | rfl
    · exact .inl hx
    · exact .inr ⟨1, by omega, m, .member (List.mem_singleton_self m), hmeans⟩

/-- A member is only marked if it was met under another name or is a list that is too deep. -/
theorem Walked.mark (hw : w.Inv sys) (hmet : ∀ x, sys.addressee m = some x → x ∈ w.addressees)
    (hdeep : ∀ l, sys.meaning m = some (.list l) → n = 0) :
    Walked sys (n + 1) [m] w { w with seen := m :: w.seen } where
  inv := hw.mark hmet
  grows := List.subset_cons_self m w.seen
  covers := by simp
  closed x l hx hnew hlist := by
    obtain rfl := (List.mem_cons.1 hx).resolve_right hnew
    exact .inr ⟨[x], ⟨List.mem_singleton_self x, l, hlist, trivial⟩, by simp, by simpa using hnew,
      by simp [hdeep l hlist], rfl⟩
  reached _ hx := .inl hx

theorem Walked.nested (hseen : m ∉ w.seen) (hmeans : sys.meaning m = some (.list l))
    (h : Walked sys n (sys.members l) { w with seen := m :: w.seen } w') :
    Walked sys (n + 1) [m] w w' where
  inv := h.inv
  grows := List.Subset.trans (List.subset_cons_self m w.seen) h.grows
  covers := by simpa using h.grows List.mem_cons_self
  closed x l' hx hnew hlist := by
    by_cases hxm : x = m
    · subst hxm
      cases hmeans.symm.trans hlist
      exact .inl h.covers
    · exact (h.closed x l' hx (by simp [hxm, hnew]) hlist).imp_right fun hcut =>
        hcut.nested hseen hmeans
  reached x hx := by
    rcases h.reached x hx with hold | ⟨k, hk, y, hreach, hy⟩
    · exact .inl hold
    · exact .inr ⟨k + 1, by omega, y, .nested (List.mem_singleton_self m) hseen hmeans
        (hreach.mono (List.Subset.refl _) (List.subset_cons_self m w.seen)), hy⟩

variable {ε : Type} {d : Directory ε}

theorem Walked.sound {x : Addressee}
    (h : Walked sys maxListDepth (sys.members address) ⟨[address], []⟩ w) (hx : x ∈ w.addressees) :
    sys.Within address x := by
  obtain ⟨k, hk, m, hreach, hm⟩ := (h.reached x hx).resolve_left nofun
  exact ⟨k, hk, m, hreach.mono (List.Subset.refl _) (List.nil_subset _), hm⟩

theorem Walked.within {x : Addressee}
    (h : Walked sys maxListDepth (sys.members address) ⟨[address], []⟩ w)
    (hlist : sys.meaning address = some (.list address)) (hshort : sys.Short address) :
    x ∈ w.addressees ↔ sys.Within address x := by
  refine ⟨h.sound, ?_⟩
  rintro ⟨k, hk, m, hreach, hx⟩
  refine h.inv.settled m (hreach.mem_of_closed (n := maxListDepth) (j := 0) h.covers
    (fun y hy => .member hy) (by omega) fun i hi y l hy hseen hmeans => ?_) x hx
  by_cases htop : y = address
  · subst htop
    cases hlist.symm.trans hmeans
    exact h.covers
  · exact (h.closed y l hseen (by simpa using htop) hmeans).resolve_right
      (hshort i hi y l hy hmeans)

/-! ## What a chain that is too long loses -/

section

variable {x n₀ l₀ : Bytes}

/-- Neither the address itself nor another name of the list that it is on. -/
def System.Apart (sys : System) (n₀ l₀ x m : Bytes) : Prop :=
  m ≠ x ∧ (sys.meaning m = some (.list l₀) → m = n₀)

/-- The list is marked, and the address that is only on it has not been met. -/
def Walk.Lost (n₀ x : Bytes) (w : Walk) : Prop :=
  n₀ ∈ w.seen ∧ .external x ∉ w.addressees

theorem System.Reaches.ne {k : Nat} (h : sys.Reaches avoided k members m) (hn₀ : n₀ ∈ avoided)
    (hsys : ∀ l ≠ l₀, ∀ m ∈ sys.members l, sys.Apart n₀ l₀ x m)
    (hmembers : ∀ m ∈ members, sys.Apart n₀ l₀ x m) : m ≠ x := by
  induction h with
  | member mem => exact (hmembers _ mem).1
  | nested mem new list rest ih =>
    refine ih (hsys _ ?_)
    rintro rfl
    exact new ((hmembers _ mem).2 list ▸ hn₀)

/-- What is marked is not gone into any more, so the address stays away. -/
theorem Walked.lost (h : Walked sys n members w w') (hw : w.Lost n₀ x)
    (hsys : ∀ l ≠ l₀, ∀ m ∈ sys.members l, sys.Apart n₀ l₀ x m)
    (hmembers : ∀ m ∈ members, sys.Apart n₀ l₀ x m) : w'.Lost n₀ x := by
  refine ⟨h.grows hw.1, fun hx => ?_⟩
  obtain ⟨k, -, m, hreach, hm⟩ := (h.reached _ hx).resolve_left hw.2
  refine hreach.ne hw.1 hsys hmembers ?_
  unfold System.addressee at hm
  split at hm <;> cases hm
  rfl

end

end Elemta.Mailbox.Routing
