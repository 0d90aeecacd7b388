import Elemta.Abuse.Engine

/-!
# Who is refused

A client is looked up under two texts: the unit that it is counted as and the network
that this is rolled up into. A block is found when it is kept under one of them, so
blocks of other prefix lengths, which `target` accepts, refuse nobody. For the others
the two lookups are exactly right, as long as the store has taken every write.
-/

namespace Elemta.Abuse

open Bytes IpAddress

/-! ## The addresses inside a block -/

/-- A single IPv6 address stands for its /64. -/
def covers (network : Bytes) (ip : Address) : Bool :=
  if 47 ∈ network then (parseCIDR network).any fun n => n.contains ip
  else
    (parseIP network).any fun a =>
      if is4 a then ip == a else !is4 ip && truncate 64 ip == truncate 64 a

def unitOf (ip : Address) : Address :=
  if is4 ip then ip else truncate 64 ip

def rollUp (ip : Address) : Network :=
  if is4 ip then { base := truncate 120 ip, ones := 120, four := true }
  else { base := truncate 48 ip, ones := 48, four := false }

variable (ip : Address)

theorem is4_unitOf : is4 (unitOf ip) = is4 ip := by
  unfold unitOf
  split
  · rfl
  · rename_i h4
    rw [is4_truncate_of_lt (by decide), Bool.eq_false_iff.2 h4]

theorem is4_rollUp : is4 (rollUp ip).base = is4 ip := by
  unfold rollUp
  split
  · exact is4_truncate (by decide) ip
  · rename_i h4
    rw [is4_truncate_of_lt (by decide), Bool.eq_false_iff.2 h4]

theorem network_eq (host : Bytes) :
    network host = ((clientAddress host).map fun ip => format (unitOf ip)).getD [] := by
  unfold network unitOf
  cases clientAddress host with
  | none => rfl
  | some ip =>
    simp only [Option.map_some, Option.getD_some]
    split <;> rfl

theorem rollUp_unitOf : rollUp (unitOf ip) = rollUp ip := by
  unfold rollUp
  rw [is4_unitOf]
  unfold unitOf
  split
  · rfl
  · rw [truncate_truncate (by decide)]

theorem format_rollUp :
    (rollUp ip).format =
      if is4 ip then format (truncate 120 ip) ++ lit "/24"
      else format (truncate 48 ip) ++ lit "/48" := by
  have h24 : [47] ++ itoa (120 - 96) = lit "/24" := by decide +kernel
  have h48 : [47] ++ itoa 48 = lit "/48" := by decide +kernel
  rw [Network.format, is4_rollUp]
  unfold rollUp
  split
  · rw [List.append_assoc, h24]
  · rw [List.append_assoc, h48]

theorem subnet_format : subnet (format (unitOf ip)) = (rollUp ip).format := by
  rw [← rollUp_unitOf, format_rollUp, subnet, parseIP_format]

theorem truncate_rollUp :
    truncate (rollUp ip).ones (rollUp ip).base = (rollUp ip).base ∧ (rollUp ip).ones ≤ 128 := by
  unfold rollUp
  split
  · exact ⟨truncate_truncate le_rfl ip, show 120 ≤ 128 by decide⟩
  · exact ⟨truncate_truncate le_rfl ip, show 48 ≤ 128 by decide⟩

theorem parseCIDR_rollUp : parseCIDR (rollUp ip).format = some (rollUp ip) := by
  obtain ⟨hbase, hones⟩ := truncate_rollUp ip
  rw [parseCIDR_format hbase hones, is4_rollUp]
  unfold rollUp
  split <;> simp_all

theorem slash_mem_format (n : Network) : 47 ∈ n.format := by
  simp [Network.format]

/-- Inside the block of an address are those that are counted as the same unit. -/
theorem covers_unitOf (a ip : Address) :
    covers (format (unitOf a)) ip = true ↔ unitOf ip = unitOf a := by
  have hslash : 47 ∉ format (unitOf a) := slash_notMem_format _
  rw [covers, if_neg hslash, parseIP_format, Option.any_some, is4_unitOf]
  unfold unitOf
  by_cases ha : is4 a = true <;> by_cases hip : is4 ip = true
  · simp [ha, hip]
  · have hne : ip ≠ a := fun h => hip (h ▸ ha)
    have hne' : truncate 64 ip ≠ a := fun h => by
      rw [← h, is4_truncate_of_lt (by decide)] at ha
      exact Bool.false_ne_true ha
    simp [ha, hip, hne, hne']
  · have hne : ip ≠ truncate 64 a := fun h => by
      rw [h, is4_truncate_of_lt (by decide)] at hip
      exact Bool.false_ne_true hip
    simp [ha, hip, hne]
  · simp [ha, hip, truncate_truncate (show 64 ≤ 64 from le_rfl)]

/-- Inside the block of a rolled up network are those that are rolled up into it. -/
theorem covers_rollUp (a ip : Address) :
    covers (rollUp a).format ip = true ↔ rollUp ip = rollUp a := by
  rw [covers, if_pos (slash_mem_format _), parseCIDR_rollUp, Option.any_some, Network.contains,
    is4_rollUp]
  unfold rollUp
  by_cases ha : is4 a = true <;> by_cases hip : is4 ip = true <;> simp [ha, hip]

/-! ## The texts under which blocks are found -/

/-- The block is for an address or for a network of the length that addresses are rolled up to. -/
def lookedUp (network : Bytes) : Bool :=
  decide (47 ∉ network) ||
    (parseCIDR network).any fun n => n.ones == if is4 n.base then 120 else 48

/-- A client may be looked up under the text. -/
def Key (network : Bytes) : Prop :=
  ∃ ip, network = format (unitOf ip) ∨ network = (rollUp ip).format

variable {host value addr service : Bytes} {s : State} {e : Engine} {now : Time}

theorem key_network (h : network host ≠ []) : Key (network host) := by
  rw [network_eq] at h ⊢
  cases hip : clientAddress host with
  | none => simp [hip] at h
  | some ip => exact ⟨ip, .inl rfl⟩

theorem key_subnet (h : network host ≠ []) : Key (subnet (network host)) := by
  rw [network_eq] at h ⊢
  cases hip : clientAddress host with
  | none => simp [hip] at h
  | some ip => exact ⟨ip, .inr (subnet_format ip)⟩

/-- A network of that length is one that its own address is rolled up into. -/
theorem rollUp_base {n : Network} (hbase : truncate n.ones n.base = n.base)
    (hones : n.ones = if is4 n.base then 120 else 48) : n.format = (rollUp n.base).format := by
  rw [Network.format, Network.format, is4_rollUp, hones]
  unfold rollUp
  cases h4 : is4 n.base with
  | true =>
    rw [hones, h4] at hbase
    simp only [if_true] at hbase ⊢
    rw [hbase]
  | false =>
    rw [hones, h4] at hbase
    simp only [Bool.false_eq_true, if_false] at hbase ⊢
    rw [hbase]

theorem target_cases (hne : target value ≠ []) :
    target value = network (trimSpace value) ∨
      ∃ n, parseCIDR (trimSpace value) = some n ∧ target value = n.format := by
  by_cases hslash : 47 ∉ trimSpace value
  · exact .inl (if_pos hslash)
  cases hn : parseCIDR (trimSpace value) with
  | none => exact absurd (by simp [target, hslash, hn]) hne
  | some n =>
    by_cases hwide : n.ones < if n.four then 112 else 32
    · exact absurd (by simp only [target, hslash, hn, if_false, if_pos hwide]) hne
    · exact .inr ⟨n, rfl, by simp only [target, hslash, hn, if_false, if_neg hwide]⟩

theorem key_target (hne : target value ≠ []) (h : lookedUp (target value) = true) :
    Key (target value) := by
  rcases target_cases hne with heq | ⟨n, hn, heq⟩
  · rw [heq] at hne ⊢
    exact key_network hne
  rw [heq] at h ⊢
  obtain ⟨hbase, hones⟩ := truncate_of_parseCIDR hn
  have hslash : 47 ∈ n.format := slash_mem_format n
  rw [lookedUp, parseCIDR_format hbase hones] at h
  simp only [hslash, not_true_eq_false, decide_false, Bool.false_or, Option.any_some,
    beq_iff_eq] at h
  exact ⟨n.base, .inr (rollUp_base hbase h)⟩

/-! ## Runs in which every write is stored -/

def stored (s : State) (written : Bool) : Bool :=
  s.engine.link == .alone || (s.engine.link == .linked && written)

/-- Only addresses and networks of the lengths that are looked up are blocked by hand, and the
store takes what is written to it. -/
def sound (s : State) : Input → Bool
  | .blockAddress addr _ _ written => lookedUp (target addr) && stored s written
  | .unblock _ written => stored s written
  | .failure _ _ _ written writtenNetwork => stored s written && stored s writtenNetwork
  | .setPolicy _ => true
  | .sync _ _ _ => true
  | .wait _ => true

structure Holds (made table : Bytes → Option Block) (now : Time) : Prop where
  only : ∀ k b, table k = some b → made k = some b
  live : ∀ k b, made k = some b → now < b.expires → table k = some b

namespace Holds

variable {made table : Bytes → Option Block} {now : Time}

theorem update (h : Holds made table now) (k : Bytes) (b : Option Block) :
    Holds (Function.update made k b) (Function.update table k b) now := by
  constructor
  · intro k' b' hb'
    by_cases hk : k' = k
    · subst hk
      simpa using hb'
    · rw [Function.update_of_ne hk] at hb' ⊢
      exact h.only k' b' hb'
  · intro k' b' hb' hlive
    by_cases hk : k' = k
    · subst hk
      simpa using hb'
    · rw [Function.update_of_ne hk] at hb' ⊢
      exact h.live k' b' hb' hlive

theorem prune (h : Holds made table now) :
    Holds made (fun k => (table k).filter fun b => now < b.expires) now := by
  constructor
  · intro k b hb
    exact h.only k b (Option.filter_eq_some_iff.1 hb).1
  · intro k b hb hlive
    exact Option.filter_eq_some_iff.2 ⟨h.live k b hb hlive, by simpa using hlive⟩

theorem later {now' : Time} (h : Holds made table now) (hle : now ≤ now') : Holds made table now' :=
  ⟨h.only, fun k b hb hlive => h.live k b hb (Nat.lt_of_le_of_lt hle hlive)⟩

end Holds

structure Agrees (s : State) : Prop where
  keys : ∀ k b, s.made k = some b → b.network = k ∧ Key k
  copy : Holds s.made s.engine.blocks s.clock
  shared : s.engine.link ≠ .alone → Holds s.made s.engine.shared s.clock

namespace Agrees

variable {s : State}

variable {written : Bool}

theorem block (h : Agrees s) {b : Block} (hkey : Key b.network)
    (hstored : stored s written = true) : Agrees (s.block b written) := by
  constructor
  · intro k b' hb'
    simp only [State.block] at hb'
    by_cases hk : k = b.network
    · subst hk
      obtain rfl : b = b' := by simpa using hb'
      exact ⟨rfl, hkey⟩
    · rw [Function.update_of_ne hk] at hb'
      exact h.keys k b' hb'
  · exact h.copy.update b.network (some b)
  · intro hlink
    simp only [stored, Bool.or_eq_true, beq_iff_eq, Bool.and_eq_true] at hstored
    have hwrite : s.engine.link = .linked ∧ written = true := hstored.resolve_left hlink
    have hshared := (h.shared hlink).update b.network (some b)
    simpa [State.block, Engine.apply, hwrite] using hshared

theorem tryBlock (h : Agrees s) {b : Option Block} (hkey : ∀ x ∈ b, Key x.network)
    (hstored : stored s written = true) : Agrees (s.tryBlock b written) := by
  cases b with
  | none => exact h
  | some b => exact h.block (hkey b rfl) hstored

theorem unblock (h : Agrees s) (k : Bytes) (hstored : stored s written = true) :
    Agrees { s with engine := s.engine.unblock k written, made := Function.update s.made k none } := by
  constructor
  · intro k' b hb
    by_cases hk : k' = k
    · subst hk
      simp at hb
    · exact h.keys k' b (by simpa [Function.update_of_ne hk] using hb)
  · exact h.copy.update k none
  · intro hlink
    simp only [stored, Bool.or_eq_true, beq_iff_eq, Bool.and_eq_true] at hstored
    have hwrite : s.engine.link = .linked ∧ written = true := hstored.resolve_left hlink
    have hshared := (h.shared hlink).update k none
    simpa [Engine.unblock, hwrite] using hshared

end Agrees

theorem sync_cases (e : Engine) (now : Time) (connects reads tidied : Bool) :
    (e.link ≠ .alone ∧
      (e.sync now connects reads tidied).blocks =
        (fun k => (e.shared k).filter fun b => now < b.expires) ∧
      ((e.sync now connects reads tidied).shared = e.shared ∨
        (e.sync now connects reads tidied).shared =
          fun k => (e.shared k).filter fun b => now < b.expires)) ∨
    ((e.sync now connects reads tidied).blocks =
        (fun k => (e.blocks k).filter fun b => now < b.expires) ∧
      (e.sync now connects reads tidied).shared = e.shared ∧
      ((e.sync now connects reads tidied).link ≠ .alone → e.link ≠ .alone)) := by
  cases hlink : e.link <;> cases connects <;> cases reads <;> cases tidied <;>
    simp [Engine.sync, hlink]

theorem Agrees.sync (h : Agrees s) (connects reads tidied : Bool) :
    Agrees { s with engine := s.engine.sync s.clock connects reads tidied } := by
  rcases sync_cases s.engine s.clock connects reads tidied with
    ⟨hlink, hblocks, hshared⟩ | ⟨hblocks, hshared, hlink⟩
  · -- what is stored is what was made, so the copy that is taken of it is right
    have hstore := h.shared hlink
    refine ⟨h.keys, ?_, fun _ => ?_⟩
    · simpa only [hblocks] using hstore.prune
    · rcases hshared with hsame | htidied
      · simpa only [hsame] using hstore
      · simpa only [htidied] using hstore.prune
  · refine ⟨h.keys, ?_, fun hne => ?_⟩
    · simpa only [hblocks] using h.copy.prune
    · simpa only [hshared] using h.shared (hlink hne)

theorem blockAddress_network {reason : Bytes} {duration : Int} {b : Block}
    (h : e.blockAddress now addr reason duration = .ok b) :
    b.network = target addr ∧ target addr ≠ [] := by
  unfold Engine.blockAddress at h
  by_cases hnone : target addr = []
  · rw [if_pos hnone] at h
    cases h
  rw [if_neg hnone] at h
  split at h
  · cases h
  split at h
  · cases h
  · cases h
    exact ⟨rfl, hnone⟩

theorem trip_network {network : Bytes} {failures strikes : Nat} {b : Block}
    (h : e.trip now network service failures strikes = some b) : b.network = network := by
  unfold Engine.trip at h
  split_ifs at h with hlive hmode
  cases h
  rfl

theorem key_addressBlock {c : Counts} : ∀ b ∈ e.addressBlock now addr service c, Key b.network := by
  intro b hb
  unfold Engine.addressBlock at hb
  split_ifs at hb with hskip hfull
  · cases hb
  · rw [trip_network hb]
    exact key_network fun hnone => hskip (.inr (.inl hnone))
  · cases hb

theorem key_networkBlock {c : Counts} : ∀ b ∈ e.networkBlock now addr service c, Key b.network := by
  intro b hb
  unfold Engine.networkBlock at hb
  split_ifs at hb with hskip hfull
  · cases hb
  · rw [trip_network hb]
    exact key_subnet fun hnone => hskip (.inr (.inl hnone))
  · cases hb

theorem stored_tryBlock (b : Option Block) (written written' : Bool) :
    stored (s.tryBlock b written) written' = stored s written' := by
  cases b <;> rfl

theorem Agrees.step (input : Input) (hsound : sound s input = true) (h : Agrees s) :
    Agrees (step s input) := by
  cases input with
  | blockAddress addr reason duration written =>
    simp only [sound, Bool.and_eq_true] at hsound
    simp only [Abuse.step]
    cases hb : s.engine.blockAddress s.clock addr reason duration with
    | error e => exact h
    | ok b =>
      obtain ⟨hnetwork, hne⟩ := blockAddress_network hb
      apply h.block _ hsound.2
      rw [hnetwork]
      exact key_target hne hsound.1
  | unblock addr written =>
    simp only [Abuse.step]
    split
    · exact h
    · exact h.unblock (target addr) hsound
  | failure addr service counts written writtenNetwork =>
    simp only [sound, Bool.and_eq_true] at hsound
    apply (h.tryBlock key_addressBlock hsound.1).tryBlock key_networkBlock
    rw [stored_tryBlock]
    exact hsound.2
  | setPolicy p => exact ⟨h.keys, h.copy, h.shared⟩
  | sync connects reads tidied => exact h.sync connects reads tidied
  | wait d =>
    have hle : s.clock ≤ s.clock + d := Nat.le_add_right s.clock d
    exact ⟨h.keys, h.copy.later hle, fun hlink => (h.shared hlink).later hle⟩

theorem agrees_init (p : Policy) (configured : Bool) : Agrees (State.init p configured) := by
  refine ⟨?_, ⟨?_, ?_⟩, fun _ => ⟨?_, ?_⟩⟩ <;> intro k b hb <;> cases hb

theorem agrees_run {p : Policy} {configured : Bool} {inputs : List Input}
    (hrun : Machine.Along step (fun s input => sound s input = true) (State.init p configured)
      inputs) :
    Agrees (Machine.run step (State.init p configured) inputs) :=
  hrun.run_invariant Agrees (fun _ input hsound h => h.step input hsound)
    (agrees_init p configured)

/-! ## The decision -/

/-- An unexpired block that was made and not lifted has the client inside. -/
def Covered (s : State) (ip : Address) : Prop :=
  ∃ k b, s.made k = some b ∧ s.clock < b.expires ∧ covers b.network ip = true

/-- One of the two lookups finds a live block exactly when some live block covers the client. -/
theorem Agrees.covered_iff (h : Agrees s) (ip : Address) :
    Covered s ip ↔
      ∃ k b, (k = format (unitOf ip) ∨ k = (rollUp ip).format) ∧
        s.engine.blocks k = some b ∧ s.clock < b.expires := by
  constructor
  · rintro ⟨k, b, hmade, hlive, hcovers⟩
    obtain ⟨hnetwork, a, hkey⟩ := h.keys k b hmade
    refine ⟨k, b, ?_, h.copy.live k b hmade hlive, hlive⟩
    rw [hnetwork] at hcovers
    rcases hkey with rfl | rfl
    · rw [(covers_unitOf a ip).1 hcovers]
      exact .inl rfl
    · rw [(covers_rollUp a ip).1 hcovers]
      exact .inr rfl
  · rintro ⟨k, b, hkey, hblock, hlive⟩
    have hmade := h.copy.only k b hblock
    refine ⟨k, b, hmade, hlive, ?_⟩
    rw [(h.keys k b hmade).1]
    rcases hkey with rfl | rfl
    · exact (covers_unitOf ip ip).2 rfl
    · exact (covers_rollUp ip ip).2 rfl

theorem blocked_eq {ip : Address} (hmode : e.policy.mode = .enforce)
    (hip : clientAddress addr = some ip) (hexempt : e.exempt now addr = false) :
    e.blocked now addr =
      ((e.blocks (format (unitOf ip))).filter fun b => now < b.expires).or
        ((e.blocks (rollUp ip).format).filter fun b => now < b.expires) := by
  have hkey : network addr = format (unitOf ip) := by rw [network_eq, hip]; rfl
  have hne : format (unitOf ip) ≠ [] := format_ne_nil _
  simp [Engine.blocked, hkey, hne, hmode, hexempt, subnet_format]

theorem or_filter_isSome {α : Type*} {a b : Option α} {p : α → Bool} :
    ((a.filter p).or (b.filter p)).isSome = true ↔ ∃ x, (a = some x ∨ b = some x) ∧ p x = true := by
  cases a <;> cases b <;> simp [Option.filter]

/-- In enforce mode a client that is not exempt is refused when an unexpired block has it inside,
and a client that is in no unexpired block is not refused, whatever was blocked, lifted and synced
before. -/
theorem blocked_iff_covered (p : Policy) (configured : Bool) (inputs : List Input)
    (hrun : Machine.Along step (fun s input => sound s input = true) (State.init p configured)
      inputs)
    (s : State) (hs : s = Machine.run step (State.init p configured) inputs)
    (hmode : s.engine.policy.mode = .enforce) (addr : Bytes) (ip : Address)
    (hip : clientAddress addr = some ip) :
    (s.engine.exempt s.clock addr = false → Covered s ip →
      (s.engine.blocked s.clock addr).isSome = true) ∧
    (¬ Covered s ip → s.engine.blocked s.clock addr = none) := by
  have hagrees : Agrees s := hs ▸ agrees_run hrun
  have hfound : s.engine.exempt s.clock addr = false →
      ((s.engine.blocked s.clock addr).isSome = true ↔ Covered s ip) := by
    intro hexempt
    rw [blocked_eq hmode hip hexempt, or_filter_isSome, hagrees.covered_iff]
    constructor
    · rintro ⟨b, hb | hb, hlive⟩
      · exact ⟨_, b, .inl rfl, hb, of_decide_eq_true hlive⟩
      · exact ⟨_, b, .inr rfl, hb, of_decide_eq_true hlive⟩
    · rintro ⟨k, b, rfl | rfl, hb, hlive⟩
      · exact ⟨b, .inl hb, decide_eq_true hlive⟩
      · exact ⟨b, .inr hb, decide_eq_true hlive⟩
  constructor
  · exact fun hexempt => (hfound hexempt).2
  · intro hout
    cases hexempt : s.engine.exempt s.clock addr with
    | false =>
      rw [← Option.not_isSome_iff_eq_none, hfound hexempt]
      exact hout
    | true => simp [Engine.blocked, hexempt]

def defaultPolicy : Policy :=
  { mode := .enforce
    failuresPerAddress := 50
    accountsPerAddress := 10
    failuresPerNetwork := 200
    blockMinutes := 15
    maxBlockHours := 24
    rules := [] }

/-- A /24 is blocked by hand, and the copy is read back from the store. -/
def handBlock : List Input :=
  [.sync true true true, .blockAddress (lit "10.1.2.99/24") [] 3600000000000 true, .wait 1000,
    .sync false true true]

theorem blocked_iff_covered_handBlock :
    ((Machine.run step (State.init defaultPolicy true) handBlock).engine.blocked 1000
      (lit "10.1.2.3:2525")).isSome = true := by
  have hrun : Machine.Along step (fun s input => sound s input = true)
      (State.init defaultPolicy true) handBlock := by decide +kernel
  have hclient := blocked_iff_covered defaultPolicy true handBlock hrun _ rfl (by decide +kernel)
    (lit "10.1.2.3:2525") 0xffff0a010203#128 (by decide +kernel)
  apply hclient.1 (by decide +kernel)
  refine ⟨lit "10.1.2.0/24",
    { network := lit "10.1.2.0/24", reason := lit "blocked by an administrator"
      service := lit "admin", failures := 0, strikes := 0, created := 0
      expires := 3600000000000, manual := true }, ?_, ?_, ?_⟩
  all_goals decide +kernel

/-- A /16 is accepted as a block, and a client inside it is not refused. -/
theorem blocked_wide_network :
    let s := Machine.run step (State.init defaultPolicy false)
      [.blockAddress (lit "10.1.0.0/16") [] 3600000000000 true]
    (∃ b, s.made (lit "10.1.0.0/16") = some b ∧ s.clock < b.expires ∧
      covers b.network 0xffff0a010203#128 = true) ∧
    clientAddress (lit "10.1.2.3") = some 0xffff0a010203#128 ∧
    s.engine.policy.mode = .enforce ∧ s.engine.exempt s.clock (lit "10.1.2.3") = false ∧
    s.engine.blocked s.clock (lit "10.1.2.3") = none := by
  refine ⟨⟨{ network := lit "10.1.0.0/16", reason := lit "blocked by an administrator"
             service := lit "admin", failures := 0, strikes := 0, created := 0
             expires := 3600000000000, manual := true }, ?_, ?_, ?_⟩, ?_, ?_, ?_, ?_⟩
  all_goals decide +kernel

end Elemta.Abuse
