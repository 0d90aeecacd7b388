import Elemta.Delivery.Mtasts

/-!
# Which policy a delivery is judged by

Until its lifetime has passed, a policy stays in the cache unless its entry has to make
room: a lookup that finds it does not fetch, so a fetch that fails cannot take its
place. Room is made only in a cache that is full of unexpired entries, and then for the
one that is closest to expiry.

The lifetime is the product of two numbers in a word of 64 bits, so all of this is about
lifetimes of which the product fits, those of at most 292 years.
-/

namespace Elemta.Mtasts

open Bytes

/-! ## Policies as they are read and fetched -/

/-- The longest lifetime, in seconds, of which the nanoseconds fit a signed word. -/
def maxSeconds : Int := 9223372036

theorem seconds_eq {n : Int} (hpos : 0 < n) (hle : n ≤ maxSeconds) : seconds n = n * second := by
  unfold maxSeconds at hle
  apply Int.bmod_eq_of_le <;> unfold second <;> omega

theorem readField_maxAge {d : Draft} (h : 0 < d.maxAge) (key value : Bytes) :
    0 < (d.readField key value).maxAge := by
  unfold Draft.readField
  split_ifs
  · exact h
  · exact h
  · cases scanInt value with
    | none => exact h
    | some age =>
      by_cases hage : 0 < age
      · simpa only [if_pos hage] using hage
      · simpa only [if_neg hage] using h
  · exact h
  · exact h

theorem readLine_maxAge {d : Draft} (h : 0 < d.maxAge) (line : Bytes) :
    0 < (d.readLine line).maxAge := by
  unfold Draft.readLine
  simp only
  split
  · exact h
  · split
    · exact h
    · exact readField_maxAge h _ _

variable {p : Policy} {now : Int} {mxHost : Bytes}

theorem maxAge_pos_of_parse {text : Bytes} (h : parsePolicyText text = some p) : 0 < p.maxAge := by
  have hall : ∀ (ls : List Bytes) (d : Draft), 0 < d.maxAge →
      0 < (ls.foldl Draft.readLine d).maxAge := by
    intro ls
    induction ls with
    | nil => exact fun d hd => hd
    | cons l ls ih => exact fun d hd => ih _ (readLine_maxAge hd l)
  unfold parsePolicyText at h
  simp only at h
  split at h
  · cases h
  · obtain ⟨mode, -, rfl⟩ := Option.map_eq_some_iff.1 h
    exact hall _ Draft.init (by decide)

def Policy.Dated (p : Policy) : Prop :=
  0 < p.maxAge ∧ p.expiresAt = p.fetchedAt + seconds p.maxAge

theorem Policy.Dated.expiresAt_eq (h : p.Dated) (hle : p.maxAge ≤ maxSeconds) :
    p.expiresAt = p.fetchedAt + p.maxAge * second := by
  rw [h.2, seconds_eq h.1 hle]

theorem dated_of_fetch {body : Option Bytes} (h : fetchPolicyFromHTTPS body now = some p) :
    p.Dated := by
  obtain ⟨q, hq, rfl⟩ := Option.map_eq_some_iff.1 h
  obtain ⟨text, -, hparse⟩ := Option.bind_eq_some_iff.1 hq
  have hpos : 0 < q.maxAge := maxAge_pos_of_parse hparse
  exact ⟨hpos, rfl⟩

theorem dated_fetchPolicy {f : Fetch} (h : (f.fetchPolicy now).1 = some p) : p.Dated := by
  unfold Fetch.fetchPolicy at h
  simp only at h
  split at h
  · rename_i q hq
    cases h
    exact dated_of_fetch hq
  · split at h
    · exact dated_of_fetch h
    · cases h

theorem le_fetchPolicy (f : Fetch) (now : Int) : now ≤ (f.fetchPolicy now).2 := by
  unfold Fetch.fetchPolicy
  simp only
  split
  · omega
  · split <;> dsimp only <;> omega

/-! ## Rows of the cache -/

namespace Cache

variable {cache : Cache} {d k : Bytes} {e : Entry} {now : Int}

def Distinct (cache : Cache) : Prop :=
  (cache.map Prod.fst).Nodup

theorem mem_erase : (d, e) ∈ cache.erase k ↔ (d, e) ∈ cache ∧ d ≠ k := by
  simp [erase]

theorem mem_unexpired : (d, e) ∈ cache.unexpired now ↔ (d, e) ∈ cache ∧ now ≤ e.expiresAt := by
  simp [unexpired]

theorem Distinct.filter (h : cache.Distinct) (keep : Bytes × Entry → Bool) :
    Distinct (cache.filter keep) :=
  (List.Sublist.map Prod.fst List.filter_sublist).nodup h

theorem Distinct.cons (h : cache.Distinct) (hnew : ∀ e', (d, e') ∉ cache) :
    Distinct ((d, e) :: cache) := by
  refine List.nodup_cons.2 ⟨fun hmem => ?_, h⟩
  obtain ⟨⟨d', e'⟩, hrow, rfl⟩ := List.mem_map.1 hmem
  exact hnew e' hrow

theorem lookup_eq_some (h : cache.Distinct) : cache.lookup d = some e ↔ (d, e) ∈ cache := by
  induction cache with
  | nil => simp
  | cons row rest ih =>
    obtain ⟨d', e'⟩ := row
    obtain ⟨hhead, hrest⟩ := List.nodup_cons.1 h
    rw [List.lookup_cons]
    by_cases hd : d = d'
    · subst hd
      have hnot : (d, e) ∉ rest := fun hmem => hhead (List.mem_map.2 ⟨(d, e), hmem, rfl⟩)
      simp [hnot, eq_comm]
    · have hbeq : (d == d') = false := beq_eq_false_iff_ne.2 hd
      simp [hbeq, ih hrest, hd]

theorem lookup_eq_none (h : cache.Distinct) : cache.lookup d = none ↔ ∀ e, (d, e) ∉ cache := by
  constructor
  · intro hnone e hmem
    rw [(lookup_eq_some h).2 hmem] at hnone
    cases hnone
  · intro hno
    cases he : cache.lookup d with
    | none => rfl
    | some e => exact absurd ((lookup_eq_some h).1 he) (hno e)

/-- The loop ends with an entry it has visited, or with what it began with; of entries with a name
none expires sooner. -/
theorem soonest_spec (best : Bytes × Int) :
    (soonest best cache = best ∨ ∃ k e, (k, e) ∈ cache ∧ soonest best cache = (k, e.expiresAt)) ∧
    ((∀ e, ([], e) ∉ cache) →
      (best.1 ≠ [] → (soonest best cache).1 ≠ [] ∧ (soonest best cache).2 ≤ best.2) ∧
      ∀ k e, (k, e) ∈ cache → (soonest best cache).2 ≤ e.expiresAt) := by
  fun_induction soonest best cache with
  | case1 => simp
  | case2 best k e rest htake ih =>
    obtain ⟨hfrom, hleast⟩ := ih
    refine ⟨.inr ?_, fun hnamed => ?_⟩
    · rcases hfrom with heq | ⟨k', e', hmem, heq⟩
      · exact ⟨k, e, List.mem_cons_self, heq⟩
      · exact ⟨k', e', List.mem_cons_of_mem _ hmem, heq⟩
    · have hk : k ≠ [] := fun h => hnamed e (h ▸ List.mem_cons_self)
      obtain ⟨hbest, hall⟩ := hleast fun e' hmem => hnamed e' (List.mem_cons_of_mem _ hmem)
      refine ⟨fun hne => ⟨(hbest hk).1, ?_⟩, ?_⟩
      · exact Int.le_trans (hbest hk).2 (Int.le_of_lt (htake.resolve_left hne))
      · intro k' e' hmem
        rcases List.mem_cons.1 hmem with heq | hmem
        · cases heq
          exact (hbest hk).2
        · exact hall k' e' hmem
  | case3 best k e rest hkeep ih =>
    obtain ⟨hempty, hlater⟩ := not_or.1 hkeep
    obtain ⟨hfrom, hleast⟩ := ih
    refine ⟨hfrom.imp_right ?_, fun hnamed => ?_⟩
    · rintro ⟨k', e', hmem, heq⟩
      exact ⟨k', e', List.mem_cons_of_mem _ hmem, heq⟩
    · obtain ⟨hbest, hall⟩ := hleast fun e' hmem => hnamed e' (List.mem_cons_of_mem _ hmem)
      refine ⟨hbest, fun k' e' hmem => ?_⟩
      rcases List.mem_cons.1 hmem with heq | hmem
      · cases heq
        exact Int.le_trans (hbest hempty).2 (Int.not_lt.1 hlater)
      · exact hall k' e' hmem

/-- Room is made for an entry of a full cache that is closest to expiry. -/
theorem victim_spec {maxSize : Nat} (h : cache.victim maxSize now = some k) :
    maxSize ≤ (cache.unexpired now).length ∧ k ≠ [] ∧
      ∃ e, (k, e) ∈ cache.unexpired now ∧
        ((∀ e', ([], e') ∉ cache.unexpired now) →
          ∀ k' e', (k', e') ∈ cache.unexpired now → e.expiresAt ≤ e'.expiresAt) := by
  unfold victim at h
  simp only at h
  split at h
  · rename_i hfull
    cases h
    obtain ⟨hfrom, hleast⟩ := soonest_spec ([], 0)
    refine ⟨hfull.1, hfull.2, ?_⟩
    rcases hfrom with heq | ⟨k', e, hmem, heq⟩
    · exact absurd (congrArg Prod.fst heq) hfull.2
    · rw [heq] at hleast ⊢
      exact ⟨e, hmem, fun hnamed => (hleast hnamed).2⟩
  · cases h

end Cache

/-! ## What the log says -/

/-- The policy was stored for the domain and its entry has not been evicted since. -/
def Kept (d : Bytes) (p : Policy) : List Event → Prop
  | [] => False
  | .evicted k _ _ :: older => k ≠ d ∧ Kept d p older
  | .fetched d' p' :: older => (d' = d ∧ p' = p) ∨ Kept d p older
  | .checked _ :: older => Kept d p older

/-- The policy has a lifetime that fits the word, and the lifetime has not passed. -/
def Policy.Current (p : Policy) (now : Int) : Prop :=
  p.maxAge ≤ maxSeconds ∧ now < p.fetchedAt + p.maxAge * second

/-- The host is the one that the pattern names, or ends with what follows the star. -/
def Admits (pattern mxHost : Bytes) : Prop :=
  hostName mxHost = hostName pattern ∨
    ∃ suffix, hostName pattern = lit "*." ++ suffix ∧
      (hostName mxHost = suffix ∨ ∃ labels, hostName mxHost = labels ++ lit "." ++ suffix)

theorem admits_of_matchesMX (h : p.matchesMX mxHost = true) :
    ∃ pattern ∈ p.mx, Admits pattern mxHost := by
  obtain ⟨pattern, hmem, hmatch⟩ := List.any_eq_true.1 h
  refine ⟨pattern, hmem, ?_⟩
  simp only [matchesPattern, Bool.or_eq_true, beq_iff_eq, Bool.and_eq_true, hasPrefix,
    List.isPrefixOf_iff_prefix, List.isSuffixOf_iff_suffix] at hmatch
  rcases hmatch with heq | ⟨⟨suffix, hsuffix⟩, hhost⟩
  · exact .inl heq.symm
  have hstar : lit "*." = [42, 46] := by decide
  have hdot : lit "." = [46] := by decide
  refine .inr ⟨suffix, hsuffix.symm, ?_⟩
  rw [← hsuffix, hstar] at hhost
  rcases hhost with hsame | ⟨labels, hlabels⟩
  · exact .inl hsame
  · exact .inr ⟨labels, by simpa [hdot] using hlabels.symm⟩

theorem judge_enforced {domain : Bytes} {tlsUsed : Bool}
    (henforced : p.isEnforced now = true) (h : judge (some p) now domain mxHost tlsUsed = none) :
    tlsUsed = true ∧ ∃ pattern ∈ p.mx, Admits pattern mxHost := by
  have hmode : p.mode = .enforce := by
    simp only [Policy.isEnforced, Bool.and_eq_true, beq_iff_eq] at henforced
    exact henforced.1
  by_cases hmatch : p.matchesMX mxHost = true
  · cases tlsUsed with
    | true => exact ⟨rfl, admits_of_matchesMX hmatch⟩
    | false => simp [judge, hmode, hmatch, henforced] at h
  · simp [judge, hmode, hmatch, henforced] at h

/-- What an event of the log says about those before it: an eviction is from a full cache, and a
check is judged by the policy that is still current. -/
def Explained (maxSize : Nat) : Event → List Event → Prop
  | .fetched _ _, _ => True
  | .evicted k cache now, _ =>
    maxSize ≤ cache.length ∧ (∀ d e, (d, e) ∈ cache → now ≤ e.expiresAt) ∧
      ∃ e, (k, e) ∈ cache ∧
        ((∀ e', ([], e') ∉ cache) → ∀ d e', (d, e') ∈ cache → e.expiresAt ≤ e'.expiresAt)
  | .checked c, older =>
    (∀ p, Kept (toLower c.domain) p older → p.Current c.time → c.policy = some p) ∧
    (∀ p, c.policy = some p → p.mode = .enforce → p.Current c.time → c.error = none →
      c.tlsUsed = true ∧ ∃ pattern ∈ p.mx, Admits pattern c.mxHost)

def Accounted (maxSize : Nat) : List Event → Prop
  | [] => True
  | ev :: older => Explained maxSize ev older ∧ Accounted maxSize older

theorem Accounted.of_suffix {maxSize : Nat} {ev : Event} {older log : List Event}
    (h : Accounted maxSize log) (hsuffix : ev :: older <:+ log) : Explained maxSize ev older := by
  induction log with
  | nil => simp at hsuffix
  | cons ev' rest ih =>
    rcases List.suffix_cons_iff.1 hsuffix with heq | hrest
    · obtain ⟨rfl, rfl⟩ := List.cons.inj heq
      exact h.1
    · exact ih h.2 hrest

/-! ## What every step keeps -/

namespace State

variable (s : State) (d : Bytes) (e : Entry) (f : Fetch)

theorem config_makeRoom : s.makeRoom.config = s.config := by
  unfold makeRoom
  split <;> rfl

theorem config_cacheStore : (s.cacheStore d e).config = s.config := by
  unfold cacheStore
  split
  · exact config_makeRoom s
  · rfl

theorem config_fetchAndStore : (s.fetchAndStore d f).1.config = s.config := by
  unfold fetchAndStore
  split <;> simp only [config_cacheStore] <;> rfl

theorem config_getPolicy : (s.getPolicy d f).1.config = s.config := by
  unfold getPolicy
  simp only
  split_ifs
  · split
    · exact config_fetchAndStore s _ f
    · split
      · rfl
      · exact config_fetchAndStore { s with cache := s.cache.erase _ } _ f
  · rfl

end State

theorem config_step (s : State) (input : Input) : (step s input).config = s.config := by
  cases input with
  | lookup domain f => exact s.config_getPolicy domain f
  | check domain mxHost tlsUsed f => exact s.config_getPolicy domain f
  | wait d => rfl
  | reorder cache =>
    simp only [step]
    split <;> rfl

variable (config : Config) (inputs : List Input)

theorem config_run : (Machine.run step (State.init config) inputs).config = config :=
  Machine.run_invariant (fun s => s.config = config)
    (fun s input h => (config_step s input).trans h) rfl inputs

structure Regular (s : State) : Prop where
  distinct : s.cache.Distinct
  dated : ∀ d p, (d, .policy p) ∈ s.cache → p.Dated
  cached : ∀ d p, Kept d p s.events → p.Current s.clock → (d, .policy p) ∈ s.cache
  disabled : s.config.enabled = false → s.cache = []
  accounted : Accounted s.config.maxCacheSize s.events

namespace Regular

variable {s : State}

theorem later (h : Regular s) {t : Int} (hle : s.clock ≤ t) : Regular { s with clock := t } := by
  refine ⟨h.distinct, h.dated, fun d p hkept hcurrent => h.cached d p hkept ?_, h.disabled,
    h.accounted⟩
  exact ⟨hcurrent.1, Int.lt_of_le_of_lt hle hcurrent.2⟩

theorem advance (h : Regular s) (d : Nat) : Regular (s.advance d) :=
  h.later (by omega)

/-- Only entries that have expired are dropped. -/
theorem filter (h : Regular s) (keep : Bytes × Entry → Bool)
    (hdrop : ∀ d e, (d, e) ∈ s.cache → keep (d, e) = false → e.expiresAt ≤ s.clock) :
    Regular { s with cache := s.cache.filter keep } := by
  refine ⟨h.distinct.filter keep, fun d p hmem => h.dated d p (List.mem_filter.1 hmem).1, ?_, ?_,
    h.accounted⟩
  · intro d p hkept hcurrent
    have hmem := h.cached d p hkept hcurrent
    refine List.mem_filter.2 ⟨hmem, ?_⟩
    by_contra hkeep
    have hexpired : p.expiresAt ≤ s.clock := hdrop d _ hmem (Bool.eq_false_iff.2 hkeep)
    rw [(h.dated d p hmem).expiresAt_eq hcurrent.1] at hexpired
    exact Int.not_lt.2 hexpired hcurrent.2
  · intro hoff
    simp [h.disabled hoff]

theorem makeRoom (h : Regular s) : Regular s.makeRoom := by
  have hkept : Regular { s with cache := s.cache.unexpired s.clock } := by
    apply h.filter
    intro d e _ hkeep
    simp only [Bool.not_eq_false', decide_eq_true_eq] at hkeep
    exact Int.le_of_lt hkeep
  unfold State.makeRoom
  split
  · exact hkept
  rename_i k hk
  obtain ⟨hfull, -, e, hmem, hleast⟩ := Cache.victim_spec hk
  refine ⟨hkept.distinct.filter _, ?_, ?_, ?_, ⟨⟨hfull, ?_, e, hmem, hleast⟩, hkept.accounted⟩⟩
  · exact fun d p hrow => hkept.dated d p (Cache.mem_erase.1 hrow).1
  · rintro d p ⟨hne, hkept'⟩ hcurrent
    exact Cache.mem_erase.2 ⟨hkept.cached d p hkept' hcurrent, Ne.symm hne⟩
  · intro hoff
    have hempty : s.cache.unexpired s.clock = [] := hkept.disabled hoff
    rw [hempty] at hmem
    cases hmem
  · exact fun d e' hrow => (Cache.mem_unexpired.1 hrow).2

variable {d : Bytes}

section

variable (h : Regular s) (hnew : ∀ e, (d, e) ∉ s.cache)

include h hnew

theorem insert_negative
    (hon : s.config.enabled = true) (t : Int) : Regular (s.insert d (.negative t)) := by
  have herase : Regular { s with cache := s.cache.erase d } := by
    apply h.filter
    intro d' e hmem hkeep
    obtain rfl : d' = d := by simpa using hkeep
    exact absurd hmem (hnew e)
  refine ⟨herase.distinct.cons ?_, ?_, ?_, ?_, h.accounted⟩
  · exact fun e' hmem => (Cache.mem_erase.1 hmem).2 rfl
  · intro d' p hmem
    rcases List.mem_cons.1 hmem with heq | hmem
    · cases heq
    · exact herase.dated d' p hmem
  · exact fun d' p hkept hcurrent => List.mem_cons_of_mem _ (herase.cached d' p hkept hcurrent)
  · intro hoff
    exact absurd (hon.symm.trans hoff) (by decide)

theorem insert_policy (hon : s.config.enabled = true) (hp : p.Dated) :
    Regular { s.insert d (.policy p) with events := .fetched d p :: s.events } := by
  have hneg : Regular (s.insert d (.negative 0)) := h.insert_negative hnew hon 0
  refine ⟨hneg.distinct, ?_, ?_, ?_, ⟨trivial, h.accounted⟩⟩
  · intro d' p' hmem
    rcases List.mem_cons.1 hmem with heq | hmem
    · obtain ⟨-, heq⟩ := Prod.mk.inj heq
      obtain rfl := Entry.policy.inj heq
      exact hp
    · exact hneg.dated d' p' (List.mem_cons_of_mem _ hmem)
  · rintro d' p' (⟨rfl, rfl⟩ | hkept) hcurrent
    · exact List.mem_cons_self
    · rcases List.mem_cons.1 (hneg.cached d' p' hkept hcurrent) with heq | hmem
      · cases heq
      · exact List.mem_cons_of_mem _ hmem
  · intro hoff
    exact absurd (hon.symm.trans hoff) (by decide)

/-- A domain that is not in the cache is added to it, after room has been made or not. -/
theorem cacheStore_eq :
    ∃ s', Regular s' ∧ (∀ e, (d, e) ∉ s'.cache) ∧ s'.config = s.config ∧
      ∀ entry, s.cacheStore d entry = s'.insert d entry := by
  by_cases hfull : (s.cache.lookup d).isNone ∧ s.config.maxCacheSize ≤ s.cache.length
  · refine ⟨s.makeRoom, h.makeRoom, ?_, ?_, fun entry => if_pos hfull⟩
    · intro e hmem
      have hsub : (d, e) ∈ s.cache.unexpired s.clock := by
        unfold State.makeRoom at hmem
        split at hmem
        · exact hmem
        · exact (Cache.mem_erase.1 hmem).1
      exact hnew e (Cache.mem_unexpired.1 hsub).1
    · unfold State.makeRoom
      split <;> rfl
  · exact ⟨s, h, hnew, rfl, fun entry => if_neg hfull⟩

theorem fetchAndStore (hon : s.config.enabled = true) (f : Fetch) :
    Regular (s.fetchAndStore d f).1 ∧
      ∀ p, (s.fetchAndStore d f).2 = some p ↔ (d, .policy p) ∈ (s.fetchAndStore d f).1.cache := by
  unfold State.fetchAndStore
  have hle := le_fetchPolicy f s.clock
  have hdated : ∀ p, (f.fetchPolicy s.clock).1 = some p → p.Dated := fun p => dated_fetchPolicy
  generalize f.fetchPolicy s.clock = answer at hle hdated ⊢
  obtain ⟨found, now⟩ := answer
  obtain ⟨s', hs', hnew', hconfig, hstore⟩ :=
    ((h.later hle).advance f.storing).cacheStore_eq hnew
  have hon' : s'.config.enabled = true := hconfig ▸ hon
  cases found with
  | none =>
    simp only [hstore]
    refine ⟨hs'.insert_negative hnew' hon' _, fun p => ?_⟩
    simp [State.insert, Cache.mem_erase]
  | some q =>
    simp only [hstore]
    refine ⟨hs'.insert_policy hnew' hon' (hdated q rfl), fun p => ?_⟩
    simp [State.insert, Cache.mem_erase, eq_comm]

end

theorem getPolicy (h : Regular s) (domain : Bytes) (f : Fetch) :
    Regular (s.getPolicy domain f).1 ∧
      ∀ p, (s.getPolicy domain f).2 = some p ↔
        (toLower domain, .policy p) ∈ (s.getPolicy domain f).1.cache := by
  unfold State.getPolicy
  cases hon : s.config.enabled with
  | false => simpa [h.disabled hon] using h
  | true =>
    simp only [if_true]
    cases he : s.cache.lookup (toLower domain) with
    | none => exact h.fetchAndStore ((Cache.lookup_eq_none h.distinct).1 he) hon f
    | some e =>
      by_cases hlive : s.clock < e.expiresAt
      · simp only [if_pos hlive]
        refine ⟨h, fun p => ?_⟩
        rw [← Cache.lookup_eq_some h.distinct, he]
        cases e <;> simp [Entry.policy?]
      simp only [if_neg hlive]
      have herase : Regular { s with cache := s.cache.erase (toLower domain) } := by
        apply h.filter
        intro d e' hmem' hkeep
        obtain rfl : d = toLower domain := by simpa using hkeep
        have hsame := (Cache.lookup_eq_some h.distinct).2 hmem'
        obtain rfl : e = e' := Option.some.inj (he.symm.trans hsame)
        exact Int.not_lt.1 hlive
      exact herase.fetchAndStore (fun e' hrow => (Cache.mem_erase.1 hrow).2 rfl) hon f

theorem enforcePolicy (h : Regular s) (domain mxHost : Bytes) (tlsUsed : Bool) (f : Fetch) :
    Regular (s.enforcePolicy domain mxHost tlsUsed f) := by
  unfold State.enforcePolicy
  obtain ⟨hget, hanswer⟩ := h.getPolicy domain f
  generalize s.getPolicy domain f = answer at hget hanswer ⊢
  obtain ⟨s', policy⟩ := answer
  have hlater := hget.advance f.judging
  refine ⟨hlater.distinct, hlater.dated, hlater.cached, hlater.disabled,
    ⟨⟨?_, ?_⟩, hlater.accounted⟩⟩
  · -- a current policy is in the cache, and what is in the cache is what is answered
    intro p hkept hcurrent
    exact (hanswer p).2 (hlater.cached _ p hkept hcurrent)
  · rintro p rfl hmode hcurrent hpassed
    have hdated : p.Dated := hget.dated _ p ((hanswer p).1 rfl)
    have henforced : p.isEnforced (s'.advance f.judging).clock = true := by
      rw [Policy.isEnforced, hmode, hdated.expiresAt_eq hcurrent.1]
      simpa using hcurrent.2
    exact judge_enforced henforced hpassed

theorem reorder (h : Regular s) {cache : Cache} (hperm : cache.Perm s.cache) :
    Regular { s with cache } := by
  refine ⟨(hperm.map Prod.fst).nodup_iff.2 h.distinct, ?_, ?_, ?_, h.accounted⟩
  · exact fun d p hmem => h.dated d p (hperm.mem_iff.1 hmem)
  · exact fun d p hkept hcurrent => hperm.mem_iff.2 (h.cached d p hkept hcurrent)
  · intro hoff
    have hempty : s.cache = [] := h.disabled hoff
    rw [hempty] at hperm
    exact hperm.eq_nil

theorem step (h : Regular s) (input : Input) : Regular (step s input) := by
  cases input with
  | lookup domain f => exact (h.getPolicy domain f).1
  | check domain mxHost tlsUsed f => exact h.enforcePolicy domain mxHost tlsUsed f
  | wait d => exact h.advance d
  | reorder cache =>
    simp only [Mtasts.step]
    split
    · rename_i hperm
      exact h.reorder hperm
    · exact h

end Regular

theorem regular_init : Regular (State.init config) :=
  ⟨List.nodup_nil, fun _ _ h => (List.not_mem_nil h).elim, fun _ _ h => h.elim, fun _ => rfl,
    trivial⟩

theorem regular_run : Regular (Machine.run step (State.init config) inputs) :=
  Machine.run_invariant Regular (fun _ input h => h.step input) (regular_init config) inputs

/-- Unless its entry has been evicted since, every check within the lifetime of a policy is judged
by that policy, and one that an enforce policy lets through within its lifetime has used TLS to a
host that a pattern of the policy admits. An entry is evicted only from a cache that is full of
unexpired entries, and where every entry has a name none of them expires sooner. -/
theorem judged_by_current_policy :
    (∀ c older, .checked c :: older <:+ (Machine.run step (State.init config) inputs).events →
      (∀ p, Kept (toLower c.domain) p older → p.Current c.time → c.policy = some p) ∧
      (∀ p, c.policy = some p → p.mode = .enforce → p.Current c.time → c.error = none →
        c.tlsUsed = true ∧ ∃ pattern ∈ p.mx, Admits pattern c.mxHost)) ∧
    (∀ k cache now older,
      .evicted k cache now :: older <:+ (Machine.run step (State.init config) inputs).events →
      config.maxCacheSize ≤ cache.length ∧ (∀ d e, (d, e) ∈ cache → now ≤ e.expiresAt) ∧
      ∃ e, (k, e) ∈ cache ∧
        ((∀ e', ([], e') ∉ cache) → ∀ d e', (d, e') ∈ cache → e.expiresAt ≤ e'.expiresAt)) := by
  have haccounted := (regular_run config inputs).accounted
  rw [config_run] at haccounted
  constructor
  · intro c older hsuffix
    exact haccounted.of_suffix hsuffix
  · intro k cache now older hsuffix
    exact haccounted.of_suffix hsuffix

def policyText : Bytes :=
  lit "version: STSv1\nmode: enforce\nmx: *.example.com\nmax_age: 604800\n"

def found : Fetch :=
  { first := some policyText, firstTook := 0, txt := none, second := none, secondTook := 0
    storing := 0, judging := 0 }

def notFound : Fetch :=
  { first := none, firstTook := 0, txt := none, second := none, secondTook := 0
    storing := 0, judging := 0 }

def policyFound : Policy :=
  { mode := .enforce, mx := [lit "*.example.com"], maxAge := 604800, fetchedAt := 0
    expiresAt := 604800 * second }

def dayLater : List Input :=
  [.lookup (lit "Example.com") found, .wait 86400000000000,
    .check (lit "example.com") (lit "mx.example.com") true notFound]

theorem judged_by_current_policy_dayLater :
    ∃ c, .checked c ∈ (Machine.run step (State.init ⟨true, 1000⟩) dayLater).events ∧
      c.policy = some policyFound ∧ c.error = none ∧ c.tlsUsed = true ∧
      ∃ pattern ∈ policyFound.mx, Admits pattern c.mxHost := by
  have h := (judged_by_current_policy ⟨true, 1000⟩ dayLater).1
    { domain := lit "example.com", mxHost := lit "mx.example.com", tlsUsed := true
      time := 86400000000000, policy := some policyFound, error := none }
    [.fetched (lit "example.com") policyFound] ⟨[], by decide +kernel⟩
  have hcurrent : policyFound.Current 86400000000000 := ⟨by decide, by decide⟩
  exact ⟨_, by decide +kernel, h.1 policyFound (.inl ⟨by decide +kernel, rfl⟩) hcurrent, rfl,
    h.2 policyFound rfl rfl hcurrent rfl⟩

/-- In a cache with room for one entry a policy has to go for what is found out about another
domain, and when it is not found again a delivery without TLS passes. -/
def evictedPolicy : List Input :=
  [.lookup (lit "example.com") found, .lookup (lit "other.org") notFound,
    .check (lit "example.com") (lit "mx.other.org") false notFound]

theorem passes_unenforced :
    -- within the lifetime of the policy that was found, no policy judges the delivery
    (.fetched (lit "example.com") policyFound ∈
        (Machine.run step (State.init ⟨true, 1⟩) evictedPolicy).events ∧
      policyFound.mode = .enforce ∧ policyFound.Current 0 ∧
      (Machine.run step (State.init ⟨true, 1⟩) evictedPolicy).events.head? = some (.checked
        { domain := lit "example.com", mxHost := lit "mx.other.org", tlsUsed := false, time := 0
          policy := none, error := none })) ∧
    -- no label, or two of them, in place of the star
    judge (some policyFound) 1 (lit "example.com") (lit "example.com") true = none ∧
    judge (some policyFound) 1 (lit "example.com") (lit "a.b.example.com") true = none := by
  refine ⟨⟨?_, rfl, ⟨?_, ?_⟩, ?_⟩, ?_, ?_⟩
  all_goals decide +kernel

end Elemta.Mtasts
