import FacetedSearch.PriceCache
import FacetedSearch.Proofs.OrderedMap
import Mathlib.Data.Set.Card

/-!
# Price caches over whole runs

What a cache remembers is fixed by what could be seen of it before: for each scope the price that
was loaded last and when that was, unless the scope was forgotten since. A look-up answers the
remembered price until it has lived out its time, and asks the source otherwise. Where entries live
for no time at all, every look-up asks, but the cache remembers and forgets in the same way.
-/

namespace FacetedSearch

/-- A map has as many entries as keys that find something. -/
theorem OrderedMap.size_eq_ncard {κ α : Type} [DecidableEq κ] (m : OrderedMap κ α) :
    m.size = {k | (m.get? k).isSome}.ncard := by
  have hset : {k | (m.get? k).isSome} = (m.keys.toFinset : Set κ) := by
    ext k
    rw [List.coe_toFinset, Set.mem_ofPred_eq, Set.mem_ofPred_eq, mem_keys_iff]
  have hkeys : m.keys.Nodup := m.nodup_keys
  rw [hset, Set.ncard_coe_finset, List.toFinset_card_of_nodup hkeys]
  exact (List.length_map _).symm

namespace PriceCache

open OrderedMap

/-- One use of a cache. -/
inductive Use where
  | lookup (scope : Scope) (source : Scope → Except Fault Float) (moment : Moment)
  | invalidate (scope : Scope)
  | clear

/-- What can be seen of one use: of a look-up also when it was, whether and for which scope the
source was asked, and the answer. -/
inductive Event where
  | lookup (scope : Scope) (moment : Moment) (asked : Option Scope) (answer : Except Fault Float)
  | invalidate (scope : Scope)
  | clear

def Use.apply : Use → PriceCache → PriceCache
  | .lookup scope source moment, c => (c.getOrLoad scope source moment).cache
  | .invalidate scope, c => c.invalidate scope
  | .clear, c => c.clear

def Use.event : Use → PriceCache → Event
  | .lookup scope source moment, c =>
    let found := c.getOrLoad scope source moment
    .lookup scope moment found.asked found.answer
  | .invalidate scope, _ => .invalidate scope
  | .clear, _ => .clear

/-- A new cache after a run of uses, the latest use first. -/
def after (lifetime : ℕ) : List Use → PriceCache
  | [] => { lifetime }
  | u :: earlier => u.apply (after lifetime earlier)

/-- What was seen of a run, the latest event first. -/
def history (lifetime : ℕ) : List Use → List Event
  | [] => []
  | u :: earlier => u.event (after lifetime earlier) :: history lifetime earlier

/-- The price that the source gave for a scope when it was last asked with success, and when that
was, unless the scope was forgotten since. -/
def lastLoad (scope : Scope) : List Event → Option PriceEntry
  | [] => none
  | .lookup scope' moment (some _) (.ok price) :: earlier =>
    if scope = scope' then some ⟨moment.answered, price⟩ else lastLoad scope earlier
  | .lookup _ _ _ _ :: earlier => lastLoad scope earlier
  | .invalidate scope' :: earlier => if scope = scope' then none else lastLoad scope earlier
  | .clear :: _ => none

section Steps

variable (c : PriceCache) (scope : Scope) (source : Scope → Except Fault Float) (moment : Moment)

/-- All that a look-up can do: answer what may still be used, or ask the source for the scope and
remember its price. -/
theorem getOrLoad_cases :
    (∃ price, c.fresh? scope moment.asked = some price ∧
      c.getOrLoad scope source moment = { answer := .ok price, asked := none, cache := c }) ∨
    c.fresh? scope moment.asked = none ∧
      ((∃ price, source scope = .ok price ∧
        c.getOrLoad scope source moment =
          { answer := .ok price, asked := some scope,
            cache := { c with entries := c.entries.insert scope ⟨moment.answered, price⟩ } }) ∨
      ∃ fault, source scope = .error fault ∧
        c.getOrLoad scope source moment =
          { answer := .error fault, asked := some scope, cache := c }) := by
  unfold getOrLoad
  cases hfresh : c.fresh? scope moment.asked with
  | some price => exact .inl ⟨price, rfl, rfl⟩
  | none =>
      cases hsource : source scope with
      | ok price => exact .inr ⟨rfl, .inl ⟨price, rfl, rfl⟩⟩
      | error fault => exact .inr ⟨rfl, .inr ⟨fault, rfl, rfl⟩⟩

variable {c scope source moment}

theorem getOrLoad_of_fresh {price : Float} (h : c.fresh? scope moment.asked = some price) :
    c.getOrLoad scope source moment = { answer := .ok price, asked := none, cache := c } := by
  rw [getOrLoad, h]

/-- Without a price that may still be used the source is asked, and what it gives is the answer. -/
theorem asks_of_not_fresh (h : c.fresh? scope moment.asked = none) :
    (c.getOrLoad scope source moment).asked = some scope ∧
      (c.getOrLoad scope source moment).answer = source scope := by
  obtain ⟨price, hprice, -⟩ | ⟨-, ⟨price, hsource, he⟩ | ⟨fault, hsource, he⟩⟩ :=
    c.getOrLoad_cases scope source moment
  · rw [h] at hprice
    cases hprice
  · rw [he, hsource]
    exact ⟨rfl, rfl⟩
  · rw [he, hsource]
    exact ⟨rfl, rfl⟩

theorem cache_getOrLoad_of_error {fault : Fault}
    (h : (c.getOrLoad scope source moment).answer = .error fault) :
    (c.getOrLoad scope source moment).cache = c := by
  obtain ⟨price, -, he⟩ | ⟨-, ⟨price, -, he⟩ | ⟨other, -, he⟩⟩ :=
    c.getOrLoad_cases scope source moment
  · rw [he]
  · rw [he] at h
    cases h
  · rw [he]

/-- A remembered price may be used until it has lived out its time. -/
theorem fresh?_of_get? {e : PriceEntry} (h : c.entries.get? scope = some e) (now : Instant) :
    c.fresh? scope now = if now - e.loadedAt < c.lifetime then some e.price else none := by
  rw [fresh?, h, Option.filter_some, PriceEntry.isFresh]
  by_cases hfresh : now - e.loadedAt < c.lifetime <;> simp [hfresh]

theorem fresh?_of_get?_eq_none (h : c.entries.get? scope = none) (now : Instant) :
    c.fresh? scope now = none := by
  rw [fresh?, h]
  rfl

end Steps

section Runs

variable (lifetime : ℕ) (us : List Use)

theorem lifetime_after : (after lifetime us).lifetime = lifetime := by
  induction us with
  | nil => rfl
  | cons u us ih =>
      cases u with
      | lookup scope source moment =>
          change ((after lifetime us).getOrLoad scope source moment).cache.lifetime = lifetime
          obtain ⟨_, -, he⟩ | ⟨-, ⟨_, -, he⟩ | ⟨_, -, he⟩⟩ :=
            (after lifetime us).getOrLoad_cases scope source moment <;> rw [he] <;> exact ih
      | invalidate scope => exact ih
      | clear => exact ih

/-- A cache remembers the price of each scope that was loaded last, and nothing else. -/
theorem get?_entries_after (scope : Scope) :
    (after lifetime us).entries.get? scope = lastLoad scope (history lifetime us) := by
  induction us with
  | nil => rfl
  | cons u us ih =>
      rw [after, history]
      cases u with
      | lookup scope' source moment =>
          rw [Use.apply, Use.event]
          obtain ⟨price, -, he⟩ | ⟨-, ⟨price, -, he⟩ | ⟨fault, -, he⟩⟩ :=
            (after lifetime us).getOrLoad_cases scope' source moment
          · rw [he]
            exact ih
          · rw [he]
            simp only [get?_insert, lastLoad, ih]
          · rw [he]
            exact ih
      | invalidate scope' =>
          simp only [Use.apply, Use.event, invalidate, get?_erase, lastLoad, ih]
      | clear => rfl

/-- A cache over any run of uses is a plain map of what was loaded and not forgotten. As long as a
remembered load has not lived out its time, a look-up asks the source exactly if the scope is not in
the map. A load that has is made again at every look-up until it succeeds, so a cache whose entries
live for no time asks always. A load that fails changes nothing, and the size of the cache is the
number of scopes in the map. -/
theorem after_refines_map :
    (∀ (scope : Scope) (source : Scope → Except Fault Float) (moment : Moment),
      let found := (after lifetime us).getOrLoad scope source moment
      let loaded := lastLoad scope (history lifetime us)
      ((∀ e ∈ loaded, moment.asked - e.loadedAt < lifetime) →
        (found.asked = some scope ↔ loaded = none) ∧ (found.asked = none ↔ loaded.isSome) ∧
        (loaded = none → found.answer = source scope) ∧
        ∀ e ∈ loaded, found.answer = .ok e.price) ∧
      (∀ e ∈ loaded, lifetime ≤ moment.asked - e.loadedAt →
        found.asked = some scope ∧ found.answer = source scope) ∧
      (lifetime = 0 → found.asked = some scope ∧ found.answer = source scope) ∧
      (∀ fault, found.answer = .error fault → found.cache = after lifetime us)) ∧
    (after lifetime us).size =
      {scope | (lastLoad scope (history lifetime us)).isSome}.ncard ∧
    ((after lifetime us).isEmpty = true ↔ (after lifetime us).size = 0) := by
  have hget := get?_entries_after lifetime us
  have hlifetime := lifetime_after lifetime us
  refine ⟨fun scope source moment => ?_, ?_, List.isEmpty_iff_length_eq_zero⟩
  · intro found loaded
    have hmiss (h : loaded = none) : found.asked = some scope ∧ found.answer = source scope :=
      asks_of_not_fresh (fresh?_of_get?_eq_none ((hget scope).trans h) _)
    have hstale (e : PriceEntry) (he : e ∈ loaded) (hage : lifetime ≤ moment.asked - e.loadedAt) :
        found.asked = some scope ∧ found.answer = source scope := by
      refine asks_of_not_fresh ?_
      rw [fresh?_of_get? ((hget scope).trans he), hlifetime, if_neg (Nat.not_lt.mpr hage)]
    have hhit (e : PriceEntry) (he : e ∈ loaded) (hage : moment.asked - e.loadedAt < lifetime) :
        found.asked = none ∧ found.answer = .ok e.price := by
      have hfresh : (after lifetime us).fresh? scope moment.asked = some e.price := by
        rw [fresh?_of_get? ((hget scope).trans he), hlifetime, if_pos hage]
      have hfound : found = _ := getOrLoad_of_fresh hfresh
      rw [hfound]
      exact ⟨rfl, rfl⟩
    refine ⟨fun hlives => ?_, hstale, fun hzero => ?_, fun fault => cache_getOrLoad_of_error⟩
    · cases hloaded : loaded with
      | none => simp [hmiss hloaded]
      | some e => simp [hhit e hloaded (hlives e hloaded)]
    · cases hloaded : loaded with
      | none => exact hmiss hloaded
      | some e => exact hstale e hloaded (hzero ▸ Nat.zero_le _)
  · simp only [← hget]
    exact size_eq_ncard _

end Runs

/-- In a cache of one minute the price of the first scope is a hit until a minute has passed since
it was loaded. The load for the second scope failed and the third scope was forgotten, so the source
is asked for both. Where entries live for no time, a load that fails leaves the price before it. -/
theorem after_refines_map_of_minute :
    let second := 1000000000
    let gives (price : Float) : Scope → Except Fault Float := fun _ => .ok price
    let fails : Scope → Except Fault Float := fun scope => .error (.priceKeyUnavailable scope)
    let us : List Use := [
      .lookup 2 fails ⟨31 * second, 32 * second, by decide⟩,
      .invalidate 3,
      .lookup 3 (gives 30) ⟨3 * second, 3 * second, by decide⟩,
      .lookup 1 (gives 10) ⟨1 * second, 2 * second, by decide⟩]
    let minute := after (60 * second) us
    let early : Moment := ⟨62 * second - 1, 63 * second, by decide⟩
    let late : Moment := ⟨62 * second, 63 * second, by decide⟩
    let never := after 0 [.lookup 1 (gives 10) ⟨0, 0, by decide⟩]
    let again : Moment := ⟨0, 0, by decide⟩
    ((minute.getOrLoad 1 (gives 11) early).asked = none ∧
      (minute.getOrLoad 1 (gives 11) early).answer = .ok 10) ∧
    ((minute.getOrLoad 1 (gives 11) late).asked = some 1 ∧
      (minute.getOrLoad 1 (gives 11) late).answer = .ok 11) ∧
    ((minute.getOrLoad 2 (gives 20) early).asked = some 2 ∧
      (minute.getOrLoad 2 (gives 20) early).answer = .ok 20) ∧
    (minute.getOrLoad 3 fails early).asked = some 3 ∧ minute.size = 1 ∧
    ((never.getOrLoad 1 fails again).asked = some 1 ∧
      (never.getOrLoad 1 fails again).answer = .error (.priceKeyUnavailable 1) ∧
      (never.getOrLoad 1 fails again).cache = never ∧ never.size = 1) := by
  intro second gives fails us minute early late never again
  obtain ⟨hlookup, -, -⟩ := after_refines_map (60 * second) us
  obtain ⟨hlookup', -, -⟩ := after_refines_map 0 [.lookup 1 (gives 10) ⟨0, 0, by decide⟩]
  have hfirst : lastLoad 1 (history (60 * second) us) = some ⟨2 * second, 10⟩ := rfl
  have hsecond : lastLoad 2 (history (60 * second) us) = none := rfl
  have hthird : lastLoad 3 (history (60 * second) us) = none := rfl
  have hhit := (hlookup 1 (gives 11) early).1 (by rw [hfirst]; simp; decide)
  have hstale := (hlookup 1 (gives 11) late).2.1 _ hfirst (by decide)
  have hfailed := (hlookup 2 (gives 20) early).1 (by rw [hsecond]; nofun)
  have hforgotten := (hlookup 3 fails early).1 (by rw [hthird]; nofun)
  obtain ⟨-, -, hzero, hfault⟩ := hlookup' 1 fails again
  refine ⟨⟨hhit.2.1.mpr (by rw [hfirst]; rfl), hhit.2.2.2 _ hfirst⟩, hstale,
    ⟨hfailed.1.mpr hsecond, hfailed.2.2.1 hsecond⟩, hforgotten.1.mpr hthird, rfl, ?_⟩
  exact ⟨(hzero rfl).1, (hzero rfl).2, hfault _ (hzero rfl).2, rfl⟩

end PriceCache

end FacetedSearch
