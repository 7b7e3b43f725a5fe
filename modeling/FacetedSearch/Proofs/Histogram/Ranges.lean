import FacetedSearch.Histogram
import FacetedSearch.Proofs.Double.Order
import FacetedSearch.Proofs.OrderedMap
import Mathlib.Data.List.Pairwise

/-!
# Counting over consecutive ranges

Ranges that follow one another divide the prices from the first bound up to one above the last,
each range without its upper bound and the last beyond it. So counting over them counts every
such price once. What is lost afterwards is lost because two ranges are printed alike.
-/

namespace FacetedSearch.Histogram

open Scale OrderedMap

/-- A range with its limit takes the prices from its lower bound up to the limit. -/
def Takes (t : PriceRange × Float) (x : Float) : Prop := t.1.lower ≤ x ∧ x < t.2

instance (t : PriceRange × Float) (x : Float) : Decidable (Takes t x) :=
  inferInstanceAs (Decidable (_ ∧ _))

/-- Two ranges that share no price. -/
def Apart (t u : PriceRange × Float) : Prop := ∀ x, Takes t x → ¬ Takes u x

instance : Std.Symm Apart where
  symm _ _ h x hu ht := h x ht hu

/-- Prices from the first lower bound up to one above the last upper bound. -/
def Spans (ranges : List PriceRange) (x : Float) : Prop :=
  ∃ first ∈ ranges.head?, ∃ last ∈ ranges.getLast?, first.lower ≤ x ∧ x < last.upper + 1

instance (ranges : List PriceRange) (x : Float) : Decidable (Spans ranges x) :=
  inferInstanceAs (Decidable (∃ first ∈ ranges.head?, ∃ last ∈ ranges.getLast?, _))

/-- Each range ends where the next one begins, and the last can be widened. -/
def Consecutive : List PriceRange → Prop
  | [] => True
  | [r] => r.lower ≤ r.upper ∧ r.upper ≤ r.upper + 1
  | r :: s :: rs =>
    r.lower ≤ r.upper ∧ r.upper ≤ s.lower ∧ s.lower ≤ r.upper ∧ Consecutive (s :: rs)

theorem spans_singleton (r : PriceRange) (x : Float) :
    Spans [r] x ↔ Takes (r, r.upper + 1) x := by
  simp [Spans, Takes]

theorem spans_cons_cons (r s : PriceRange) (rs : List PriceRange) (x : Float) :
    Spans (r :: s :: rs) x ↔
      ∃ last ∈ (s :: rs).getLast?, r.lower ≤ x ∧ x < last.upper + 1 := by
  simp [Spans, List.getLast?_cons_cons]

/-- The first bound is not above the last limit. -/
theorem Consecutive.lower_le {r : PriceRange} {rs : List PriceRange}
    (h : Consecutive (r :: rs)) : ∀ last ∈ (r :: rs).getLast?, r.lower ≤ last.upper + 1 := by
  induction rs generalizing r with
  | nil =>
      intro last hlast
      obtain rfl : r = last := by simpa using hlast
      exact Double.le_trans h.1 h.2
  | cons s rs ih =>
      intro last hlast
      rw [List.getLast?_cons_cons] at hlast
      exact Double.le_trans h.1 (Double.le_trans h.2.1 (ih h.2.2.2 last hlast))

/-- The first range takes what lies below the others, and the others share the rest. -/
theorem Consecutive.spans_cons {r s : PriceRange} {rs : List PriceRange}
    (h : Consecutive (r :: s :: rs)) (x : Float) :
    Spans (r :: s :: rs) x ↔ Takes (r, r.upper) x ∨ Spans (s :: rs) x := by
  obtain ⟨hr, hrs, hsr, hrest⟩ := h
  rw [spans_cons_cons]
  constructor
  · rintro ⟨last, hlast, hlow, hhigh⟩
    rcases Double.lt_or_le (Double.lt_iff.mp hhigh).1 (Double.le_iff.mp hr).2.1 with hx | hx
    · exact .inl ⟨hlow, hx⟩
    · exact .inr ⟨s, rfl, last, hlast, Double.le_trans hsr hx, hhigh⟩
  · rintro (⟨hlow, hhigh⟩ | ⟨first, hfirst, last, hlast, hlow, hhigh⟩)
    · obtain ⟨last, hlast⟩ : ∃ last, (s :: rs).getLast? = some last :=
        ⟨_, List.getLast?_eq_some_getLast (by simp)⟩
      exact ⟨last, hlast, hlow,
        Double.lt_of_lt_of_le hhigh (Double.le_trans hrs (hrest.lower_le last hlast))⟩
    · obtain rfl : s = first := by simpa using hfirst
      exact ⟨last, hlast, Double.le_trans hr (Double.le_trans hrs hlow), hhigh⟩

theorem withLimits_cons_cons (r s : PriceRange) (rs : List PriceRange) :
    withLimits (r :: s :: rs) = (r, r.upper) :: withLimits (s :: rs) := rfl

theorem mem_withLimits {ranges : List PriceRange} {t : PriceRange × Float}
    (h : t ∈ withLimits ranges) :
    t.1 ∈ ranges ∧
      (t.2 = t.1.upper ∨ ranges.getLast? = some t.1 ∧ t.2 = t.1.upper + 1) := by
  induction ranges with
  | nil => cases h
  | cons r rs ih =>
      cases rs with
      | nil =>
          obtain rfl := List.mem_singleton.mp h
          exact ⟨List.mem_cons_self, .inr ⟨rfl, rfl⟩⟩
      | cons s rs =>
          rcases List.mem_cons.mp h with rfl | h
          · exact ⟨List.mem_cons_self, .inl rfl⟩
          · obtain ⟨hmem, hlimit⟩ := ih h
            exact ⟨List.mem_cons_of_mem _ hmem, by rwa [List.getLast?_cons_cons]⟩

/-- The ranges share out the prices in their span. -/
structure Partition (ranges : List PriceRange) : Prop where
  exists_takes_iff : ∀ x, (∃ t ∈ withLimits ranges, Takes t x) ↔ Spans ranges x
  disjoint : (withLimits ranges).Pairwise Apart

theorem Consecutive.partition {ranges : List PriceRange} (h : Consecutive ranges) :
    Partition ranges := by
  induction ranges with
  | nil => exact ⟨by simp [withLimits, Spans], .nil⟩
  | cons r rs ih =>
      cases rs with
      | nil => exact ⟨by simp [withLimits, spans_singleton], List.pairwise_singleton _ _⟩
      | cons s rs =>
          have hrest := ih h.2.2.2
          constructor
          · intro x
            rw [h.spans_cons, ← hrest.exists_takes_iff, withLimits_cons_cons]
            simp
          · refine List.Pairwise.cons ?_ hrest.disjoint
            intro u hu x hr hux
            obtain ⟨first, hfirst, last, -, hlow, -⟩ :=
              (hrest.exists_takes_iff x).mp ⟨u, hu, hux⟩
            obtain rfl : s = first := by simpa using hfirst
            exact Double.not_lt_of_le (Double.le_trans h.2.1 hlow) hr.2

/-- Ranges that take nothing share out an empty span. -/
theorem partition_of_not_takes {ranges : List PriceRange}
    (htakes : ∀ t ∈ withLimits ranges, ∀ x, ¬ Takes t x) (hspans : ∀ x, ¬ Spans ranges x) :
    Partition ranges where
  exists_takes_iff x := by
    constructor
    · rintro ⟨t, ht, hx⟩
      exact absurd hx (htakes t ht x)
    · intro h
      exact absurd h (hspans x)
  disjoint := List.pairwise_of_forall_mem_list fun t ht _ _ x hx => absurd hx (htakes t ht x)

theorem totalCount_filter_or {p q : PricePoint → Prop} [DecidablePred p] [DecidablePred q]
    {prices : List PricePoint} (h : ∀ x ∈ prices, p x → ¬ q x) :
    totalCount (prices.filter fun x => p x ∨ q x) =
      totalCount (prices.filter fun x => p x) + totalCount (prices.filter fun x => q x) := by
  induction prices with
  | nil => rfl
  | cons x prices ih =>
      have hrest := ih fun y hy => h y (List.mem_cons_of_mem _ hy)
      have hx := h x List.mem_cons_self
      by_cases hp : p x
      · simp only [List.filter_cons, hp, hx hp, or_false, decide_true, decide_false, if_true,
          Bool.false_eq_true, if_false, totalCount, hrest]
        omega
      · by_cases hq : q x
        · simp only [List.filter_cons, hp, hq, or_true, decide_true, decide_false, if_true,
            Bool.false_eq_true, if_false, totalCount, hrest]
          omega
        · simp only [List.filter_cons, hp, hq, or_self, decide_false, Bool.false_eq_true,
            if_false, hrest]

theorem countBetween_eq (prices : List PricePoint) (r : PriceRange) (limit : Float) :
    countBetween prices r.lower limit =
      totalCount (prices.filter fun p => Takes (r, limit) p.1) :=
  congrArg totalCount (List.filter_congr fun _ _ => (Bool.decide_and _ _).symm)

theorem exists_takes_of_countBetween_pos {prices : List PricePoint} {t : PriceRange × Float}
    (h : 0 < countBetween prices t.1.lower t.2) : ∃ p ∈ prices, Takes t p.1 := by
  rw [countBetween_eq] at h
  have hne : prices.filter (fun p => Takes t p.1) ≠ [] := by
    intro hnil
    rw [hnil] at h
    exact absurd h (lt_irrefl 0)
  obtain ⟨p, hp⟩ := List.exists_mem_of_ne_nil _ hne
  exact ⟨p, (List.mem_filter.mp hp).1, of_decide_eq_true (List.mem_filter.mp hp).2⟩

/-- Counted over ranges that share no price, each price that is taken at all counts once. -/
theorem sum_countBetween {ts : List (PriceRange × Float)}
    (h : ts.Pairwise Apart) (prices : List PricePoint) :
    (ts.map fun t => countBetween prices t.1.lower t.2).sum =
      totalCount (prices.filter fun p => ∃ t ∈ ts, Takes t p.1) := by
  induction ts with
  | nil => simp [totalCount]
  | cons t ts ih =>
      obtain ⟨hfirst, hrest⟩ := List.pairwise_cons.mp h
      have hdisjoint : ∀ p ∈ prices, Takes t p.1 → ¬ ∃ u ∈ ts, Takes u p.1 := by
        rintro p - ht ⟨u, hu, hup⟩
        exact hfirst u hu p.1 ht hup
      simp only [List.exists_mem_cons_iff, List.map_cons, List.sum_cons]
      rw [ih hrest, totalCount_filter_or hdisjoint, countBetween_eq]

/-- What is reported for a range, if any price lies in it. -/
def reported? (prices : List PricePoint) (decimals : ℕ) (t : PriceRange × Float) :
    Option (String × BucketValue) :=
  if countBetween prices t.1.lower t.2 = 0 then none
  else
    some (rangeKey decimals t.1,
      { value := rangeKey decimals t.1
        count := countBetween prices t.1.lower t.2
        lower := some t.1.lower
        upper := some t.1.upper })

def reported (prices : List PricePoint) (ranges : List PriceRange) :
    List (String × BucketValue) :=
  (withLimits ranges).filterMap (reported? prices (boundDecimals ranges))

theorem reported?_eq_some {prices : List PricePoint} {decimals : ℕ} {t : PriceRange × Float}
    {e : String × BucketValue} (h : reported? prices decimals t = some e) :
    0 < countBetween prices t.1.lower t.2 ∧ e = (rangeKey decimals t.1,
      { value := rangeKey decimals t.1
        count := countBetween prices t.1.lower t.2
        lower := some t.1.lower
        upper := some t.1.upper }) := by
  rw [reported?] at h
  split_ifs at h with hzero
  exact ⟨Nat.pos_of_ne_zero hzero, (Option.some.inj h).symm⟩

theorem countInRanges_eq (prices : List PricePoint) (ranges : List PriceRange) :
    countInRanges prices ranges = .ofList (reported prices ranges) := by
  unfold countInRanges reported OrderedMap.ofList
  dsimp only
  generalize (∅ : Bucket) = bucket
  induction withLimits ranges generalizing bucket with
  | nil => rfl
  | cons t ts ih =>
      rw [List.foldl_cons, ih, List.filterMap_cons, reported?]
      split_ifs with hzero <;> rfl

/-- Whatever is found in the bucket was reported for a range. -/
theorem mem_reported_of_mem_countInRanges {prices : List PricePoint} {ranges : List PriceRange}
    {e : String × BucketValue} (h : e ∈ (countInRanges prices ranges).entries) :
    ∃ t ∈ withLimits ranges, reported? prices (boundDecimals ranges) t = some e := by
  rw [countInRanges_eq, ← get?_eq_some_iff] at h
  exact List.mem_filterMap.mp (mem_of_get?_ofList h)

theorem total_reported (prices : List PricePoint) (ranges : List PriceRange) :
    total BucketValue.count (reported prices ranges) =
      ((withLimits ranges).map fun t => countBetween prices t.1.lower t.2).sum := by
  unfold reported
  induction withLimits ranges with
  | nil => rfl
  | cons t ts ih =>
      rw [List.filterMap_cons, List.map_cons, List.sum_cons, ← ih, reported?]
      split_ifs with hzero
      · rw [hzero, Nat.zero_add]
      · rw [total_cons]

theorem totalCount_filter_le (p : PricePoint → Bool) (prices : List PricePoint) :
    totalCount (prices.filter p) ≤ totalCount prices := by
  induction prices with
  | nil => rfl
  | cons x prices ih =>
      rw [List.filter_cons]
      split_ifs
      · exact Nat.add_le_add_left ih _
      · exact ih.trans (Nat.le_add_left _ _)

/-- Nothing is lost by a filter that keeps all prices that anything was counted for. -/
theorem totalCount_filter_eq_iff {p : PricePoint → Bool} {prices : List PricePoint} :
    totalCount (prices.filter p) = totalCount prices ↔ ∀ x ∈ prices, 0 < x.2 → p x = true := by
  induction prices with
  | nil => simp
  | cons x prices ih =>
      have hle := totalCount_filter_le p prices
      rw [List.forall_mem_cons, ← ih, List.filter_cons]
      by_cases hp : p x = true
      · simp only [hp, if_true, totalCount, implies_true, true_and]
        omega
      · simp only [hp, if_false, totalCount, imp_false, Bool.false_eq_true]
        omega

end FacetedSearch.Histogram
