import FacetedSearch.Proofs.Scale.Nice
import Mathlib.Data.List.Chain
import Mathlib.Data.List.MinMax

/-!
# Exact intervals cover all values

Without rounding the intervals over some values are what they are meant to be. Their width is the
least nice number that is not below the share of the span, they lie one after another between
multiples of the width, and every value belongs to one. There is at most one more than was asked
for, and more than two fifths of that number.
-/

namespace FacetedSearch.Scale

/-- Intervals of one width, one after another, that begin and end at multiples of the width. -/
structure Tiled (step : ℚ) (ranges : List (Interval ℚ)) : Prop where
  width : ∀ r ∈ ranges, r.upper - r.lower = step
  multiples : ∀ r ∈ ranges, ∃ j k : ℤ, r.lower = j * step ∧ r.upper = k * step
  consecutive : ranges.IsChain fun r s => r.upper = s.lower

/-- What intervals take in: the first contains the least value, and the last contains the greatest
or ends there. -/
structure Spans (ranges : List (Interval ℚ)) (least greatest : ℚ) : Prop where
  first : ∃ r, ranges.head? = some r ∧ r.lower ≤ least ∧ least < r.upper
  last : ∃ r, ranges.getLast? = some r ∧ r.lower ≤ greatest ∧ greatest ≤ r.upper
  /-- A value that no interval contains is where the last one ends. -/
  covered : ∀ v, least ≤ v → v ≤ greatest →
    ∃ r ∈ ranges, r.lower ≤ v ∧ (v < r.upper ∨ ranges.getLast? = some r ∧ v = r.upper)

/-! ## The least and the greatest value -/

theorem foldl_bounds_eq (vs : List ℚ) (b : ℚ × ℚ) :
    vs.foldl (fun (b : ℚ × ℚ) v => (if v < b.1 then v else b.1, if b.2 < v then v else b.2)) b =
      (vs.foldl min b.1, vs.foldl max b.2) := by
  induction vs generalizing b with
  | nil => rfl
  | cons v vs ih =>
      rw [List.foldl_cons, ih, List.foldl_cons, List.foldl_cons, min_comm, min_def_lt, max_def_lt]

theorem exists_bounds {values : List ℚ} (h : values ≠ []) :
    ∃ least greatest, bounds values = some (least, greatest) ∧
      IsLeast {v | v ∈ values} least ∧ IsGreatest {v | v ∈ values} greatest := by
  have hfinite : values.filter isFinite = values := List.filter_eq_self.mpr fun _ _ => rfl
  obtain ⟨v, vs, rfl⟩ := List.exists_cons_of_ne_nil h
  refine ⟨vs.foldl min v, vs.foldl max v, ?_, ?_, ?_⟩
  · unfold bounds
    rw [hfinite]
    exact congrArg some (foldl_bounds_eq vs (v, v))
  · exact List.min?_eq_some_iff.mp List.min?_cons'
  · exact List.max?_eq_some_iff.mp List.max?_cons'

/-! ## Intervals by number -/

section

variable {step : ℚ} {j : ℤ}

theorem lower_interval (step : ℚ) (j : ℤ) (i : ℕ) :
    (interval (j * step) step i).lower = (j + i : ℤ) * step := by
  change j * step + (i : ℚ) * step = _
  push_cast
  ring

theorem upper_interval (step : ℚ) (j : ℤ) (i : ℕ) :
    (interval (j * step) step i).upper = (j + i + 1 : ℤ) * step := by
  change j * step + ((i + 1 : ℕ) : ℚ) * step = _
  push_cast
  ring

theorem tiled_interval (step : ℚ) (j : ℤ) (c : ℕ) :
    Tiled step ((List.range c).map (interval (j * step) step)) where
  width := by
    simp only [List.mem_map]
    rintro _ ⟨i, -, rfl⟩
    rw [lower_interval, upper_interval]
    push_cast
    ring
  multiples := by
    simp only [List.mem_map]
    rintro _ ⟨i, -, rfl⟩
    exact ⟨_, _, lower_interval step j i, upper_interval step j i⟩
  consecutive := by
    rw [List.isChain_map, List.isChain_range]
    intro i _
    rw [lower_interval, upper_interval]
    push_cast
    ring

variable {k : ℤ}

theorem head?_interval (step : ℚ) (h : j < k) :
    ∃ r, ((List.range (k - j).toNat).map (interval (j * step) step)).head? = some r ∧
      r.lower = j * step ∧ r.upper = (j + 1 : ℤ) * step := by
  refine ⟨interval (j * step) step 0, ?_, ?_, ?_⟩
  · rw [List.head?_map, List.head?_range, if_neg (by omega)]
    rfl
  · rw [lower_interval, Nat.cast_zero, add_zero]
  · rw [upper_interval, Nat.cast_zero, add_zero]

theorem getLast?_interval (step : ℚ) (h : j < k) :
    ∃ r, ((List.range (k - j).toNat).map (interval (j * step) step)).getLast? = some r ∧
      r.lower = (k - 1 : ℤ) * step ∧ r.upper = k * step := by
  have hnumber : j + ((k - j).toNat - 1 : ℕ) = k - 1 := by omega
  refine ⟨interval (j * step) step ((k - j).toNat - 1), ?_, ?_, ?_⟩
  · rw [List.getLast?_map, List.getLast?_range, if_neg (by omega)]
    rfl
  · rw [lower_interval, hnumber]
  · rw [upper_interval, hnumber, sub_add_cancel]

theorem mem_interval (step : ℚ) {i : ℤ} (hj : j ≤ i) (hk : i < k) :
    ∃ r ∈ (List.range (k - j).toNat).map (interval (j * step) step),
      r.lower = i * step ∧ r.upper = (i + 1 : ℤ) * step := by
  have hnumber : j + ((i - j).toNat : ℕ) = i := by omega
  refine ⟨interval (j * step) step (i - j).toNat, ?_, ?_, ?_⟩
  · exact List.mem_map_of_mem (List.mem_range.mpr (by omega))
  · rw [lower_interval, hnumber]
  · rw [upper_interval, hnumber]

variable {least greatest : ℚ}

theorem Encloses.lt_of_lt (h : Encloses step (j * step) (k * step) least greatest)
    (hstep : 0 < step) (hlt : least < greatest) : j < k := by
  have hmul : (j : ℚ) * step < k * step := by linarith [h.bottom_le, h.le_top]
  exact_mod_cast lt_of_mul_lt_mul_right hmul hstep.le

theorem Encloses.spans (h : Encloses step (j * step) (k * step) least greatest)
    (hstep : 0 < step) (hjk : j < k) :
    Spans ((List.range (k - j).toNat).map (interval (j * step) step)) least greatest := by
  obtain ⟨first, hfirst, hfirstlow, hfirsthigh⟩ := head?_interval step hjk
  obtain ⟨last, hlast, hlastlow, hlasthigh⟩ := getLast?_interval step hjk
  push_cast [add_mul, sub_mul] at hfirsthigh hlastlow
  refine ⟨⟨first, hfirst, ?_, ?_⟩, ⟨last, hlast, ?_, ?_⟩, ?_⟩
  · exact hfirstlow.trans_le h.bottom_le
  · linarith [h.lt_bottom_add]
  · linarith [h.top_sub_lt]
  · exact h.le_top.trans_eq hlasthigh.symm
  · intro v hleast hgreatest
    have hv := encloses hstep v v
    obtain ⟨i, -, hi, -⟩ := hv.multiples
    rw [hi] at hv
    rcases lt_or_ge i k with hik | hki
    · have hji : j ≤ i := by
        have hmul : (j : ℚ) * step < (i + 1 : ℤ) * step := by
          push_cast [add_mul]
          linarith [h.bottom_le, hv.lt_bottom_add]
        have : j < i + 1 := by exact_mod_cast lt_of_mul_lt_mul_right hmul hstep.le
        omega
      obtain ⟨r, hr, hlower, hupper⟩ := mem_interval step hji hik
      push_cast [add_mul] at hupper
      exact ⟨r, hr, hlower.trans_le hv.bottom_le, .inl (by linarith [hv.lt_bottom_add])⟩
    · -- only the end of the last interval is left
      have hmul : (k : ℚ) * step ≤ i * step :=
        mul_le_mul_of_nonneg_right (Int.cast_le.mpr hki) hstep.le
      have hend : v = last.upper := by linarith [h.le_top, hv.bottom_le]
      exact ⟨last, List.mem_of_getLast? hlast, by linarith, .inr ⟨hlast, hend⟩⟩

/-- The number of intervals by how the width compares with the share of the span. -/
theorem Encloses.number_bounds (h : Encloses step (j * step) (k * step) least greatest)
    (hstep : 0 < step) (hjk : j < k) {n : ℕ} (hn : (0 : ℚ) < n)
    (hshare : (greatest - least) / n ≤ step) (hratio : 2 * step < 5 * ((greatest - least) / n)) :
    2 * (n : ℚ) / 5 < (k - j).toNat ∧ (k - j).toNat ≤ n + 1 := by
  have hnumber : (((k - j).toNat : ℕ) : ℚ) * step = k * step - j * step := by
    rw [← Int.cast_natCast, Int.toNat_of_nonneg (by omega), Int.cast_sub, sub_mul]
  rw [div_le_iff₀ hn] at hshare
  rw [mul_div_assoc', lt_div_iff₀ hn] at hratio
  constructor
  · refine lt_of_mul_lt_mul_right ?_ hstep.le
    linarith [h.range_le]
  · have hlt : (((k - j).toNat : ℕ) : ℚ) < (n + 2 : ℕ) := by
      refine lt_of_mul_lt_mul_right ?_ hstep.le
      push_cast
      linarith [h.lt_range_add]
    exact Nat.le_of_lt_succ (Nat.cast_lt.mp hlt)

end

/-! ## All intervals -/

theorem roundToNat_multiples {step : ℚ} (hstep : 0 < step) (j k : ℤ) :
    roundToNat ((k * step - j * step) / step) = (k - j).toNat := by
  have hnumber : ((k : ℚ) * step - j * step) / step = (k - j : ℤ) := by
    rw [← sub_mul, mul_div_cancel_right₀ _ hstep.ne', Int.cast_sub]
  have hhalf : ⌊(1 / 2 : ℚ)⌋ = 0 := by norm_num
  rw [hnumber]
  change ⌊((k - j : ℤ) : ℚ) + 1 / 2⌋.toNat = _
  rw [Int.floor_intCast_add, hhalf, add_zero]

theorem intervals_eq {values : List ℚ} {n : ℕ} {least greatest step : ℚ} (hn : 1 ≤ n)
    (hbounds : bounds values = some (least, greatest)) (hlt : least < greatest)
    (hstep : niceNumber .up ((greatest - least) / n) = .ok step) :
    intervals values n = .ok ((List.range (roundToNat
      ((ceil (greatest / step) * step - floor (least / step) * step) / step))).map
        (interval (floor (least / step) * step) step)) := by
  have hspan : ¬ ((greatest - least == ofNat 0) = true) := by
    change ¬ ((greatest - least == (0 : ℚ)) = true)
    rw [beq_iff_eq, sub_eq_zero]
    exact hlt.ne'
  unfold intervals
  rw [if_neg (by omega), hbounds]
  dsimp only
  rw [if_neg hspan]
  rw [show niceNumber .up ((greatest - least) / ofNat n) = .ok step from hstep]
  rfl

/-- Over any rationals of which two differ, and for any positive number of buckets, there are
intervals. Their width is the least nice number not below the share of the span, they lie one after
another between multiples of it and take in all values, and their number is right up to one more
and down to two fifths. -/
theorem intervals_cover {values : List ℚ} {n : ℕ} (hn : 1 ≤ n)
    (htwo : ∃ a ∈ values, ∃ b ∈ values, a ≠ b) :
    ∃ least greatest step ranges,
      IsLeast {v | v ∈ values} least ∧ IsGreatest {v | v ∈ values} greatest ∧
      intervals values n = .ok ranges ∧
      IsLeast {x | Nice x ∧ (greatest - least) / n ≤ x} step ∧
      Tiled step ranges ∧ Spans ranges least greatest ∧
      2 * (n : ℚ) / 5 < ranges.length ∧ ranges.length ≤ n + 1 := by
  obtain ⟨a, ha, b, hb, hab⟩ := htwo
  obtain ⟨least, greatest, hbounds, hleast, hgreatest⟩ := exists_bounds (List.ne_nil_of_mem ha)
  have hlt : least < greatest := by
    refine lt_of_not_ge fun hle => hab ?_
    exact le_antisymm ((hgreatest.2 ha).trans (hle.trans (hleast.2 hb)))
      ((hgreatest.2 hb).trans (hle.trans (hleast.2 ha)))
  have hn' : (0 : ℚ) < n := Nat.cast_pos.mpr hn
  have hshare : 0 < (greatest - least) / n := div_pos (sub_pos.mpr hlt) hn'
  obtain ⟨step, hstep, hnice, hratio⟩ := niceNumber_up hshare
  have hpos : 0 < step := hshare.trans_le hnice.1.2
  have hranges := intervals_eq hn hbounds hlt hstep
  have hencloses := encloses hpos least greatest
  obtain ⟨j, k, hj, hk⟩ := hencloses.multiples
  rw [hj, hk] at hencloses hranges
  rw [roundToNat_multiples hpos] at hranges
  have hjk := hencloses.lt_of_lt hpos hlt
  have hnumber := hencloses.number_bounds hpos hjk hn' hnice.1.2 hratio
  refine ⟨least, greatest, step, _, hleast, hgreatest, hranges, hnice, tiled_interval step j _,
    hencloses.spans hpos hjk, ?_⟩
  rwa [List.length_map, List.length_range]

/-- Four buckets are asked for, and five intervals are needed: both ends of the span lie within a
step. -/
theorem intervals_cover_across_zero :
    let values : List ℚ := [2, -1 / 3, 7 / 2]
    let ranges : List (Interval ℚ) := [⟨-1, 0⟩, ⟨0, 1⟩, ⟨1, 2⟩, ⟨2, 3⟩, ⟨3, 4⟩]
    1 ≤ 4 ∧ (∃ a ∈ values, ∃ b ∈ values, a ≠ b) ∧
      (intervals values 4).toOption = some ranges ∧ Tiled 1 ranges ∧
      Spans ranges (-1 / 3) (7 / 2) := by
  intro values ranges
  have htwo : ∃ a ∈ values, ∃ b ∈ values, a ≠ b := by decide +kernel
  have hcomputed : (intervals values 4).toOption = some ranges := by decide +kernel
  have hleast : IsLeast {v | v ∈ values} (-1 / 3) :=
    ⟨show _ ∈ values by decide +kernel, show ∀ v ∈ values, -1 / 3 ≤ v by decide +kernel⟩
  have hgreatest : IsGreatest {v | v ∈ values} (7 / 2) :=
    ⟨show _ ∈ values by decide +kernel, show ∀ v ∈ values, v ≤ 7 / 2 by decide +kernel⟩
  obtain ⟨least, greatest, step, ranges', hleast', hgreatest', hranges, -, htiled, hspans, -⟩ :=
    intervals_cover (show 1 ≤ 4 by decide) htwo
  rw [hranges] at hcomputed
  obtain rfl : ranges' = ranges := Option.some.inj hcomputed
  obtain rfl := hleast'.unique hleast
  obtain rfl := hgreatest'.unique hgreatest
  have hwidth : (0 : ℚ) - -1 = step := htiled.width ⟨-1, 0⟩ List.mem_cons_self
  obtain rfl : step = 1 := by linarith
  exact ⟨by decide, htwo, congrArg Outcome.toOption hranges, htiled, hspans⟩

end FacetedSearch.Scale
