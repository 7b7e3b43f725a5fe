import FacetedSearch.Proofs.Scale.Nice

/-!
# Exact axes

The step of an axis comes from two roundings: the span is rounded up to a nice range, and the share
of a tick in it to a close nice number. Without any other rounding the axis encloses its range
within a step on both sides, and the two roundings together move the number of its intervals by
bounded factors only.
-/

namespace FacetedSearch.Scale

theorem axis_eq {lower upper range step : ℚ} {ticks : ℕ} (hlt : lower < upper) (ht : 2 ≤ ticks)
    (hrange : niceNumber .up (upper - lower) = .ok range)
    (hstep : niceNumber .close (range / (ticks - 1 : ℕ)) = .ok step) :
    axis lower upper ticks = .ok
      { lower := floor (lower / step) * step, upper := ceil (upper / step) * step, step } := by
  unfold axis
  rw [if_neg (not_lt.mpr ht), if_neg (not_le.mpr hlt)]
  change (niceNumber .up (upper - lower) >>= fun range =>
    niceNumber .close (range / (ticks - 1 : ℕ)) >>= _) = _
  rw [hrange]
  change (niceNumber .close (range / (ticks - 1 : ℕ)) >>= _) = _
  rw [hstep]
  rfl

/-- Over every range of rationals and for two ticks or more there is an axis. Its step is a nice
number, it encloses the range, and it has more than 6/25 and, but for the two that are cut at the
ends, less than 3/2 of the intervals between as many ticks as were asked for. -/
theorem axis_encloses {lower upper : ℚ} {ticks : ℕ} (hlt : lower < upper) (ht : 2 ≤ ticks) :
    ∃ a, axis lower upper ticks = .ok a ∧ Nice a.step ∧
      Encloses a.step a.lower a.upper lower upper ∧
      6 * ((ticks : ℚ) - 1) / 25 < (a.upper - a.lower) / a.step ∧
      (a.upper - a.lower) / a.step < 3 * ((ticks : ℚ) - 1) / 2 + 2 := by
  have hcast : ((ticks - 1 : ℕ) : ℚ) = ticks - 1 := Nat.cast_pred (by omega)
  have hticks : (0 : ℚ) < (ticks - 1 : ℕ) := Nat.cast_pos.mpr (by omega)
  obtain ⟨range, hrange, ⟨⟨-, hspan⟩, -⟩, hspan'⟩ := niceNumber_up (sub_pos.mpr hlt)
  have hshare : 0 < range / (ticks - 1 : ℕ) := div_pos ((sub_pos.mpr hlt).trans_le hspan) hticks
  obtain ⟨step, hstep, hnice, hclose, hclose'⟩ := niceNumber_close hshare
  have hpos : 0 < step := by linarith
  -- the range measured in steps between as many ticks as were asked for
  have hwide : 2 * range < 3 * (step * (ticks - 1 : ℕ)) := by
    have h := mul_lt_mul_of_pos_right hclose hticks
    rwa [mul_assoc, mul_assoc, div_mul_cancel₀ _ hticks.ne'] at h
  have hnarrow : 3 * (step * (ticks - 1 : ℕ)) ≤ 5 * range := by
    have h := mul_le_mul_of_nonneg_right hclose' hticks.le
    rwa [mul_assoc, mul_assoc, div_mul_cancel₀ _ hticks.ne'] at h
  have hencloses := encloses hpos lower upper
  refine ⟨_, axis_eq hlt ht hrange hstep, hnice, hencloses, ?_, ?_⟩
  · rw [lt_div_iff₀ hpos, ← hcast]
    linarith [hencloses.range_le]
  · rw [div_lt_iff₀ hpos, ← hcast]
    linarith [hencloses.lt_range_add]

/-- Five ticks are asked for, and the axis has three intervals. The nice range over 118 is 200 and
its share 50. -/
theorem axis_encloses_with_fewer_ticks :
    (12 : ℚ) < 130 ∧ 2 ≤ 5 ∧ (axis (12 : ℚ) 130 5).toOption = some ⟨0, 150, 50⟩ ∧
      Nice 50 ∧ Encloses 50 0 150 12 130 := by
  have hlt : (12 : ℚ) < 130 := by norm_num
  have hcomputed : (axis (12 : ℚ) 130 5).toOption = some ⟨0, 150, 50⟩ := by decide +kernel
  obtain ⟨a, haxis, hnice, hencloses, -⟩ := axis_encloses hlt (show 2 ≤ 5 by decide)
  rw [haxis] at hcomputed
  obtain rfl : a = ⟨0, 150, 50⟩ := Option.some.inj hcomputed
  exact ⟨hlt, by decide, congrArg Except.toOption haxis, hnice, hencloses⟩

end FacetedSearch.Scale
