import FacetedSearch.Proofs.Double.Whole
import FacetedSearch.Scale.Double

/-!
# Bounds of nice intervals

The bounds of the intervals are the start and multiples of the step added to it. In doubles each
is rounded twice, but none comes before the one with a smaller number, unless the start is
infinite already.
-/

namespace FacetedSearch.Scale

section

variable {α : Type} [ScaleNumber α]

theorem collect_eq_ok {start step : α} {count : ℕ} {ranges : List (Interval α)}
    (h : collect start step count = .ok ranges) :
    ranges = (List.range count).map (interval start step) := by
  unfold collect at h
  split_ifs at h
  exact (Outcome.ok.inj h).symm

theorem collect_eq_crash_iff {start step : α} {count : ℕ} :
    collect start step count = .crash ↔ holdsIntervals α count = false := by
  unfold collect
  split_ifs with h <;> simp [h]

variable [DecidableLT α]

theorem mem_of_foldl_bounds (vs : List α) (b : α × α) :
    let c := vs.foldl (fun (b : α × α) v =>
      (if v < b.1 then v else b.1, if b.2 < v then v else b.2)) b
    (c.1 = b.1 ∨ c.1 ∈ vs) ∧ (c.2 = b.2 ∨ c.2 ∈ vs) := by
  induction vs generalizing b with
  | nil => exact ⟨.inl rfl, .inl rfl⟩
  | cons v vs ih =>
      obtain ⟨hleast, hgreatest⟩ :=
        ih (if v < b.1 then v else b.1, if b.2 < v then v else b.2)
      simp only [List.foldl_cons, List.mem_cons]
      constructor
      · rcases hleast with hleast | hleast
        · rw [hleast]
          split_ifs <;> simp
        · exact .inr (.inr hleast)
      · rcases hgreatest with hgreatest | hgreatest
        · rw [hgreatest]
          split_ifs <;> simp
        · exact .inr (.inr hgreatest)

theorem isFinite_of_bounds {values : List α} {least greatest : α}
    (h : bounds values = some (least, greatest)) :
    isFinite least = true ∧ isFinite greatest = true := by
  unfold bounds at h
  split at h
  · cases h
  · rename_i v vs hvalues
    have hfin : ∀ x ∈ v :: vs, isFinite x = true := fun x hx =>
      (List.mem_filter.mp (hvalues ▸ hx : x ∈ values.filter isFinite)).2
    obtain ⟨hleast, hgreatest⟩ := mem_of_foldl_bounds vs (v, v)
    rw [Option.some.inj h] at hleast hgreatest
    constructor
    · exact hfin least (List.mem_cons.mpr hleast)
    · exact hfin greatest (List.mem_cons.mpr hgreatest)

variable [DecidableLE α]

theorem niceNumber_eq_ok {rounding : Rounding} {value x : α}
    (h : niceNumber rounding value = .ok x) :
    x = ofNat (niceDigit rounding (value / powerOfTen (logFloor value))) *
      powerOfTen (logFloor value) := by
  unfold niceNumber at h
  split_ifs at h
  cases h
  rfl

/-- The intervals are empty or counted off from the start in steps. -/
theorem intervals_eq_ok {values : List α} {maxBuckets : ℕ} {ranges : List (Interval α)}
    (h : intervals values maxBuckets = .ok ranges) :
    ranges = [] ∨ ∃ least greatest step, bounds values = some (least, greatest) ∧
      niceNumber .up ((greatest - least) / ofNat maxBuckets) = .ok step ∧
      ranges = (List.range (roundToNat
        ((ceil (greatest / step) * step - floor (least / step) * step) / step))).map
          (interval (floor (least / step) * step) step) := by
  unfold intervals at h
  split_ifs at h
  split at h
  · cases h
    exact .inl rfl
  · rename_i least greatest hbounds
    dsimp only at h
    split_ifs at h
    · cases h
      exact .inl rfl
    · cases hstep : niceNumber .up ((greatest - least) / ofNat maxBuckets) with
      | error fault =>
          rw [hstep] at h
          cases h
      | ok step =>
          rw [hstep] at h
          exact .inr ⟨least, greatest, step, hbounds, hstep, collect_eq_ok h⟩

/-- Computing intervals crashes exactly if there cannot be a list of as many as were counted. -/
theorem intervals_eq_crash_iff {values : List α} {maxBuckets : ℕ} :
    intervals values maxBuckets = .crash ↔ maxBuckets ≠ 0 ∧
      ∃ least greatest step, bounds values = some (least, greatest) ∧
        (greatest - least == ofNat 0) = false ∧
        niceNumber .up ((greatest - least) / ofNat maxBuckets) = .ok step ∧
        holdsIntervals α (roundToNat
          ((ceil (greatest / step) * step - floor (least / step) * step) / step)) = false := by
  unfold intervals
  constructor
  · intro h
    split_ifs at h with hmax
    refine ⟨hmax, ?_⟩
    split at h
    · cases h
    · rename_i least greatest hbounds
      dsimp only at h
      split_ifs at h with hspan
      cases hstep : niceNumber .up ((greatest - least) / ofNat maxBuckets) with
      | error fault =>
          rw [hstep] at h
          cases h
      | ok step =>
          rw [hstep] at h
          exact ⟨least, greatest, step, hbounds, by simpa using hspan, hstep,
            collect_eq_crash_iff.mp h⟩
  · rintro ⟨hmax, least, greatest, step, hbounds, hspan, hstep, hcount⟩
    rw [if_neg hmax, hbounds]
    dsimp only
    rw [if_neg (by simp [hspan]), hstep]
    exact collect_eq_crash_iff.mpr hcount

end

section

/-- The bounds of some numbers lie on both sides of what they were taken from. -/
theorem foldl_bounds_spec {vs : List Float} (hvs : ∀ v ∈ vs, v.isNaN = false) {b : Float × Float}
    (hb : b.1.isNaN = false ∧ b.2.isNaN = false) :
    let c := vs.foldl (fun (b : Float × Float) v =>
      (if v < b.1 then v else b.1, if b.2 < v then v else b.2)) b
    (c.1 ≤ b.1 ∧ b.2 ≤ c.2) ∧ ∀ v ∈ vs, c.1 ≤ v ∧ v ≤ c.2 := by
  induction vs generalizing b with
  | nil => exact ⟨⟨Double.le_refl hb.1, Double.le_refl hb.2⟩, by simp⟩
  | cons v vs ih =>
      have hv := hvs v List.mem_cons_self
      have hleast : (if v < b.1 then v else b.1) ≤ b.1 ∧ (if v < b.1 then v else b.1) ≤ v := by
        split_ifs with h
        · exact ⟨Double.le_of_lt h, Double.le_refl hv⟩
        · exact ⟨Double.le_refl hb.1, (Double.lt_or_le hv hb.1).resolve_left h⟩
      have hgreatest : b.2 ≤ (if b.2 < v then v else b.2) ∧ v ≤ (if b.2 < v then v else b.2) := by
        split_ifs with h
        · exact ⟨Double.le_of_lt h, Double.le_refl hv⟩
        · exact ⟨Double.le_refl hb.2, (Double.lt_or_le hb.2 hv).resolve_left h⟩
      obtain ⟨⟨hlow, hhigh⟩, hrest⟩ := ih (fun u hu => hvs u (List.mem_cons_of_mem v hu))
        (b := (if v < b.1 then v else b.1, if b.2 < v then v else b.2))
        ⟨(Double.le_iff.mp hleast.1).1, (Double.le_iff.mp hgreatest.1).2.1⟩
      rw [List.foldl_cons]
      refine ⟨⟨Double.le_trans hlow hleast.1, Double.le_trans hgreatest.1 hhigh⟩, ?_⟩
      rintro u hu
      rcases List.mem_cons.mp hu with rfl | hu
      · exact ⟨Double.le_trans hlow hleast.2, Double.le_trans hgreatest.2 hhigh⟩
      · exact hrest u hu

/-- The bounds are the least and the greatest of the finite values. -/
theorem bounds_spec {values : List Float} {least greatest : Float}
    (h : bounds values = some (least, greatest)) :
    (least ∈ values.filter isFinite ∧ greatest ∈ values.filter isFinite) ∧
      ∀ v ∈ values.filter isFinite, least ≤ v ∧ v ≤ greatest := by
  unfold bounds at h
  split at h
  · cases h
  · rename_i v vs hvalues
    rw [hvalues]
    have hnum : ∀ x ∈ v :: vs, x.isNaN = false := fun x hx =>
      Double.isNaN_of_isFinite (List.mem_filter.mp (hvalues ▸ hx : x ∈ values.filter isFinite)).2
    have hv := hnum v List.mem_cons_self
    obtain ⟨hleast, hgreatest⟩ := mem_of_foldl_bounds vs (v, v)
    obtain ⟨hfirst, hrest⟩ := foldl_bounds_spec (fun x hx => hnum x (List.mem_cons_of_mem v hx))
      (b := (v, v)) ⟨hv, hv⟩
    rw [Option.some.inj h] at hleast hgreatest hfirst hrest
    refine ⟨⟨List.mem_cons.mpr hleast, List.mem_cons.mpr hgreatest⟩, ?_⟩
    intro x hx
    rcases List.mem_cons.mp hx with rfl | hx
    · exact hfirst
    · exact hrest x hx

end

section

variable {start step : Float}

theorem unsigned_of_niceNumber {rounding : Rounding} {value : Float}
    (h : niceNumber rounding value = .ok step) : Double.Unsigned step := by
  rw [niceNumber_eq_ok h]
  exact (Double.unsigned_ofNat _).mul (Double.unsigned_powerOfTen _)

theorem isNaN_of_roundToNat_pos {x : Float} (h : 0 < Double.roundToNat x) : x.isNaN = false := by
  rw [Double.isNaN_eq_false_iff]
  intro hnan
  unfold Double.roundToNat Double.value at h
  rw [hnan] at h
  exact absurd h (lt_irrefl 0)

theorem roundToNat_lt (x : Float) : Double.roundToNat x < 2 ^ 64 := by
  unfold Double.roundToNat
  split
  · exact (Nat.min_le_right _ _).trans_lt (by decide)
  · decide
  · decide

/-- A step that is infinite leaves no start: the least value is zero steps away from zero. -/
theorem isFinite_step {least : Float} (hleast : least.isFinite = true)
    (hstart : (Double.floor (least / step) * step).isNaN = false) : step.isFinite = true := by
  cases hfin : step.isFinite with
  | true => rfl
  | false =>
      obtain ⟨s, hs⟩ := Double.unpack_of_not_isFinite (Double.isNaN_of_isNaN_mul hstart).2 hfin
      obtain ⟨r, hr⟩ := Double.unpack_div_of_infinite hleast hs
      have hfloor : Double.floor (least / step) = least / step := by
        unfold Double.floor Double.value
        rw [hr]
        rfl
      rw [hfloor, Double.isNaN_eq_false_iff] at hstart
      exact absurd (Double.unpack_mul_of_infinite hr hs) hstart

/-- The step of the intervals over some values, if there are two different ones among them. -/
def step? (values : List Float) (maxBuckets : ℕ) : Option Float :=
  (bounds values).bind fun b =>
    (niceNumber .up ((b.2 - b.1) / ofNat maxBuckets)).toOption

/-- Where there are intervals, their start is a number and their step a finite one. -/
structure CountedOff (values : List Float) (maxBuckets : ℕ) (least greatest step : Float)
    (n : ℕ) : Prop where
  bounds_eq : bounds values = some (least, greatest)
  step_eq : niceNumber .up ((greatest - least) / ofNat maxBuckets) = .ok step
  number_eq : Double.roundToNat ((Double.ceil (greatest / step) * step -
    Double.floor (least / step) * step) / step) = n
  number_lt : n < 2 ^ 64
  isNaN_start : (Double.floor (least / step) * step).isNaN = false
  isFinite_step : step.isFinite = true
  unsigned_step : Double.Unsigned step

theorem exists_countedOff {values : List Float} {maxBuckets : ℕ} {ranges : List (Interval Float)}
    (h : intervals values maxBuckets = .ok ranges) :
    ranges = [] ∨ ∃ least greatest step n, CountedOff values maxBuckets least greatest step n ∧
      ranges = (List.range n).map (interval (Double.floor (least / step) * step) step) := by
  obtain rfl | ⟨least, greatest, step, hbounds, hstep, rfl⟩ := intervals_eq_ok h
  · exact .inl rfl
  · generalize hcount : roundToNat (_ : Float) = n
    rcases Nat.eq_zero_or_pos n with rfl | hpos
    · exact .inl rfl
    · have hratio := isNaN_of_roundToNat_pos (hcount ▸ hpos)
      have hstart := (Double.isNaN_of_isNaN_sub (Double.isNaN_of_isNaN_div hratio).1).2
      exact .inr ⟨least, greatest, step, n, {
        bounds_eq := hbounds
        step_eq := hstep
        number_eq := hcount
        number_lt := hcount ▸ roundToNat_lt _
        isNaN_start := hstart
        isFinite_step := isFinite_step (isFinite_of_bounds hbounds).1 hstart
        unsigned_step := unsigned_of_niceNumber hstep }, rfl⟩

theorem CountedOff.step?_eq {values : List Float} {maxBuckets : ℕ} {least greatest step : Float}
    {n : ℕ} (h : CountedOff values maxBuckets least greatest step n) :
    step? values maxBuckets = some step := by
  unfold step?
  rw [h.bounds_eq, Option.bind_some, h.step_eq]
  rfl

/-- A whole step has whole bounds, however they are rounded. -/
theorem whole_interval {least step : Float} (hstep : Double.Whole step) (i : ℕ) :
    Double.Whole (interval (Double.floor (least / step) * step) step i).lower ∧
      Double.Whole (interval (Double.floor (least / step) * step) step i).upper :=
  have hstart := (Double.whole_floor (least / step)).mul hstep
  ⟨hstart.add ((Double.whole_ofNat i).mul hstep),
    hstart.add ((Double.whole_ofNat (i + 1)).mul hstep)⟩

/-- Bounds with greater numbers do not come earlier. -/
theorem lower_le_lower (hstart : start.isNaN = false)
    (hlow : Double.units start ≠ -(Double.infinityUnits : ℤ)) (hstep : step.isFinite = true)
    (hsign : Double.Unsigned step) {i j : ℕ} (hij : i ≤ j) (hj : j ≤ 2 ^ 64) :
    (interval start step i).lower ≤ (interval start step j).lower := by
  have hfin (k : ℕ) (hk : k ≤ 2 ^ 64) : (Float.ofNat k).isFinite = true :=
    Double.isFinite_ofNat hk
  have hsum (k : ℕ) (hk : k ≤ 2 ^ 64) : (start + Float.ofNat k * step).isNaN = false := by
    have hnonneg := ((Double.unsigned_ofNat k).mul hsign).units_nonneg
    have hinf := Double.infinityUnits_pos
    exact Double.isNaN_add_of_low hstart (Double.isNaN_mul (hfin k hk) hstep) hlow (by omega)
  refine Double.add_le_add_left ?_ (hsum i (hij.trans hj)) (hsum j hj)
  exact Double.mul_le_mul_right (Double.ofNat_le_ofNat hij) (hfin i (hij.trans hj)) (hfin j hj)
    hstep hsign.units_nonneg

end

end FacetedSearch.Scale
