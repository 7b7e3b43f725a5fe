import FacetedSearch.Paging
import Mathlib.Data.Nat.Basic
import Mathlib.Tactic.Linarith

/-!
# Paging over whole runs

A page obtained from a number or from an offset may be changed any number of times, and any of
the changes may be refused. The offset is always that of the first item of the page, computed
without a bound, and always fits a word. A refused change leaves the page as it was.
-/

namespace FacetedSearch.Paging

/-- What holds of a page at all times. -/
structure Consistent (p : Paging) : Prop where
  one_le_pageSize : 1 ≤ p.pageSize
  one_le_pageNumber : 1 ≤ p.pageNumber
  offset_eq : p.offset = (p.pageNumber - 1) * p.pageSize
  offset_lt : p.offset < Text.wordLimit

/-- One change of a page, and what it is asked for. -/
inductive Change where
  | pageNumber (n : ℕ)
  | pageSize (n : ℕ)
  | offset (n : ℕ)
deriving Repr, DecidableEq

def Change.argument : Change → ℕ
  | .pageNumber n => n
  | .pageSize n => n
  | .offset n => n

def Change.apply : Change → Paging → Attempt Paging
  | .pageNumber n, p => p.setPageNumber n
  | .pageSize n, p => p.setPageSize n
  | .offset n, p => p.setOffset n

/-- The page after a run of changes, refused ones included. -/
def after (p : Paging) : List Change → Paging
  | [] => p
  | c :: cs => (c.apply p).state.after cs

/-- A page as it is first made. -/
inductive Made : Paging → Prop
  | ofPage {pageNumber pageSize : ℕ} {p : Paging} : pageNumber < Text.wordLimit →
      pageSize < Text.wordLimit → Paging.ofPage pageNumber pageSize = .ok p → Made p
  | ofOffset {offset pageSize : ℕ} {p : Paging} : offset < Text.wordLimit →
      pageSize < Text.wordLimit → Paging.ofOffset offset pageSize = .ok p → Made p

theorem offsetOf_eq_ok_iff {pageNumber pageSize offset : ℕ} :
    offsetOf pageNumber pageSize = .ok offset ↔
      offset = (pageNumber - 1) * pageSize ∧ offset < Text.wordLimit := by
  unfold offsetOf
  dsimp only
  split_ifs with h
  · simp only [Except.ok.injEq]
    exact ⟨fun he => ⟨he.symm, he ▸ h⟩, fun he => he.1.symm⟩
  · simp only [false_iff, not_and]
    rintro rfl
    exact h

/-- The page that a change leads to when it is not refused. -/
def moved (pageNumber pageSize : ℕ) : Paging :=
  { pageNumber, pageSize, offset := (pageNumber - 1) * pageSize }

theorem setPageNumber_cases (p : Paging) (n : ℕ) :
    (∃ fault, p.setPageNumber n = .failed p fault) ∨
      (max n 1 - 1) * p.pageSize < Text.wordLimit ∧
        p.setPageNumber n = .done (moved (max n 1) p.pageSize) := by
  unfold setPageNumber
  dsimp only
  cases h : offsetOf (max n 1) p.pageSize with
  | error fault => exact .inl ⟨fault, rfl⟩
  | ok offset =>
      obtain ⟨rfl, hlt⟩ := offsetOf_eq_ok_iff.mp h
      exact .inr ⟨hlt, rfl⟩

theorem setPageSize_cases (p : Paging) (n : ℕ) :
    (∃ fault, p.setPageSize n = .failed p fault) ∨
      1 ≤ n ∧ (p.pageNumber - 1) * n < Text.wordLimit ∧
        p.setPageSize n = .done (moved p.pageNumber n) := by
  unfold setPageSize
  split_ifs with hn
  · exact .inl ⟨_, rfl⟩
  · cases h : offsetOf p.pageNumber n with
    | error fault => exact .inl ⟨fault, rfl⟩
    | ok offset =>
        obtain ⟨rfl, hlt⟩ := offsetOf_eq_ok_iff.mp h
        exact .inr ⟨Nat.one_le_iff_ne_zero.mpr hn, hlt, rfl⟩

theorem setOffset_cases (p : Paging) (n : ℕ) :
    (∃ fault, p.setOffset n = .failed p fault) ∨
      n / p.pageSize + 1 < Text.wordLimit ∧ n / p.pageSize * p.pageSize < Text.wordLimit ∧
        p.setOffset n = .done (moved (n / p.pageSize + 1) p.pageSize) := by
  unfold setOffset
  dsimp only
  split_ifs with hn
  · have h := setPageNumber_cases p (n / p.pageSize + 1)
    rw [Nat.max_eq_left (Nat.le_add_left 1 _), Nat.add_sub_cancel] at h
    exact h.imp_right fun h => ⟨hn, h⟩
  · exact .inl ⟨_, rfl⟩

/-- All that a change can do: it is refused and leaves the page, or it leads to a page whose
offset fits a word. The page number and the size come from the page or from the argument. -/
theorem Change.apply_cases (c : Change) (p : Paging) :
    (∃ fault, c.apply p = .failed p fault) ∨
      ∃ number size, c.apply p = .done (moved number size) ∧
        (number - 1) * size < Text.wordLimit ∧
        (number = p.pageNumber ∨ number = max c.argument 1 ∨
          1 ≤ number ∧ number < Text.wordLimit) ∧
        (size = p.pageSize ∨ size = c.argument ∧ 1 ≤ size) := by
  cases c with
  | pageNumber n =>
      exact (setPageNumber_cases p n).imp_right fun ⟨hlt, h⟩ =>
        ⟨_, _, h, hlt, .inr (.inl rfl), .inl rfl⟩
  | pageSize n =>
      exact (setPageSize_cases p n).imp_right fun ⟨hn, hlt, h⟩ =>
        ⟨_, _, h, hlt, .inl rfl, .inr ⟨rfl, hn⟩⟩
  | offset n =>
      exact (setOffset_cases p n).imp_right fun ⟨hn, hlt, h⟩ =>
        ⟨_, _, h, hlt, .inr (.inr ⟨Nat.le_add_left 1 _, hn⟩), .inl rfl⟩

theorem Change.state_of_refused {c : Change} {p : Paging} {fault : Fault}
    (h : (c.apply p).fault? = some fault) : (c.apply p).state = p := by
  obtain ⟨other, he⟩ | ⟨number, size, he, -⟩ := c.apply_cases p
  · rw [he, Attempt.failed]
  · rw [he, Attempt.done] at h
    cases h

theorem Consistent.apply {p : Paging} (hp : p.Consistent) (c : Change) :
    (c.apply p).state.Consistent := by
  obtain ⟨fault, he⟩ | ⟨number, size, he, hlt, hnumber, hsize⟩ := c.apply_cases p
  · rw [he]
    exact hp
  · have hn := hp.one_le_pageNumber
    have hs := hp.one_le_pageSize
    rw [he]
    exact ⟨show 1 ≤ size by omega, show 1 ≤ number by omega, rfl, hlt⟩

theorem Consistent.after {p : Paging} (hp : p.Consistent) (cs : List Change) :
    (p.after cs).Consistent := by
  induction cs generalizing p with
  | nil => exact hp
  | cons c cs ih => exact ih (hp.apply c)

/-- Whether the page number and the size fit a word. -/
def Fits (p : Paging) : Prop := p.pageNumber < Text.wordLimit ∧ p.pageSize < Text.wordLimit

theorem Fits.apply {p : Paging} (hp : p.Fits) {c : Change} (hc : c.argument < Text.wordLimit) :
    (c.apply p).state.Fits := by
  obtain ⟨fault, he⟩ | ⟨number, size, he, -, hnumber, hsize⟩ := c.apply_cases p
  · rw [he]
    exact hp
  · have hone : 1 < Text.wordLimit := by decide
    obtain ⟨hn, hs⟩ := hp
    rw [he]
    exact ⟨show number < Text.wordLimit by omega, show size < Text.wordLimit by omega⟩

theorem Fits.after {p : Paging} (hp : p.Fits) {cs : List Change}
    (hcs : ∀ c ∈ cs, c.argument < Text.wordLimit) : (p.after cs).Fits := by
  induction cs generalizing p with
  | nil => exact hp
  | cons c cs ih =>
      exact ih (hp.apply (hcs c List.mem_cons_self)) fun d hd => hcs d (List.mem_cons_of_mem c hd)

theorem moved_consistent {pageNumber pageSize : ℕ} (hn : 1 ≤ pageNumber) (hs : 1 ≤ pageSize)
    (h : (pageNumber - 1) * pageSize < Text.wordLimit) : (moved pageNumber pageSize).Consistent :=
  ⟨hs, hn, rfl, h⟩

theorem ofPage_eq_ok {pageNumber pageSize : ℕ} {p : Paging}
    (h : Paging.ofPage pageNumber pageSize = .ok p) :
    1 ≤ pageSize ∧ (max pageNumber 1 - 1) * pageSize < Text.wordLimit ∧
      p = moved (max pageNumber 1) pageSize := by
  unfold Paging.ofPage at h
  split_ifs at h with hs
  have hstart : (⟨1, pageSize, 0⟩ : Paging) = moved 1 pageSize := by simp [moved]
  rw [hstart] at h
  obtain ⟨fault, he⟩ | ⟨hlt, he⟩ := setPageNumber_cases (moved 1 pageSize) pageNumber
  · rw [he] at h
    cases h
  · rw [he] at h
    cases h
    exact ⟨Nat.one_le_iff_ne_zero.mpr hs, hlt, rfl⟩

/-- The page made for an offset is the one that contains it. -/
theorem ofOffset_eq_ok {offset pageSize : ℕ} {p : Paging}
    (h : Paging.ofOffset offset pageSize = .ok p) :
    1 ≤ pageSize ∧ offset / pageSize + 1 < Text.wordLimit ∧
      offset / pageSize * pageSize < Text.wordLimit ∧
      p = moved (offset / pageSize + 1) pageSize := by
  unfold Paging.ofOffset at h
  cases hq : Paging.ofPage 1 pageSize with
  | error fault =>
      rw [hq] at h
      cases h
  | ok q =>
      obtain ⟨hs, -, rfl⟩ := ofPage_eq_ok hq
      rw [hq] at h
      change settle ((moved 1 pageSize).setOffset offset) = .ok p at h
      obtain ⟨fault, he⟩ | ⟨hn, hlt, he⟩ := setOffset_cases (moved 1 pageSize) offset
      · rw [he] at h
        cases h
      · rw [he] at h
        cases h
        exact ⟨hs, hn, hlt, rfl⟩

/-- A page that begins within a word is reached. -/
theorem setPageNumber_of_lt {p : Paging} {n : ℕ}
    (h : (max n 1 - 1) * p.pageSize < Text.wordLimit) :
    p.setPageNumber n = .done (moved (max n 1) p.pageSize) := by
  have hoffset : offsetOf (max n 1) p.pageSize = .ok ((max n 1 - 1) * p.pageSize) :=
    offsetOf_eq_ok_iff.mpr ⟨rfl, h⟩
  unfold setPageNumber
  dsimp only
  rw [hoffset]
  rfl

theorem ofPage_one {pageSize : ℕ} (h : 0 < pageSize) :
    Paging.ofPage 1 pageSize = .ok (moved 1 pageSize) := by
  have hfirst : (⟨1, pageSize, 0⟩ : Paging).setPageNumber 1 = .done (moved 1 pageSize) :=
    setPageNumber_of_lt (by rw [Nat.max_self, Nat.sub_self, Nat.zero_mul]; decide)
  unfold Paging.ofPage
  rw [if_neg h.ne', hfirst]
  rfl

theorem ofOffset_zero (offset : ℕ) :
    Paging.ofOffset offset 0 = .error (.invalidArgument .zeroPageSize) := rfl

/-- The page of an item always begins within a word, so it is refused only if its number does not
fit a word. -/
theorem setOffset_of_lt {p : Paging} {offset : ℕ} (hoffset : offset < Text.wordLimit) :
    p.setOffset offset =
      if offset / p.pageSize + 1 < Text.wordLimit then
        .done (moved (offset / p.pageSize + 1) p.pageSize)
      else .failed p (.invalidArgument (.offsetOutOfRange offset)) := by
  have hmove : p.setPageNumber (offset / p.pageSize + 1) =
      .done (moved (offset / p.pageSize + 1) p.pageSize) := by
    have h := setPageNumber_of_lt (p := p) (n := offset / p.pageSize + 1)
    rw [Nat.max_eq_left (Nat.le_add_left 1 _), Nat.add_sub_cancel] at h
    exact h ((Nat.div_mul_le_self offset p.pageSize).trans_lt hoffset)
  unfold setOffset
  dsimp only
  rw [hmove]

/-- A page number beyond a word belongs to the last offset and to pages of one item. -/
theorem number_lt_iff {offset pageSize : ℕ} (hs : 0 < pageSize)
    (hoffset : offset < Text.wordLimit) :
    offset / pageSize + 1 < Text.wordLimit ↔
      ¬ (pageSize = 1 ∧ offset = Text.wordLimit - 1) := by
  by_cases hone : pageSize = 1
  · rw [hone, Nat.div_one]
    omega
  · have hhalf : offset / pageSize ≤ offset / 2 := Nat.div_le_div_left (by omega) two_pos
    have hlimit : 2 < Text.wordLimit := by decide
    exact iff_of_true (by omega) fun h => hone h.1

/-- The page of an offset is refused only if its number does not fit a word. -/
theorem ofOffset_of_pos {offset pageSize : ℕ} (hs : 0 < pageSize)
    (hoffset : offset < Text.wordLimit) :
    Paging.ofOffset offset pageSize =
      if offset / pageSize + 1 < Text.wordLimit then .ok (moved (offset / pageSize + 1) pageSize)
      else .error (.invalidArgument (.offsetOutOfRange offset)) := by
  unfold Paging.ofOffset
  rw [ofPage_one hs]
  change settle ((moved 1 pageSize).setOffset offset) = _
  rw [setOffset_of_lt hoffset]
  change settle (if offset / pageSize + 1 < Text.wordLimit then _ else _) = _
  split_ifs <;> rfl

theorem Made.consistent {p : Paging} (h : Made p) : p.Consistent := by
  cases h with
  | ofPage _ _ h =>
      obtain ⟨hs, hlt, rfl⟩ := ofPage_eq_ok h
      exact moved_consistent (Nat.le_max_right _ 1) hs hlt
  | ofOffset _ _ h =>
      obtain ⟨hs, -, hlt, rfl⟩ := ofOffset_eq_ok h
      exact moved_consistent (Nat.le_add_left 1 _) hs hlt

theorem Made.fits {p : Paging} (h : Made p) : p.Fits := by
  cases h with
  | ofPage hn hs h =>
      obtain ⟨-, -, rfl⟩ := ofPage_eq_ok h
      exact ⟨max_lt hn (by decide), hs⟩
  | ofOffset _ hs h =>
      obtain ⟨-, hn, -, rfl⟩ := ofOffset_eq_ok h
      exact ⟨hn, hs⟩

/-- Over every run of changes the page number and the size stay positive and fit a word, the
offset is that of the first item of the page and fits a word, the page has a number as the engine
counts, and a change that is refused next alters nothing. -/
theorem after_changes {p : Paging} (hp : Made p) {cs : List Change}
    (hcs : ∀ c ∈ cs, c.argument < Text.wordLimit) :
    (p.after cs).Consistent ∧ (p.after cs).Fits ∧
      (p.after cs).enginePage + 1 = (p.after cs).pageNumber ∧
      ∀ (c : Change) (fault : Fault), (c.apply (p.after cs)).fault? = some fault →
        (c.apply (p.after cs)).state = p.after cs := by
  have hconsistent := hp.consistent.after cs
  refine ⟨hconsistent, hp.fits.after hcs, ?_, fun c fault => Change.state_of_refused⟩
  exact Nat.sub_add_cancel hconsistent.one_le_pageNumber

/-- A size that takes the third page beyond a word is refused in the middle of the run and again
after it. -/
theorem after_changes_with_refused_size :
    Made (moved 3 10) ∧
      (moved 3 10).after [.pageSize (Text.wordLimit - 1), .pageNumber 0, .offset 25] = moved 3 10 ∧
      (moved 3 10).Consistent ∧
      ((Change.pageSize (Text.wordLimit - 1)).apply (moved 3 10)).state = moved 3 10 := by
  have hp : Made (moved 3 10) :=
    .ofPage (by decide) (by decide) (show Paging.ofPage 3 10 = .ok (moved 3 10) from rfl)
  have hcs : ∀ c ∈ [Change.pageSize (Text.wordLimit - 1), .pageNumber 0, .offset 25],
      c.argument < Text.wordLimit := by decide
  have hrun : (moved 3 10).after [.pageSize (Text.wordLimit - 1), .pageNumber 0, .offset 25] =
      moved 3 10 := by decide
  have h := after_changes hp hcs
  rw [hrun] at h
  exact ⟨hp, hrun, h.1, h.2.2.2 (.pageSize (Text.wordLimit - 1)) _ rfl⟩

end FacetedSearch.Paging
