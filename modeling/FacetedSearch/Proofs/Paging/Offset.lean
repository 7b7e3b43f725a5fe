import FacetedSearch.Proofs.Paging

/-!
# Offsets and page numbers there and back

Going to an offset means going to the page that contains it, and this is refused for a single pair
of page size and offset. Going to a page number is refused exactly if the page begins beyond a word.
A page that can come up is found again by its own offset and by its own number.
-/

namespace FacetedSearch.Paging

/-- The pages that come up: one is made and then changed any number of times, by arguments that fit
a word. -/
def Reachable (p : Paging) : Prop :=
  ∃ q cs, Made q ∧ (∀ c ∈ cs, Change.argument c < Text.wordLimit) ∧ q.after cs = p

theorem Reachable.consistent {p : Paging} (h : Reachable p) : p.Consistent := by
  obtain ⟨q, cs, hq, -, rfl⟩ := h
  exact hq.consistent.after cs

theorem Reachable.fits {p : Paging} (h : Reachable p) : p.Fits := by
  obtain ⟨q, cs, hq, hcs, rfl⟩ := h
  exact hq.fits.after hcs

/-- The page number and the size determine a page. -/
theorem Consistent.eq_moved {p : Paging} (h : p.Consistent) :
    p = moved p.pageNumber p.pageSize := by
  obtain ⟨pageNumber, pageSize, offset⟩ := p
  exact congrArg (Paging.mk pageNumber pageSize) h.offset_eq

theorem setPageNumber_eq (p : Paging) (n : ℕ) :
    p.setPageNumber n =
      if (max n 1 - 1) * p.pageSize < Text.wordLimit then .done (moved (max n 1) p.pageSize)
      else .failed p (.invalidArgument (.pageOutOfRange (max n 1) p.pageSize)) := by
  split_ifs with h
  · exact setPageNumber_of_lt h
  · unfold setPageNumber offsetOf
    dsimp only
    rw [if_neg h]

theorem setOffset_eq {p : Paging} (hs : 0 < p.pageSize) {o : ℕ} (ho : o < Text.wordLimit) :
    p.setOffset o =
      if p.pageSize = 1 ∧ o = Text.wordLimit - 1 then
        .failed p (.invalidArgument (.offsetOutOfRange o))
      else .done (moved (o / p.pageSize + 1) p.pageSize) := by
  rw [setOffset_of_lt ho, if_congr (number_lt_iff hs ho) rfl rfl, ite_not]

/-- The page of an item contains it. -/
theorem moved_contains {o pageSize : ℕ} (hs : 0 < pageSize) :
    (moved (o / pageSize + 1) pageSize).offset ≤ o ∧
      o < (moved (o / pageSize + 1) pageSize).offset + pageSize := by
  change (o / pageSize + 1 - 1) * pageSize ≤ o ∧ o < (o / pageSize + 1 - 1) * pageSize + pageSize
  rw [Nat.add_sub_cancel]
  exact ⟨Nat.div_mul_le_self o pageSize, Nat.lt_div_mul_add hs⟩

theorem setPageNumber_self {p : Paging} (hp : p.Consistent) :
    p.setPageNumber p.pageNumber = .done p := by
  have hmax : max p.pageNumber 1 = p.pageNumber := Nat.max_eq_left hp.one_le_pageNumber
  have hlt : (p.pageNumber - 1) * p.pageSize < Text.wordLimit := hp.offset_eq ▸ hp.offset_lt
  rw [setPageNumber_eq, hmax, if_pos hlt, ← hp.eq_moved]

/-- The number of the page that contains the first item of a page is that of the page. -/
theorem setOffset_self {p : Paging} (hp : p.Consistent) (hfits : p.Fits) :
    p.setOffset p.offset = .done p := by
  have hnumber : p.offset / p.pageSize + 1 = p.pageNumber := by
    rw [hp.offset_eq, Nat.mul_div_cancel _ hp.one_le_pageSize,
      Nat.sub_add_cancel hp.one_le_pageNumber]
  rw [setOffset_of_lt hp.offset_lt, hnumber, if_pos hfits.1, ← hp.eq_moved]

/-- Of a page that can come up, going to an offset fails for the last offset on pages of one item
alone, and otherwise leads to the page of the same size that contains it. Going to a page number
succeeds exactly if that page begins within a word. Going to the page's own offset or number
changes nothing. -/
theorem setOffset_finds_page {p : Paging} (hp : Reachable p) :
    (∀ o < Text.wordLimit,
      ((p.setOffset o).fault? ≠ none ↔ p.pageSize = 1 ∧ o = Text.wordLimit - 1) ∧
      ((p.setOffset o).fault? = none →
        (p.setOffset o).state.pageSize = p.pageSize ∧
        (p.setOffset o).state.pageNumber = o / p.pageSize + 1 ∧
        (p.setOffset o).state.offset ≤ o ∧
        o < (p.setOffset o).state.offset + p.pageSize)) ∧
    (∀ n, (p.setPageNumber n).fault? = none ↔ (max n 1 - 1) * p.pageSize < Text.wordLimit) ∧
    p.setOffset p.offset = .done p ∧
    p.setPageNumber p.pageNumber = .done p := by
  have hs := hp.consistent.one_le_pageSize
  refine ⟨fun o ho => ?_, fun n => ?_, setOffset_self hp.consistent hp.fits,
    setPageNumber_self hp.consistent⟩
  · rw [setOffset_eq hs ho]
    split_ifs with hlast
    · simp [Attempt.failed, hlast]
    · exact ⟨iff_of_false (fun h => h rfl) hlast, fun _ => ⟨rfl, rfl, moved_contains hs⟩⟩
  · rw [setPageNumber_eq]
    split_ifs with hlt
    · simp [Attempt.done, hlt]
    · simp [Attempt.failed, hlt]

/-- The last page of one item: the offset after it is refused, its number is not, and it is found
again. -/
theorem setOffset_finds_page_of_last_item :
    let p := moved (Text.wordLimit - 1) 1
    Reachable p ∧ (p.setOffset (Text.wordLimit - 1)).fault? ≠ none ∧
      (p.setPageNumber (Text.wordLimit - 1)).fault? = none ∧
      p.setOffset (Text.wordLimit - 2) = .done p := by
  intro p
  have hp : Reachable p := by
    have hmade : Made p := .ofOffset (by decide) (by decide)
      (show Paging.ofOffset (Text.wordLimit - 2) 1 = .ok p from rfl)
    exact ⟨p, [.offset (Text.wordLimit - 1)], hmade, by decide, by decide⟩
  obtain ⟨hoffset, hnumber, hself, -⟩ := setOffset_finds_page hp
  have hlast : Text.wordLimit - 1 < Text.wordLimit := by decide
  exact ⟨hp, (hoffset _ hlast).1.mpr ⟨rfl, rfl⟩, (hnumber _).mpr (by decide), hself⟩

end FacetedSearch.Paging
