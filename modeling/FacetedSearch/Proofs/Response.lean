import FacetedSearch.Proofs.Paging
import FacetedSearch.Response.Basic
import Mathlib.Algebra.Order.Floor.Div

/-!
# Page counters

A number of items needs a least number of pages of a size. The counters of a response agree if it
has that many pages of its own page size. The page size may be the engine's and the number of
pages may not: where the engine reports none, pages are counted in the size of the request.
-/

namespace FacetedSearch

theorem pagesFor_le_iff {count size n : ℕ} (hsize : 0 < size) :
    pagesFor count size ≤ n ↔ count ≤ n * size := by
  rw [Nat.mul_comm]
  exact ceilDiv_le_iff_le_mul hsize

theorem isLeast_pagesFor (count : ℕ) {size : ℕ} (hsize : 0 < size) :
    IsLeast {n | count ≤ n * size} (pagesFor count size) :=
  ⟨(pagesFor_le_iff hsize).mp le_rfl, fun _ hn => (pagesFor_le_iff hsize).mpr hn⟩

theorem isLeast_pages_iff {count size pages : ℕ} (hsize : 0 < size) :
    IsLeast {n | count ≤ n * size} pages ↔ pages = pagesFor count size := by
  constructor
  · intro h
    exact h.unique (isLeast_pagesFor count hsize)
  · rintro rfl
    exact isLeast_pagesFor count hsize

namespace Response

/-- The items need all pages of the page size, and no further one. Pages of no size hold
nothing, so their number says nothing. -/
def CountersAgree (r : Response) : Prop :=
  0 < r.pageSize → IsLeast {n | r.totalCount ≤ n * r.pageSize} r.totalPages

theorem countersAgree_iff (r : Response) :
    r.CountersAgree ↔ (0 < r.pageSize → r.totalPages = pagesFor r.totalCount r.pageSize) :=
  forall_congr' isLeast_pages_iff

variable {result : EngineResult} {p : Paging}

theorem totalPages_ofEngine (h : result.pageCount = none) :
    (ResultPage.ofEngine result p).totalPages = pagesFor result.hitCount p.pageSize := by
  change result.pageCount.getD _ = _
  rw [h, Option.getD_none]

/-- Pages are counted in the requested size, so another size that the engine reports has to need
as many of them. -/
theorem countersAgree_ofPage_iff (h : result.pageCount = none) (aggregations : Aggregations) :
    (ofPage (.ofEngine result p) aggregations).CountersAgree ↔
      ∀ size ∈ result.hitsPerPage, 0 < size →
        pagesFor result.hitCount size = pagesFor result.hitCount p.pageSize := by
  rw [countersAgree_iff]
  change (0 < result.hitsPerPage.getD p.pageSize →
    (ResultPage.ofEngine result p).totalPages =
      pagesFor result.hitCount (result.hitsPerPage.getD p.pageSize)) ↔ _
  rw [totalPages_ofEngine h]
  cases result.hitsPerPage with
  | none => simp
  | some size => simp [eq_comm]

/-- A bundle is one page, of as many items as it has documents. -/
theorem countersAgree_ofBundle (b : ResultBundle) : (ofBundle b).CountersAgree := by
  rw [countersAgree_iff]
  intro (hsize : 0 < (documentsOf b.documents).length)
  change (if 0 < b.total.getD 0 ∧ 0 < (documentsOf b.documents).length then _ else 0) =
    pagesFor (b.total.getD 0) (documentsOf b.documents).length
  split_ifs with h
  · rfl
  · have hcount : b.total.getD 0 = 0 := by omega
    rw [hcount, eq_comm]
    exact Nat.le_zero.mp ((pagesFor_le_iff hsize).mpr (Nat.zero_le _))

/-- The response to a result without a page count has the least number of pages that hold its
items in the requested size, and so its counters agree exactly if a page size that the engine
reports leads to the same number. The counters of a response to a bundle always agree. -/
theorem counters_agree (result : EngineResult) (p : Paging) (aggregations : Aggregations)
    (b : ResultBundle) (h : result.pageCount = none) :
    (0 < p.pageSize → IsLeast {n | result.hitCount ≤ n * p.pageSize}
        (ofPage (.ofEngine result p) aggregations).totalPages) ∧
      ((ofPage (.ofEngine result p) aggregations).CountersAgree ↔
        ∀ size ∈ result.hitsPerPage, 0 < size →
          pagesFor result.hitCount size = pagesFor result.hitCount p.pageSize) ∧
      (ofBundle b).CountersAgree := by
  refine ⟨fun hsize => ?_, countersAgree_ofPage_iff h aggregations, countersAgree_ofBundle b⟩
  exact (isLeast_pages_iff hsize).mpr (totalPages_ofEngine h)

/-- Twenty-five hits fill three pages of ten as they do of twelve; a bundle without a total has no
page. -/
theorem counters_agree_of_similar_sizes :
    let result : EngineResult := { hitCount := 25, hitsPerPage := some 10 }
    let b : ResultBundle := { documents := [.object [("objectID", .string "7")]] }
    let r := ofPage (.ofEngine result (Paging.moved 1 12)) ∅
    result.pageCount = none ∧ IsLeast {n | 25 ≤ n * 12} r.totalPages ∧ r.CountersAgree ∧
      (ofBundle b).pageSize = 1 ∧ (ofBundle b).CountersAgree := by
  intro result b r
  have hcount : result.pageCount = none := rfl
  obtain ⟨hleast, hagree, hbundle⟩ := counters_agree result (Paging.moved 1 12) ∅ b hcount
  refine ⟨hcount, hleast (by decide), hagree.mpr fun size hsize _ => ?_, by decide, hbundle⟩
  cases hsize
  decide

/-- On pages of six they need five, where three pages of the requested twelve are reported. -/
theorem counters_disagree_of_smaller_pages :
    let result : EngineResult := { hitCount := 25, hitsPerPage := some 6 }
    ∃ p, Paging.ofPage 1 12 = .ok p ∧ result.pageCount = none ∧
      let r := ofPage (.ofEngine result p) ∅
      r.totalCount = 25 ∧ r.pageSize = 6 ∧ r.totalPages = 3 ∧ ¬ r.CountersAgree := by
  intro result
  refine ⟨Paging.moved 1 12, rfl, rfl, rfl, rfl, by decide, fun h => ?_⟩
  exact absurd ((countersAgree_iff _).mp h (by decide)) (by decide)

end Response

end FacetedSearch
