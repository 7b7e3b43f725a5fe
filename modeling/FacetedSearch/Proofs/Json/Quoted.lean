import FacetedSearch.Json.Literal
import FacetedSearch.Json.Writer
import Mathlib.Data.List.Basic

/-!
# Strings in texts

Each character of a string is written as one piece: itself, a letter behind a backslash, or a
16-bit unit below any surrogate. So the pieces join to the string again, whatever it holds.
-/

namespace FacetedSearch.Json

/-- The piece that a character is written as. -/
def pieceOf (c : Char) : Piece :=
  if c ∈ ['"', '\\', '\x08', '\x0c', '\n', '\r', '\t'] then .escaped c
  else if c.toNat < 0x20 then .unit c.toNat
  else .char c

theorem unit?_hexDigit :
    ∀ n < 0x20, unit? '0' '0' (hexDigit (n / 16)) (hexDigit (n % 16)) = some n := by
  decide

theorem pieces?_escaped {e c : Char} (hunit : e ≠ 'u') (h : unescape? e = some c)
    (rest : List Char) :
    pieces? ('\\' :: e :: rest) = (pieces? rest).map fun r => (.escaped c :: r.1, r.2) := by
  rw [pieces?, h]
  · cases pieces? rest <;> rfl
  · exact fun _ _ _ _ _ he => absurd he hunit

theorem pieces?_char {c : Char} (hquote : c ≠ '"') (hslash : c ≠ '\\') (hcontrol : ¬ c.toNat < 0x20)
    (rest : List Char) :
    pieces? (c :: rest) = (pieces? rest).map fun r => (.char c :: r.1, r.2) := by
  rw [pieces?, if_neg (not_or.mpr ⟨hslash, hcontrol⟩)]
  · cases pieces? rest <;> rfl
  · exact hquote
  · exact fun _ _ _ _ _ hc => absurd hc hslash
  · exact fun _ _ hc => absurd hc hslash

/-- A character is read as the piece it is written as. -/
theorem pieces?_escape (c : Char) (rest : List Char) :
    pieces? (escape c ++ rest) = (pieces? rest).map fun r => (pieceOf c :: r.1, r.2) := by
  unfold escape
  split
  case h_8 hquote hslash hback hfeed hline hreturn htab =>
    have hplain : c ∉ ['"', '\\', '\x08', '\x0c', '\n', '\r', '\t'] := by
      simp only [List.mem_cons, List.not_mem_nil, or_false, not_or]
      exact ⟨hquote, hslash, hback, hfeed, hline, hreturn, htab⟩
    by_cases hcontrol : c.toNat < 0x20
    · rw [if_pos hcontrol, pieceOf, if_neg hplain, if_pos hcontrol]
      simp only [List.cons_append, List.nil_append, pieces?, unit?_hexDigit _ hcontrol]
      cases pieces? rest <;> rfl
    · rw [if_neg hcontrol, pieceOf, if_neg hplain, if_neg hcontrol]
      exact pieces?_char hquote hslash hcontrol rest
  all_goals exact pieces?_escaped (by decide) rfl rest

theorem quoted_append (s : String) (rest : List Char) :
    quoted s ++ rest = '"' :: (s.toList.flatMap escape ++ '"' :: rest) := by
  rw [quoted, List.cons_append, List.append_assoc, List.singleton_append]

theorem pieces?_quoted (cs rest : List Char) :
    pieces? (cs.flatMap escape ++ '"' :: rest) = some (cs.map pieceOf, rest) := by
  induction cs with
  | nil => simp [pieces?]
  | cons c cs ih =>
      rw [List.flatMap_cons, List.append_assoc, pieces?_escape, ih]
      rfl

theorem joinPieces?_unit {n : ℕ} (hhigh : isHighSurrogate n = false)
    (hlow : isLowSurrogate n = false) (ps : List Piece) :
    joinPieces? (.unit n :: ps) = (joinPieces? ps).map (Char.ofNat n :: ·) := by
  cases ps with
  | nil => simp [joinPieces?, hhigh, hlow]
  | cons p ps => cases p <;> simp [joinPieces?, hhigh, hlow]

theorem joinPieces?_map_pieceOf (cs : List Char) : joinPieces? (cs.map pieceOf) = some cs := by
  induction cs with
  | nil => rfl
  | cons c cs ih =>
      rw [List.map_cons, pieceOf]
      split
      · rw [joinPieces?, ih]
        rfl
      · split
        next hcontrol =>
          -- a control character is below the surrogates, and so stands alone
          have hhigh : isHighSurrogate c.toNat = false := by
            rw [isHighSurrogate, decide_eq_false (by omega), Bool.false_and]
          have hlow : isLowSurrogate c.toNat = false := by
            rw [isLowSurrogate, decide_eq_false (by omega), Bool.false_and]
          rw [joinPieces?_unit hhigh hlow, ih, Option.map_some, Char.ofNat_toNat]
        · rw [joinPieces?, ih]
          rfl

/-- The pieces of a string join to it. -/
theorem piecesText?_map_pieceOf (s : String) : piecesText? (s.toList.map pieceOf) = some s := by
  rw [piecesText?, joinPieces?_map_pieceOf, Option.map_some, String.ofList_toList]

end FacetedSearch.Json
