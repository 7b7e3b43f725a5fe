import FacetedSearch.Json.Parser
import FacetedSearch.Json.Writer
import Mathlib.Data.List.Basic

/-!
# Layouts

The compact and the indented text of a value are made of the same tokens and differ in the blanks
between them. A layout says where blanks stand and how doubles are written, and one writer lays a
value out by it; the two texts are two of its layouts. The reader drops blanks in front of every
token, so it need not know where they stand.
-/

namespace FacetedSearch.Json

/-- How the tokens of a text are written and the blanks between them. -/
structure Layout where
  doubles : DoubleFormat
  /-- Before an item, a member or a closing bracket, by the depth at which it stands. -/
  gap : ℕ → List Char
  /-- Between the colon behind a name and the value. -/
  afterColon : List Char
  isSpace_gap : ∀ depth, ∀ c ∈ gap depth, isSpace c = true
  isSpace_afterColon : ∀ c ∈ afterColon, isSpace c = true

namespace Layout

def compact (doubles : DoubleFormat) : Layout where
  doubles := doubles
  gap _ := []
  afterColon := []
  isSpace_gap := by simp
  isSpace_afterColon := by simp

theorem isSpace_of_mem_newLine {depth : ℕ} {c : Char} (h : c ∈ Value.newLine depth) :
    isSpace c = true := by
  rcases List.mem_cons.mp h with rfl | h
  · rfl
  · rw [List.eq_of_mem_replicate h]
    rfl

def indented (doubles : DoubleFormat) : Layout where
  doubles := doubles
  gap := Value.newLine
  afterColon := [' ']
  isSpace_gap _ _ := isSpace_of_mem_newLine
  isSpace_afterColon c hc := by
    rw [List.mem_singleton.mp hc]
    rfl

end Layout

namespace Value

mutual

/-- The text of a value that stands `depth` levels deep. -/
def laidOut (l : Layout) (depth : ℕ) : Value → List Char
  | .null => chars l.doubles .null
  | .bool b => chars l.doubles (.bool b)
  | .number n => n.chars l.doubles
  | .string s => quoted s
  | .array [] => ['[', ']']
  | .array (v :: vs) =>
    '[' :: (l.gap (depth + 1) ++ (v.laidOut l (depth + 1) ++ itemsLaidOut l depth vs))
  | .object [] => ['{', '}']
  | .object ((name, v) :: ms) =>
    '{' :: (l.gap (depth + 1) ++ (quoted name ++ ':' :: (l.afterColon ++
      (v.laidOut l (depth + 1) ++ membersLaidOut l depth ms))))

/-- What follows the first item, down to the closing bracket. -/
def itemsLaidOut (l : Layout) (depth : ℕ) : List Value → List Char
  | [] => l.gap depth ++ [']']
  | v :: vs => ',' :: (l.gap (depth + 1) ++ (v.laidOut l (depth + 1) ++ itemsLaidOut l depth vs))

/-- What follows the first member, down to the closing brace. -/
def membersLaidOut (l : Layout) (depth : ℕ) : List (String × Value) → List Char
  | [] => l.gap depth ++ ['}']
  | (name, v) :: ms =>
    ',' :: (l.gap (depth + 1) ++ (quoted name ++ ':' :: (l.afterColon ++
      (v.laidOut l (depth + 1) ++ membersLaidOut l depth ms))))

end

variable (doubles : DoubleFormat)

mutual

/-- The compact text is the layout without blanks. -/
theorem laidOut_compact (depth : ℕ) :
    ∀ v : Value, v.laidOut (.compact doubles) depth = v.chars doubles
  | .null => rfl
  | .bool _ => rfl
  | .number _ => rfl
  | .string _ => rfl
  | .array [] => rfl
  | .array (v :: vs) => by
    rw [laidOut, laidOut_compact (depth + 1) v, itemsLaidOut_compact depth vs, chars]
    rfl
  | .object [] => rfl
  | .object ((name, v) :: ms) => by
    rw [laidOut, laidOut_compact (depth + 1) v, membersLaidOut_compact depth ms, chars]
    rfl

theorem itemsLaidOut_compact (depth : ℕ) :
    ∀ vs : List Value, itemsLaidOut (.compact doubles) depth vs = itemsChars doubles vs
  | [] => rfl
  | v :: vs => by
    rw [itemsLaidOut, laidOut_compact (depth + 1) v, itemsLaidOut_compact depth vs, itemsChars]
    rfl

theorem membersLaidOut_compact (depth : ℕ) :
    ∀ ms : List (String × Value),
      membersLaidOut (.compact doubles) depth ms = membersChars doubles ms
  | [] => rfl
  | (name, v) :: ms => by
    rw [membersLaidOut, laidOut_compact (depth + 1) v, membersLaidOut_compact depth ms,
      membersChars]
    rfl

end

mutual

/-- The indented text has each item and member on a line of its own. -/
theorem laidOut_indented (depth : ℕ) :
    ∀ v : Value, v.laidOut (.indented doubles) depth = v.indentedChars doubles depth
  | .null => rfl
  | .bool _ => rfl
  | .number _ => rfl
  | .string _ => rfl
  | .array [] => rfl
  | .array (v :: vs) => by
    rw [laidOut, laidOut_indented (depth + 1) v, itemsLaidOut_indented depth vs, indentedChars,
      List.append_assoc]
    rfl
  | .object [] => rfl
  | .object ((name, v) :: ms) => by
    rw [laidOut, laidOut_indented (depth + 1) v, membersLaidOut_indented depth ms, indentedChars,
      List.append_assoc]
    rfl

theorem itemsLaidOut_indented (depth : ℕ) :
    ∀ vs : List Value, itemsLaidOut (.indented doubles) depth vs = indentedItems doubles depth vs
  | [] => rfl
  | v :: vs => by
    rw [itemsLaidOut, laidOut_indented (depth + 1) v, itemsLaidOut_indented depth vs,
      indentedItems, List.append_assoc]
    rfl

theorem membersLaidOut_indented (depth : ℕ) :
    ∀ ms : List (String × Value),
      membersLaidOut (.indented doubles) depth ms = indentedMembers doubles depth ms
  | [] => rfl
  | (name, v) :: ms => by
    rw [membersLaidOut, laidOut_indented (depth + 1) v, membersLaidOut_indented depth ms,
      indentedMembers, List.append_assoc]
    rfl

end

end Value

end FacetedSearch.Json
