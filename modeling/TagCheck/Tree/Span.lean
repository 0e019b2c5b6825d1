namespace TagCheck

/-!
# Places in a source file

Positions count lines from zero, and columns in bytes from zero.  A span runs between two positions
and includes both.  Positions are ordered by line and then by column.
-/

/-- A line and a column in bytes, both from zero. -/
structure Position where
  line : Nat
  column : Nat
  deriving Repr, DecidableEq, Inhabited

/-- The part of a file between two positions. -/
structure Span where
  start : Position
  stop : Position
  deriving Repr, DecidableEq, Inhabited

/-- A span of a named file. -/
structure Location where
  filename : String
  span : Span
  deriving Repr, DecidableEq, Inhabited

namespace Position

instance : LT Position where
  lt a b := a.line < b.line ∨ a.line = b.line ∧ a.column < b.column

instance : LE Position where
  le a b := a.line < b.line ∨ a.line = b.line ∧ a.column ≤ b.column

instance (a b : Position) : Decidable (a < b) :=
  inferInstanceAs (Decidable (a.line < b.line ∨ a.line = b.line ∧ a.column < b.column))

instance (a b : Position) : Decidable (a ≤ b) :=
  inferInstanceAs (Decidable (a.line < b.line ∨ a.line = b.line ∧ a.column ≤ b.column))

/-- One position is before another one exactly if it is not at or behind it. -/
theorem not_le_iff_lt {a b : Position} : ¬ a ≤ b ↔ b < a := by
  change ¬ (a.line < b.line ∨ a.line = b.line ∧ a.column ≤ b.column) ↔
    (b.line < a.line ∨ b.line = a.line ∧ b.column < a.column)
  omega

/-- Any two positions are comparable. -/
theorem le_total (a b : Position) : a ≤ b ∨ b ≤ a := by
  change (a.line < b.line ∨ a.line = b.line ∧ a.column ≤ b.column) ∨
    (b.line < a.line ∨ b.line = a.line ∧ b.column ≤ a.column)
  omega

/-- The order of positions is transitive. -/
theorem le_trans {a b c : Position} (first : a ≤ b) (second : b ≤ c) : a ≤ c := by
  change a.line < b.line ∨ a.line = b.line ∧ a.column ≤ b.column at first
  change b.line < c.line ∨ b.line = c.line ∧ b.column ≤ c.column at second
  change a.line < c.line ∨ a.line = c.line ∧ a.column ≤ c.column
  omega

/-- Two positions that are both at or before each other are equal. -/
theorem le_antisymm {a b : Position} (first : a ≤ b) (second : b ≤ a) : a = b := by
  change a.line < b.line ∨ a.line = b.line ∧ a.column ≤ b.column at first
  change b.line < a.line ∨ b.line = a.line ∧ b.column ≤ a.column at second
  cases a
  cases b
  simp only [mk.injEq] at *
  omega

/-- The position as people count: line and column from one. -/
def display (position : Position) : String :=
  toString (position.line + 1) ++ ":" ++ toString (position.column + 1)

end Position

namespace Span

/-- The position lies in the span, its two ends included. -/
def contains (span : Span) (position : Position) : Bool :=
  span.start ≤ position && position ≤ span.stop

/-- The other span lies in this one. -/
def encloses (span other : Span) : Bool :=
  span.start ≤ other.start && other.stop ≤ span.stop

end Span

/-- File, line and column of the start of a location. -/
def Location.display (location : Location) : String :=
  location.filename ++ ":" ++ location.span.start.display

end TagCheck
