import TagCheck.Index.Compatibility
import TagCheck.Outline.Basic

namespace TagCheck

/-!
# Snapshots

A snapshot holds the outlines of several sources and the index of everything declared in them.  It
never changes; a change of a source leads to another snapshot.
-/

/-- The outlines of several sources and the index of their declarations. -/
structure Snapshot where
  index : Index
  outlines : List Outline

namespace Snapshot

/-- The outlines of sources, numbered after a start; the core library has the number zero. -/
def outlinesOf (start : Nat) (sources : List Source) : List Outline :=
  (sources.zipIdx start).map fun (source, place) => .ofSource (place + 1) source

/-- The snapshot of several outlines, with the pins that they have. -/
def ofOutlines (outlines : List Outline) : Snapshot :=
  ⟨.ofPins (outlines.flatMap (·.pins)), outlines⟩

/-- The snapshot of loose pins, which knows what is declared, but no text. -/
def ofPins (pins : List Pin) : Snapshot :=
  ⟨.ofPins pins, []⟩

/-- The snapshot of several sources. -/
def ofSources (sources : List Source) : Snapshot :=
  .ofOutlines (outlinesOf 0 sources)

/-- The outline of a file; of several outlines with one name, the last one. -/
def outline? (snapshot : Snapshot) (filename : String) : Option Outline :=
  snapshot.outlines.reverse.find? (·.filename = filename)

/-- The locals that are visible at a position of a file; none in a file that is not known. -/
def localsAt (snapshot : Snapshot) (filename : String) (position : Position) : List Pin :=
  match snapshot.outline? filename with
  | some outline => outline.localsAt position
  | none => []

end Snapshot

end TagCheck
