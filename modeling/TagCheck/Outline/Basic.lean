import TagCheck.Outline.Survey
import TagCheck.Tree.OfGrammar

namespace TagCheck

/-!
# Outlines of sources

The declarations and local variables of one source, with the questions that code at a position
asks: which locals are visible there, and which namespace or method the position lies in.
-/

/-- A named source with its syntax tree.  A source with errors counts as not parsed. -/
structure Source where
  filename : String
  root : SyntaxNode
  isParsed : Bool
  deriving Inhabited

/-- The source that a grammar tree describes. -/
def Source.ofGrammar (filename : String) (tree : GrammarTree) : Source :=
  let tree := SyntaxTree.ofGrammar tree
  ⟨filename, tree.root, !tree.hasErrors⟩

/-- The declarations and locals of a source, and the spans that bound its locals. -/
structure Outline where
  source : Source
  /-- The program's own namespace. -/
  rootPin : Pin
  /-- The declarations inside the program. -/
  declarations : List Pin
  locals : List Pin
  hardScopes : List Span

namespace Span

/-- One span begins later than another one, or begins there and ends earlier. -/
def isInside (inner outer : Span) : Bool :=
  outer.start < inner.start || (outer.start = inner.start && inner.stop < outer.stop)

end Span

/-- The first of the innermost items, as far as their spans tell. -/
def innermost? (span : α → Span) : List α → Option α
  | [] => none
  | item :: rest =>
      match innermost? span rest with
      | none => some item
      | some best => if (span best).isInside (span item) then some best else some item

namespace Outline

/-- The outline of a source; the number becomes part of the identity of its pins. -/
def ofSource (number : Nat) (source : Source) : Outline :=
  let label : SourceLabel := ⟨source.filename, number⟩
  let survey := Survey.ofProgram label source.root
  { source
    rootPin := Survey.rootPin label source.root.span
    declarations := survey.pins.reverse
    locals := survey.locals.reverse
    hardScopes := survey.hardScopes }

/-- The name of the source. -/
def filename (outline : Outline) : String :=
  outline.source.filename

/-- All pins but locals, the program's own first. -/
def pins (outline : Outline) : List Pin :=
  outline.rootPin :: outline.declarations

/-- All pins, each followed by its parameters, and then the locals that are no such parameters. -/
def pinsAndLocals (outline : Outline) : List Pin :=
  let listed := outline.pins.flatMap (·.withParameters)
  listed ++ outline.locals.filter fun pin => listed.all (·.id ≠ pin.id)

/-- The first pin at a path. -/
def firstPin? (outline : Outline) (path : String) : Option Pin :=
  outline.pins.find? (·.path = path)

/-- The innermost hard scope around a position; an empty one at the file's start if there is none. -/
def innermostHardScope (outline : Outline) (position : Position) : Span :=
  (innermost? id (outline.hardScopes.filter (·.contains position))).getD ⟨⟨0, 0⟩, ⟨0, 0⟩⟩

/-- The locals that are visible at a position, in the order of their declaration. -/
def localsAt (outline : Outline) (position : Position) : List Pin :=
  let hardScope := outline.innermostHardScope position
  outline.locals.filter fun pin =>
    match pin.localScope? with
    | some scope => scope.isVisible position hardScope
    | none => false

/-- Pins that code can be inside of: namespaces, and methods that have a definition. -/
def isEnclosing (pin : Pin) : Bool :=
  match pin.kind with
  | .namespacePin .. => true
  | .method detail => detail.node.isSome
  | _ => false

/-- The innermost namespace or method around a position. -/
def closureAt (outline : Outline) (position : Position) : Pin :=
  let around := outline.pins.filter fun pin =>
    isEnclosing pin && pin.location.span.contains position
  (innermost? (·.location.span) around).getD outline.rootPin

end Outline

end TagCheck
