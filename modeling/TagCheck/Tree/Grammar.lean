import TagCheck.Tree.Span
import TagCheck.Text.Pieces

namespace TagCheck

/-!
# Grammar trees

The full tree that a grammar builds from a source text: comments, wrappers around bodies and
unnamed tokens included.  Trees are read from listings, one node a line in preorder:

    depth field kind startLine startColumn stopLine stopColumn

A dash stands for no field, and a quotation mark before the kind marks an unnamed token.
-/

/-- A node of a grammar tree. -/
structure GrammarNode where
  kind : String
  /-- Unnamed nodes are tokens such as operators. -/
  isNamed : Bool
  field : Option String
  span : Span
  children : List GrammarNode
  deriving Repr, Inhabited

/-- One line of a listing. -/
structure ListedNode where
  depth : Nat
  field : Option String
  kind : String
  isNamed : Bool
  span : Span
  deriving Repr

namespace ListedNode

/-- Read one line of a listing. -/
def read? (line : String) : Option ListedNode :=
  match Text.pieces ' ' line with
  | [depth, field, kind, startLine, startColumn, stopLine, stopColumn] => do
      let span : Span :=
        ⟨⟨← startLine.toNat?, ← startColumn.toNat?⟩, ⟨← stopLine.toNat?, ← stopColumn.toNat?⟩⟩
      let (isNamed, kind) :=
        match kind.toList with
        | '\'' :: token => (false, String.ofList token)
        | _ => (true, kind)
      return ⟨← depth.toNat?, if field = "-" then none else some field, kind, isNamed, span⟩
  | _ => none

/--
Put a line in front of the trees that the lines below it have built, each with its depth: the
leading ones that are one deeper become its children.
-/
def graft (line : ListedNode) (below : List (Nat × GrammarNode)) : List (Nat × GrammarNode) :=
  let (children, others) := below.span fun (depth, _) => depth == line.depth + 1
  (line.depth, ⟨line.kind, line.isNamed, line.field, line.span, children.map (·.2)⟩) :: others

end ListedNode

namespace GrammarNode

/-- The tree that a listing describes; none if a line cannot be read or there is not one root. -/
def ofListing? (listing : String) : Option GrammarNode := do
  let lines ← (Text.pieces '\n' listing).mapM ListedNode.read?
  match lines.foldr ListedNode.graft [] with
  | [(0, root)] => some root
  | _ => none

end GrammarNode

/-- A source text, prepared for looking up places in it. -/
structure SourceText where
  bytes : ByteArray
  /-- The byte at which each line begins. -/
  lineStarts : Array Nat

namespace SourceText

/-- Prepare a text: a line begins at its start and behind every line feed. -/
def ofString (text : String) : SourceText where
  bytes := text.toUTF8
  lineStarts :=
    (text.toList.foldl
      (fun (starts, offset) c =>
        let behind := offset + c.utf8Size
        (if c = '\n' then starts.push behind else starts, behind))
      (#[0], 0)).1

/-- The byte of a position. -/
def offset (source : SourceText) (position : Position) : Nat :=
  source.lineStarts.getD position.line source.bytes.size + position.column

/-- The text of a span; none if it cuts through a character. -/
def slice? (source : SourceText) (span : Span) : Option String :=
  String.fromUTF8? (source.bytes.extract (source.offset span.start) (source.offset span.stop))

end SourceText

end TagCheck
