import TagCheck.Outline.Path

namespace TagCheck

/-!
# Signatures

A signature is the text of a chain of calls such as `Foo::Bar.new.baz(1)[0]`.  Its segments are a
head and the names called on it one after the other.  Arguments and blocks are skipped, and every
index access is a segment of its own.
-/

/-- One step of a chain of calls. -/
inductive Segment where
  | selfReference
  /-- A literal, by the name of its class. -/
  | literal (className : String)
  | word (name : String)
  /-- A constant path, which may be absolute. -/
  | constant (name : String)
  | instanceVariable (name : String)
  | classVariable (name : String)
  | globalVariable (name : String)
  /-- An index access to what stands before it. -/
  | index
  deriving Repr, DecidableEq

namespace Signature

/-- Brackets that open a group. -/
def isOpening (c : Char) : Bool :=
  c == '(' || c == '[' || c == '\x7b'

/-- Brackets that close a group. -/
def isClosing (c : Char) : Bool :=
  c == ')' || c == ']' || c == '\x7d'

/-- Marks that begin and end a string. -/
def isQuote (c : Char) : Bool :=
  c == '\'' || c == '"'

/-- Marks that may end the name of a method. -/
def isNameSuffix (c : Char) : Bool :=
  c == '?' || c == '!' || c == '='

/-- A point inside a number: digits before it, and a digit behind it. -/
def isDecimalPoint (before behind : List Char) : Bool :=
  !before.isEmpty && before.all (fun c => c.isDigit || c == '_') &&
    (behind.head?.map Char.isDigit).getD false

/-- A link that a point ends; the mark of a safe call belongs to the point. -/
def endLink (reversed : List Char) : List Char :=
  match reversed with
  | '&' :: link => Text.trim link.reverse
  | link => Text.trim link.reverse

/--
The links of a chain between points outside brackets, strings and numbers; none if a bracket or a
string is not closed.  `link` is what has been read of the current link, in reverse.
-/
def splitLinks (depth : Nat) (quote : Option Char) (link : List Char) :
    List Char → Option (List (List Char))
  | [] => if depth = 0 && quote.isNone then some [Text.trim link.reverse] else none
  | c :: rest =>
      match quote with
      | some mark =>
          if c == '\\' then
            match rest with
            | [] => none
            | escaped :: rest => splitLinks depth quote (escaped :: c :: link) rest
          else
            splitLinks depth (if c == mark then none else quote) (c :: link) rest
      | none =>
          if isQuote c then
            splitLinks depth (some c) (c :: link) rest
          else if isOpening c then
            splitLinks (depth + 1) none (c :: link) rest
          else if isClosing c then
            if depth = 0 then none else splitLinks (depth - 1) none (c :: link) rest
          else if c == '.' && depth = 0 && !isDecimalPoint link rest then
            (splitLinks 0 none [] rest).map (endLink link :: ·)
          else
            splitLinks depth none (c :: link) rest

/-- The bracket that opens the group which a bracket closes. -/
def openingOf? : Char → Option Char
  | ')' => some '('
  | ']' => some '['
  | '\x7d' => some '\x7b'
  | _ => none

/--
What stands before the group at the end of a reversed text, given the group's brackets and how many
of them are open; none if the group does not begin.
-/
def beforeGroup? (opening closing : Char) (depth : Nat) : List Char → Option (List Char)
  | [] => none
  | c :: rest =>
      if c == closing then
        beforeGroup? opening closing (depth + 1) rest
      else if c == opening then
        if depth ≤ 1 then some rest else beforeGroup? opening closing (depth - 1) rest
      else
        beforeGroup? opening closing depth rest

/--
The reversed text before all groups at its end, and how many of them are index accesses.  A group
with nothing before it belongs to the text.
-/
def stripGroups? : Nat → List Char → Option (List Char × Nat)
  | 0, _ => none
  | _ + 1, [] => none
  | limit + 1, c :: rest =>
      match openingOf? c with
      | none => some (c :: rest, 0)
      | some opening =>
          match beforeGroup? opening c 0 (c :: rest) with
          | none => none
          | some [] => some (c :: rest, 0)
          | some before =>
              (stripGroups? limit (Text.trimStart before)).map fun (name, indexes) =>
                (name, if opening == '[' then indexes + 1 else indexes)

/-- The name of a link without its arguments and blocks, and the number of its index accesses. -/
def splitGroups? (link : List Char) : Option (List Char × Nat) :=
  (stripGroups? link.length link.reverse).map fun (name, indexes) => (name.reverse, indexes)

/-- A name that begins like an identifier and may end in one mark. -/
def isName (text : List Char) : Bool :=
  let body := (text.reverse.dropWhile isNameSuffix).reverse
  text.length ≤ body.length + 1 && body.all Text.isWordChar &&
    match body.head? with
    | some first => Text.isLetter first || first == '_'
    | none => false

/-- A name that begins with a capital letter. -/
def isConstantName (text : List Char) : Bool :=
  (text.head?.map Char.isUpper).getD false && isName text

/-- What a variable's marks say about it. -/
def markedVariable? : List Char → Option (Option Segment)
  | '@' :: '@' :: name =>
      some (if isName name then
        some (.classVariable (String.ofList ('@' :: '@' :: name))) else none)
  | '@' :: name =>
      some (if isName name then some (.instanceVariable (String.ofList ('@' :: name))) else none)
  | '$' :: name =>
      some (if name.isEmpty then none else some (.globalVariable (String.ofList ('$' :: name))))
  | _ => none

/-- The class of a literal that begins with a character. -/
def literalClass? (head : List Char) : Char → Option String
  | '\'' | '"' => some "String"
  | ':' => some "Symbol"
  | '[' => some "Array"
  | '\x7b' => some "Hash"
  | first =>
      if first.isDigit then some (if head.contains '.' then "Float" else "Integer") else none

/-- The segment that begins a chain. -/
def headSegment? (head : List Char) : Option Segment :=
  match String.ofList head with
  | "self" => some .selfReference
  | "nil" => some (.literal "NilClass")
  | "true" | "false" => some (.literal "Boolean")
  | text =>
      match markedVariable? head with
      | some segment => segment
      | none =>
          match head with
          | [] => none
          | first :: _ =>
              if first.isUpper || "::".toList.isPrefixOf head then
                if (ConstantPath.partsOfChars (Text.dropColonPairs head)).all isConstantName then
                  some (.constant text)
                else
                  none
              else
                match literalClass? head first with
                | some className => some (.literal className)
                | none => if isName head then some (.word text) else none

/-- A segment behind the head of a chain. -/
def callSegment? (name : List Char) : Option Segment :=
  if isName name then some (.word (String.ofList name)) else none

/-- The segments of a link: its name and its index accesses. -/
def linkSegments? (nameSegment? : List Char → Option Segment) (link : List Char) :
    Option (List Segment) := do
  let (name, indexes) ← splitGroups? link
  return (← nameSegment? name) :: List.replicate indexes .index

/-- The segments of a chain; none if the text is no chain of calls. -/
def readChars? (text : List Char) : Option (List Segment) :=
  match Text.trim text with
  | [] => none
  | chain =>
      match splitLinks 0 none [] chain with
      | none => none
      | some links =>
          if links.any (·.isEmpty) then
            none
          else
            match links with
            | [] => none
            | head :: calls => do
                let first ← linkSegments? headSegment? head
                let others ← calls.mapM (linkSegments? callSegment?)
                return first ++ others.flatten

/-- The segments of a signature; none if it is no chain of calls. -/
def read? (signature : String) : Option (List Segment) :=
  readChars? signature.toList

end Signature

end TagCheck
