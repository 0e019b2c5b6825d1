import TagCheck.Toml.Value

namespace TagCheck.Toml

/-!
# Quoted text in settings files

Text stands between double or single quotation marks, one or three of them.  Only double marks know
escapes, and only triple marks let a text run over several lines.
-/

/-- Spaces and tabs. -/
def isSpace (c : Char) : Bool :=
  c == ' ' || c == '\t'

/-- All characters but the control characters; the tab counts as plain. -/
def isPlain (c : Char) : Bool :=
  c == '\t' || (' ' ≤ c && c ≠ '\x7f')

/-- The value of a hexadecimal digit. -/
def hexValue? (c : Char) : Option Nat :=
  if c.isDigit then some (c.toNat - '0'.toNat)
  else if 'a' ≤ c && c ≤ 'f' then some (c.toNat - 'a'.toNat + 10)
  else if 'A' ≤ c && c ≤ 'F' then some (c.toNat - 'A'.toNat + 10)
  else none

/-- The character with a code point, if there is one. -/
def scalar? (code : Nat) : Option Char :=
  if h : code.isValidChar then some (Char.ofNatAux code h) else none

/-- The marks around a text. -/
structure QuoteStyle where
  mark : Char
  isTriple : Bool

namespace QuoteStyle

/-- Where the reading of a quoted text stands. -/
inductive State where
  | plain
  /-- Behind a backslash. -/
  | escape
  /-- Inside an escape that gives a code point, with so many digits left. -/
  | code (left value : Nat)
  /-- Between a backslash and the end of its line. -/
  | fold
  /-- Behind the end of a line that a backslash ended. -/
  | folded

/-- What the next character does. -/
inductive Move where
  | add (content : List Char) (next : State)
  | close

/-- The character that a letter behind a backslash stands for. -/
def escaped? : Char → Option Char
  | 'b' => some '\x08'
  | 't' => some '\t'
  | 'n' => some '\n'
  | 'f' => some '\x0c'
  | 'r' => some '\r'
  | 'e' => some '\x1b'
  | '"' => some '"'
  | '\\' => some '\\'
  | _ => none

/-- The number of hexadecimal digits that follow a letter behind a backslash. -/
def codeLength? : Char → Option Nat
  | 'x' => some 2
  | 'u' => some 4
  | 'U' => some 8
  | _ => none

/-- The marks that end the text stand here. -/
def closes (style : QuoteStyle) (text : List Char) : Bool :=
  (List.replicate (if style.isTriple then 3 else 1) style.mark).isPrefixOf text

/-- What a character of the text itself does. -/
def plainMove? (style : QuoteStyle) (c : Char) (rest : List Char) : Option Move :=
  if style.closes (c :: rest) then
    some .close
  else if c == '\\' && style.mark == '"' then
    some (.add [] .escape)
  else if isPlain c || (style.isTriple && (c == '\n' || (c == '\r' && rest.head? = some '\n'))) then
    some (.add [c] .plain)
  else
    none

/-- What a character does to the reading of a text; none if it may not stand there. -/
def move? (style : QuoteStyle) (c : Char) (rest : List Char) : State → Option Move
  | .plain => style.plainMove? c rest
  | .escape =>
      match escaped? c, codeLength? c with
      | some content, _ => some (.add [content] .plain)
      | none, some length => some (.add [] (.code length 0))
      | none, none => if style.isTriple then foldMove? else none
  | .code left value => do
      let value := 16 * value + (← hexValue? c)
      if left = 1 then
        return .add [← scalar? value] .plain
      else
        return .add [] (.code (left - 1) value)
  | .fold => foldMove?
  | .folded =>
      if isSpace c || c == '\n' || (c == '\r' && rest.head? = some '\n') then
        some (.add [] .folded)
      else
        style.plainMove? c rest
where
  /-- Behind a backslash only space may stand before the end of the line. -/
  foldMove? : Option Move :=
    if c == '\n' then some (.add [] .folded)
    else if isSpace c || (c == '\r' && rest.head? = some '\n') then some (.add [] .fold)
    else none

/--
What the closing marks leave behind, given the text behind the first of them.  Up to two further
marks before them belong to a text in triple marks.
-/
def finish (style : QuoteStyle) (rest : List Char) : List Char × List Char :=
  if style.isTriple then
    let marks := (rest.drop 2).takeWhile (· == style.mark) |>.take 2
    (marks, rest.drop (2 + marks.length))
  else
    ([], rest)

/-- Read a text up to its closing marks; the result tells what stands behind them. -/
def read? (style : QuoteStyle) : State → List Char → Option (List Char × List Char)
  | _, [] => none
  | state, c :: rest =>
      match style.move? c rest state with
      | none => none
      | some .close => some (style.finish rest)
      | some (.add content next) =>
          (style.read? next rest).map fun (text, behind) => (content ++ text, behind)

end QuoteStyle

/-- Drop the end of a line at the beginning. -/
def dropLineEnd : List Char → List Char
  | '\n' :: rest => rest
  | '\r' :: '\n' :: rest => rest
  | text => text

/-- Read a text on one line, given what stands behind its opening mark. -/
def readShort? (mark : Char) (text : List Char) : Option (String × List Char) :=
  (QuoteStyle.read? ⟨mark, false⟩ .plain text).map fun (content, behind) =>
    (String.ofList content, behind)

/-- Read a text in triple marks; the end of a line right behind the opening marks is dropped. -/
def readLong? (mark : Char) (text : List Char) : Option (String × List Char) :=
  (QuoteStyle.read? ⟨mark, true⟩ .plain (dropLineEnd text)).map fun (content, behind) =>
    (String.ofList content, behind)

end TagCheck.Toml
