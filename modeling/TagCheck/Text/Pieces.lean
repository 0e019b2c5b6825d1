import TagCheck.Text.CharClass

namespace TagCheck.Text

/-!
# Taking text apart

Trimming, splitting at a character, lines and words, all as functions on lists of characters, so
that statements about them are statements about lists.
-/

/-- Drop the white space in front. -/
def trimStart (text : List Char) : List Char :=
  text.dropWhile isBlank

/-- Drop the white space behind. -/
def trimEnd (text : List Char) : List Char :=
  (text.reverse.dropWhile isBlank).reverse

/-- Drop the white space at both ends. -/
def trim (text : List Char) : List Char :=
  trimEnd (trimStart text)

/-- The pieces of a text between the occurrences of a separator; there is always at least one. -/
def splitAt (separator : Char) : List Char → List (List Char)
  | [] => [[]]
  | c :: rest =>
      match splitAt separator rest with
      | [] => [[c]]
      | piece :: pieces =>
          if c == separator then
            [] :: piece :: pieces
          else
            (c :: piece) :: pieces

/-- Drop one carriage return at the end of a line. -/
def dropReturn (line : List Char) : List Char :=
  if line.getLast? = some '\r' then line.dropLast else line

/--
The lines of a text.  A line feed ends a line, a carriage return before it belongs to it, and an
empty last line is none.
-/
def lines (text : List Char) : List (List Char) :=
  let pieces := splitAt '\n' text
  pieces.dropLast.map dropReturn ++ (pieces.getLast?.filter (!·.isEmpty)).toList

/-- The first word of a text and what stands behind it. -/
def splitWord (text : List Char) : List Char × List Char :=
  (trimStart text).span (!isBlank ·)

/-- Drop the double colons in front. -/
def dropColonPairs : List Char → List Char
  | ':' :: ':' :: rest => dropColonPairs rest
  | text => text

/-- Join pieces, putting a separator between neighbours. -/
def joinWith (separator : List Char) (pieces : List (List Char)) : List Char :=
  List.intercalate separator pieces

/-- The white space at both ends of a string dropped. -/
def trimmed (text : String) : String :=
  String.ofList (trim text.toList)

/-- The strings between the occurrences of a separator. -/
def pieces (separator : Char) (text : String) : List String :=
  (splitAt separator text.toList).map String.ofList

end TagCheck.Text
