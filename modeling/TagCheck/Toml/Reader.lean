import TagCheck.Toml.Quoted

namespace TagCheck.Toml

/-!
# Reading settings files

A file is a list of statements: headings of tables, and names with their values.  Values that no
setting takes, which are floating point numbers, truth values and dates, are refused as well as
malformed text, so that a file has a reading only if it may hold settings.

Every nested value and every further name starts behind at least one more character, so the length
of the text bounds the depth of the descent.
-/

/-- One statement of a file. -/
inductive Statement where
  /-- The heading of a table. -/
  | heading (path : List String)
  /-- The heading of a further table of an array. -/
  | arrayHeading (path : List String)
  /-- A value under a name. -/
  | assignment (path : List String) (value : Value)
  deriving Repr

/-- Skip spaces and tabs. -/
def skipSpace (text : List Char) : List Char :=
  text.dropWhile isSpace

/-- Skip space, the ends of lines and comments. -/
def skipLines? (inComment : Bool) : List Char → Option (List Char)
  | [] => some []
  | '\n' :: rest => skipLines? false rest
  | '\r' :: '\n' :: rest => skipLines? false rest
  | c :: rest =>
      if inComment then
        if isPlain c then skipLines? true rest else none
      else if isSpace c then
        skipLines? false rest
      else if c == '#' then
        skipLines? true rest
      else
        some (c :: rest)

/-- What stands on the lines below, if nothing but a comment stands on the rest of this one. -/
def endLine? (text : List Char) : Option (List Char) :=
  let behind :=
    match skipSpace text with
    | '#' :: comment => comment.dropWhile isPlain
    | text => text
  match behind with
  | [] => some []
  | '\n' :: rest => some rest
  | '\r' :: '\n' :: rest => some rest
  | _ => none

/-- Characters of a name without quotation marks. -/
def isNameChar (c : Char) : Bool :=
  c.isAlphanum || c == '_' || c == '-'

/-- One name, with or without quotation marks. -/
def readName? : List Char → Option (String × List Char)
  | '"' :: rest => readShort? '"' rest
  | '\'' :: rest => readShort? '\'' rest
  | text =>
      match text.span isNameChar with
      | ([], _) => none
      | (name, behind) => some (String.ofList name, behind)

/-- Names separated by points. -/
def readPath? : (fuel : Nat) → List Char → Option (List String × List Char)
  | 0, _ => none
  | fuel + 1, text => do
      let (name, behind) ← readName? (skipSpace text)
      match skipSpace behind with
      | '.' :: behind => do
          let (path, behind) ← readPath? fuel behind
          return (name :: path, behind)
      | behind => return ([name], behind)

/-- The number that digits write in a base; an underscore may stand between two digits. -/
def digitsValue? (base : Nat) (text : List Char) : Option Nat :=
  (Text.splitAt '_' text).foldlM
    (fun value digits =>
      if digits.isEmpty then none
      else digits.foldlM
        (fun value digit => do
          let digit ← hexValue? digit
          if digit < base then some (value * base + digit) else none)
        value)
    0

/-- A decimal number without zeros in front. -/
def decimalValue? : List Char → Option Nat
  | ['0'] => some 0
  | '0' :: _ => none
  | digits => digitsValue? 10 digits

/-- A whole number: decimal and perhaps with a sign, or in another base. -/
def integerValue? : List Char → Option Int
  | '0' :: 'x' :: digits => (digitsValue? 16 digits).map Int.ofNat
  | '0' :: 'o' :: digits => (digitsValue? 8 digits).map Int.ofNat
  | '0' :: 'b' :: digits => (digitsValue? 2 digits).map Int.ofNat
  | '-' :: digits => (decimalValue? digits).map fun number => -Int.ofNat number
  | '+' :: digits => (decimalValue? digits).map Int.ofNat
  | digits => (decimalValue? digits).map Int.ofNat

/-- Characters that a value without quotation marks and brackets may hold. -/
def isScalarChar (c : Char) : Bool :=
  isNameChar c || c == '+' || c == '.' || c == ':'

mutual

/-- One value. -/
def readValue? : (fuel : Nat) → List Char → Option (Value × List Char)
  | 0, _ => none
  | fuel + 1, text =>
      match text with
      | '"' :: '"' :: '"' :: rest => do
          let (content, behind) ← readLong? '"' rest
          return (.text content, behind)
      | '\'' :: '\'' :: '\'' :: rest => do
          let (content, behind) ← readLong? '\'' rest
          return (.text content, behind)
      | '"' :: rest => do
          let (content, behind) ← readShort? '"' rest
          return (.text content, behind)
      | '\'' :: rest => do
          let (content, behind) ← readShort? '\'' rest
          return (.text content, behind)
      | '[' :: rest => do
          let (items, behind) ← readItems? fuel rest
          return (.array items, behind)
      | '\x7b' :: rest => do
          let (entries, behind) ← readEntries? fuel [] rest
          return (.table .inline entries, behind)
      | _ => do
          let (scalar, behind) := text.span isScalarChar
          return (.integer (← integerValue? scalar), behind)

/-- The items of an array up to its closing bracket; a comma may follow the last one. -/
def readItems? : (fuel : Nat) → List Char → Option (List Value × List Char)
  | 0, _ => none
  | fuel + 1, text => do
      match ← skipLines? false text with
      | ']' :: behind => return ([], behind)
      | text =>
          let (item, behind) ← readValue? fuel text
          match ← skipLines? false behind with
          | ',' :: behind => do
              let (items, behind) ← readItems? fuel behind
              return (item :: items, behind)
          | ']' :: behind => return ([item], behind)
          | _ => none

/-- The further entries of an inline table up to its closing brace; a comma may follow the last. -/
def readEntries? : (fuel : Nat) → Entries → List Char → Option (Entries × List Char)
  | 0, _, _ => none
  | fuel + 1, entries, text => do
      match ← skipLines? false text with
      | '\x7d' :: behind => return (entries, behind)
      | text =>
          let (path, behind) ← readPath? fuel text
          match behind with
          | '=' :: behind => do
              let (value, behind) ← readValue? fuel (skipSpace behind)
              let entries ← entries.assign value path
              match ← skipLines? false behind with
              | ',' :: behind => readEntries? fuel entries behind
              | '\x7d' :: behind => return (entries, behind)
              | _ => none
          | _ => none

end

/-- One statement and what stands on the lines below it. -/
def readStatement? (text : List Char) : Option (Statement × List Char) :=
  let fuel := text.length + 1
  match text with
  | '[' :: '[' :: rest => do
      match ← readPath? fuel rest with
      | (path, ']' :: ']' :: behind) => return (.arrayHeading path, ← endLine? behind)
      | _ => none
  | '[' :: rest => do
      match ← readPath? fuel rest with
      | (path, ']' :: behind) => return (.heading path, ← endLine? behind)
      | _ => none
  | _ => do
      match ← readPath? fuel text with
      | (path, '=' :: behind) => do
          let (value, behind) ← readValue? fuel (skipSpace behind)
          return (.assignment path value, ← endLine? behind)
      | _ => none

/-- All statements of a text. -/
def readStatements? : (fuel : Nat) → List Char → Option (List Statement)
  | 0, _ => none
  | fuel + 1, text => do
      match ← skipLines? false text with
      | [] => return []
      | text => do
          let (statement, behind) ← readStatement? text
          return statement :: (← readStatements? fuel behind)

namespace Statement

/-- A file's table so far, and the path of the heading that the next values stand under. -/
structure Progress where
  entries : Entries
  current : List String

/-- Carry out a statement; none if it contradicts an earlier one. -/
def carryOut? (statement : Statement) (progress : Progress) : Option Progress :=
  match statement with
  | heading path => do
      let entries ←
        progress.entries.descend (·.addHeading (path.getLast?.getD "")) path.dropLast
      return ⟨entries, path⟩
  | arrayHeading path => do
      let entries ←
        progress.entries.descend (·.addTable (path.getLast?.getD "")) path.dropLast
      return ⟨entries, path⟩
  | assignment path value => do
      let entries ← progress.entries.descend (·.assign value path) progress.current
      return { progress with entries }

end Statement

/-- The table that a text describes; a byte order mark may stand in front. -/
def readTable? (text : String) : Option Entries := do
  let text :=
    match text.toList with
    | '\uFEFF' :: rest => rest
    | text => text
  let statements ← readStatements? (text.length + 1) text
  let progress ← statements.foldlM (fun progress statement => statement.carryOut? progress) ⟨[], []⟩
  return progress.entries

end TagCheck.Toml
