import TagCheck.Text.Pieces

namespace TagCheck.Toml

/-!
# Values of settings files

A settings file in the TOML format is a table of named values.  How a table came to be decides what
may still be added to it: a table written inline is complete, a table that arose from a dotted name
only grows by dotted names, and a table that was merely passed through on the way to another one may
still get a heading of its own.
-/

/-- How a table came to be. -/
inductive TableOrigin where
  /-- On the way to a table below it. -/
  | passage
  /-- By a heading of its own. -/
  | heading
  /-- By a dotted name. -/
  | dotted
  /-- Between braces; nothing can be added. -/
  | inline
  deriving Repr, DecidableEq

/-- A value.  Only texts and whole numbers are scalars: nothing else is ever asked for. -/
inductive Value where
  | text (content : String)
  | integer (number : Int)
  | array (items : List Value)
  /-- An array of tables, which grows by a heading each. -/
  | tables (items : List (List (String × Value)))
  | table (origin : TableOrigin) (entries : List (String × Value))
  deriving Repr

/-- The named values of a table, in the order they were written. -/
abbrev Entries := List (String × Value)

namespace Entries

/--
Add a value under a dotted name.  The tables on the way are created, or they arose from dotted
names or in passing; the last name must be new.
-/
def assign (value : Value) : (path : List String) → Entries → Option Entries
  | [], _ => none
  | [name], entries =>
      if (entries.lookup name).isSome then none else some (entries ++ [(name, value)])
  | name :: path, entries =>
      match entries.lookup name with
      | none => do return entries ++ [(name, .table .dotted (← assign value path []))]
      | some (.table .dotted inner) => do
          return replace name (.table .dotted (← assign value path inner)) entries
      | some (.table .passage inner) => do
          return replace name (.table .passage (← assign value path inner)) entries
      | some _ => none
where
  /-- Put another value under a name that is there. -/
  replace (name : String) (value : Value) (entries : Entries) : Entries :=
    entries.map fun entry => if entry.1 = name then (name, value) else entry

/--
Change the table that a path leads to, creating the tables on the way; an array of tables leads to
its last one.
-/
def descend (change : Entries → Option Entries) :
    (path : List String) → Entries → Option Entries
  | [], entries => change entries
  | name :: path, entries =>
      match entries.lookup name with
      | none => do return entries ++ [(name, .table .passage (← descend change path []))]
      | some (.table .inline _) => none
      | some (.table origin inner) => do
          return assign.replace name (.table origin (← descend change path inner)) entries
      | some (.tables items) => do
          let last ← items.getLast?
          let last ← descend change path last
          return assign.replace name (.tables (items.dropLast ++ [last])) entries
      | some _ => none

/-- Give a table its heading. -/
def addHeading (name : String) (entries : Entries) : Option Entries :=
  match entries.lookup name with
  | none => some (entries ++ [(name, .table .heading [])])
  | some (.table .passage inner) =>
      some (assign.replace name (.table .heading inner) entries)
  | some _ => none

/-- Begin a further table of an array. -/
def addTable (name : String) (entries : Entries) : Option Entries :=
  match entries.lookup name with
  | none => some (entries ++ [(name, .tables [[]])])
  | some (.tables items) => some (assign.replace name (.tables (items ++ [[]])) entries)
  | some _ => none

end Entries

end TagCheck.Toml
