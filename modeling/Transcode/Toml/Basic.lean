/-
**TOML documents** as trees of tables. A table remembers how it came about, because that decides
what may still be added to it.

* `Toml.Table.addValue` adds a value under a dotted key, `Toml.Table.openTable` and
  `Toml.Table.openArrayTable` add what a header in brackets announces; each refuses to define
  anything twice.
-/

namespace Transcode

/-- How a table came about. -/
inductive TableForm where
  /-- A header of its own; the document itself counts as such a table. -/
  | header
  /-- The header of a table inside it. -/
  | implied
  /-- The dotted key of a value inside it. -/
  | dotted
  /-- Braces. -/
  | inline
  /-- A dotted key within braces. -/
  | inlineDotted
  deriving DecidableEq, Repr

namespace TableForm

/-- Whether the table was made by a dotted key. -/
def isDotted (form : TableForm) : Bool :=
  form = dotted || form = inlineDotted

/-- Whether the table lies within braces, where headers do not reach. -/
def isInline (form : TableForm) : Bool :=
  form = inline || form = inlineDotted

end TableForm

/-- A value of a document. Of dates and times only their presence is kept. -/
inductive Toml where
  | string (text : String)
  | integer (value : Int)
  | float (value : Float)
  | bool (value : Bool)
  | moment
  | array (items : List Toml)
  | table (form : TableForm) (entries : List (String × Toml))
  /-- Tables with one header in double brackets each; the last one comes first. -/
  | tables (items : List (List (String × Toml)))

namespace Toml

/-- The entries of a table, in order. -/
abbrev Entries := List (String × Toml)

/-- A table together with how it came about. -/
structure Table where
  form : TableForm
  entries : Entries

namespace Table

/-- The empty document. -/
def document : Table :=
  ⟨.header, []⟩

/-- The table as a value. -/
def toToml (table : Table) : Toml :=
  .table table.form table.entries

/-- The entries with one replaced, or added at the end. -/
def put (entries : Entries) (key : String) (value : Toml) : Entries :=
  match entries with
  | [] => [(key, value)]
  | entry :: rest => if entry.1 = key then (key, value) :: rest else entry :: put rest key value

/-- The table with one entry replaced or added. -/
def set (table : Table) (key : String) (value : Toml) : Table :=
  { table with entries := put table.entries key value }

/-- Changes the table that a path leads to. Missing tables on the way get the given form. A dotted
key does not lead into a table with a header, and nothing leads into braces. -/
def change (form : TableForm) (path : List String) (apply : Table → Option Table)
    (table : Table) : Option Table :=
  match path with
  | [] => apply table
  | key :: rest =>
    match table.entries.lookup key with
    | none => do
      let child ← change form rest apply ⟨form, []⟩
      some (table.set key child.toToml)
    | some (.table childForm entries) =>
      if childForm = .inline || (form.isDotted && childForm = .header) then none
      else do
        let child ← change form rest apply ⟨childForm, entries⟩
        some (table.set key child.toToml)
    | some (.tables (last :: earlier)) => do
      let child ← change form rest apply ⟨.header, last⟩
      some (table.set key (.tables (child.entries :: earlier)))
    | some _ => none

/-- Adds an entry under a new key. -/
def addEntry (key : String) (value : Toml) (table : Table) : Option Table :=
  match table.entries.lookup key with
  | none => some (table.set key value)
  | some _ => none

/-- Adds a value under a dotted key, whose last part is given apart. Only tables that came about by
dotted keys can be extended by them. -/
def addValue (form : TableForm) (path : List String) (key : String) (value : Toml)
    (table : Table) : Option Table :=
  table.change form path fun target =>
    if target.form.isDotted = path.isEmpty then none else target.addEntry key value

/-- What a header makes of an entry: a new table, or one whose existence headers have implied. -/
def openEntry (key : String) (table : Table) : Option Table :=
  match table.entries.lookup key with
  | none => some (table.set key (.table .header []))
  | some (.table .implied entries) => some (table.set key (.table .header entries))
  | some _ => none

/-- Adds the table that a header announces. -/
def openTable (path : List String) (key : String) (table : Table) : Option Table :=
  table.change .implied path (openEntry key)

/-- What a header in double brackets makes of an entry: one more table. -/
def openArrayEntry (key : String) (table : Table) : Option Table :=
  match table.entries.lookup key with
  | none => some (table.set key (.tables [[]]))
  | some (.tables items) => some (table.set key (.tables ([] :: items)))
  | some _ => none

/-- Adds the table that a header in double brackets announces. -/
def openArrayTable (path : List String) (key : String) (table : Table) : Option Table :=
  table.change .implied path (openArrayEntry key)

/-- Adds a value to the table of the latest header. -/
def addUnder (header path : List String) (key : String) (value : Toml) (table : Table) :
    Option Table :=
  table.change .implied header (addValue .dotted path key value)

end Table

end Toml

end Transcode
