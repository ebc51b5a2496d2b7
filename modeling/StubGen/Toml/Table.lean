import StubGen.Json.Value

/-!
# Tables of a TOML document

A table remembers how it came about, since a table may be added to only in the way in which it was made.

* `Item.insert` adds a value under a dotted key.
* `Item.openTable` and `Item.openElement` make the tables of headers.
-/

namespace StubGen.Toml

/-- How a table came about. -/
inductive Origin where
  /-- By the header of a table inside it. -/
  | implied
  /-- By a dotted key. -/
  | dotted
  /-- By its own header, or as a value. -/
  | defined
  deriving DecidableEq, Repr

/-- What stands under a key. -/
inductive Item where
  | value (value : Json)
  | table (origin : Origin) (entries : List (String × Item))
  /-- An array of tables, last one first. -/
  | elements (tables : List (List (String × Item)))
  deriving Inhabited

/-- The entries of a table. -/
abbrev Entries := List (String × Item)

namespace Item

/-- Puts an item under a key, in the place of the one that was there. -/
def put (key : String) (item : Item) : Entries → Entries
  | [] => [(key, item)]
  | (other, kept) :: rest => if key = other then (key, item) :: rest else (other, kept) :: put key item rest

/-- Changes the table at the end of a path.  `make` is the origin of tables that are missing on the way, and
`enter` says which tables may be entered.  An array of tables stands for its last element. -/
def changeAt (make : Origin) (enter : Origin → Bool) (change : Origin → Entries → Option Entries) :
    Origin → List String → Entries → Option Entries
  | origin, [], entries => change origin entries
  | _, key :: path, entries =>
    match entries.lookup key with
    | none => (changeAt make enter change make path []).map fun inner => put key (.table make inner) entries
    | some (.value _) => none
    | some (.table origin inner) =>
      if enter origin then
        (changeAt make enter change origin path inner).map fun inner => put key (.table origin inner) entries
      else none
    | some (.elements []) => none
    | some (.elements (last :: others)) =>
      (changeAt make enter change .defined path last).map fun last => put key (.elements (last :: others)) entries

/-- Adds a value under a dotted key.  The tables on the way must have been made by dotted keys. -/
def insert (path : List String) (key : String) (value : Json) (entries : Entries) : Option Entries :=
  changeAt .dotted (· ≠ .defined)
    (fun origin entries =>
      if (path ≠ [] && origin ≠ .dotted) || (entries.lookup key).isSome then none
      else some (entries ++ [(key, .value value)]))
    .defined path entries

/-- Changes the table that a header has opened. -/
def changeOpen (header : List String) (change : Entries → Option Entries) (entries : Entries) : Option Entries :=
  changeAt .implied (fun _ => true) (fun _ entries => change entries) .defined header entries

/-- Opens the table of a header. -/
def openTable (path : List String) (key : String) (entries : Entries) : Option Entries :=
  changeOpen path
    (fun entries =>
      match entries.lookup key with
      | none => some (put key (.table .defined []) entries)
      | some (.table .implied inner) => some (put key (.table .defined inner) entries)
      | some _ => none)
    entries

/-- Opens the next element of the array of tables of a header. -/
def openElement (path : List String) (key : String) (entries : Entries) : Option Entries :=
  changeOpen path
    (fun entries =>
      match entries.lookup key with
      | none => some (put key (.elements [[]]) entries)
      | some (.elements tables) => some (put key (.elements ([] :: tables)) entries)
      | some _ => none)
    entries

mutual

/-- The value that an item stands for. -/
def toJson : Item → Json
  | .value content => content
  | .table _ entries => Json.ofFields (fieldsOf entries)
  | .elements tables => .array (objectsOf tables).reverse
termination_by structural item => item

/-- The fields of a table. -/
def fieldsOf : List (String × Item) → List (String × Json)
  | [] => []
  | (key, item) :: rest => (key, toJson item) :: fieldsOf rest
termination_by structural entries => entries

/-- The objects of an array of tables. -/
def objectsOf : List (List (String × Item)) → List Json
  | [] => []
  | entries :: rest => Json.ofFields (fieldsOf entries) :: objectsOf rest
termination_by structural tables => tables

end

end Item

end StubGen.Toml
