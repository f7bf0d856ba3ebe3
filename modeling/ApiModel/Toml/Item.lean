import ApiModel.Text.Basic

/-!
# Items of a settings document

Texts, tables and arrays of a TOML document, and how headers and keys add to them. How a table came
to be decides whether it may still grow: a table with a header of its own cannot be reopened, and
one that is written inline is closed.
-/

namespace ApiModel.Toml

/-- How a table came to be. -/
inductive TableKind where
  /-- By a header of its own, or as the whole document. -/
  | header
  /-- As a part of a longer header. -/
  | implied
  /-- As a part of a dotted key. -/
  | dotted
  /-- Between braces. -/
  | inline
deriving DecidableEq, Repr

/-- An item of a document. -/
inductive Item where
  /-- A text. -/
  | text (value : String)
  /-- A number, a truth value or a date, in the range of its type or not. -/
  | scalar (inRange : Bool)
  /-- An array between brackets. -/
  | array (items : List Item)
  /-- The tables of a repeated header. -/
  | tables (items : List Item)
  /-- A table. -/
  | table (kind : TableKind) (members : List (String × Item))
deriving Inhabited

namespace Item

/-- A table without members. -/
def blank (kind : TableKind) : Item := .table kind []

/-- The members with one of them replaced, or added behind the others. -/
def setMember (name : String) (item : Item) : List (String × Item) → List (String × Item)
  | [] => [(name, item)]
  | (key, value) :: rest =>
    if key == name then (key, item) :: rest else (key, value) :: setMember name item rest

/-- A table to go on in, and the item around it once it has changed. -/
structure Entered where
  /-- The table. -/
  inner : Item
  /-- The item around the table. -/
  around : Item → Item

/-- Enters a member of a table. A missing one is made; of a repeated header it is the last table; a
dotted key does not enter a table with a header of its own. -/
def enter? (dotted : Bool) : Option Item → Option Entered
  | none => some ⟨blank (if dotted then .dotted else .implied), fun inner => inner⟩
  | some (.tables items) =>
    items.getLast?.map fun last => ⟨last, fun inner => .tables (items.dropLast ++ [inner])⟩
  | some (.table kind members) =>
    if kind == .inline || (dotted && kind == .header) then none
    else some ⟨.table kind members, fun inner => inner⟩
  | some _ => none

/-- Changes the table at the end of a path. -/
def update (dotted : Bool) (change : Item → Option Item) : List String → Item → Option Item
  | [], item => change item
  | name :: rest, .table kind members =>
    match enter? dotted (members.lookup name) with
    | none => none
    | some entered =>
      (update dotted change rest entered.inner).map fun inner =>
        .table kind (setMember name (entered.around inner) members)
  | _ :: _, _ => none

/-- A key: a name, and those before it if it is dotted. -/
structure Key where
  /-- The names before the last dot. -/
  path : List String
  /-- The name. -/
  name : String
deriving DecidableEq, Repr

/-- Adds a new member to a table. Only a table that came from dotted keys takes members of them. -/
def addMember (dotted : Bool) (name : String) (value : Item) : Item → Option Item
  | .table kind members =>
    if (kind == .dotted) != dotted || (members.lookup name).isSome then none
    else some (.table kind (members ++ [(name, value)]))
  | _ => none

/-- Puts a value under a key. -/
def put (key : Key) (value : Item) (item : Item) : Option Item :=
  update true (addMember (!key.path.isEmpty) key.name value) key.path item

/-- Declares the member of a header; a member that is there may only come from longer headers. -/
def declareTable (name : String) : Item → Option Item
  | .table kind members =>
    match members.lookup name with
    | none => some (.table kind (setMember name (blank .header) members))
    | some (.table .implied inner) =>
      some (.table kind (setMember name (.table .header inner) members))
    | some _ => none
  | _ => none

/-- Declares one more table of a repeated header. -/
def declareElement (name : String) : Item → Option Item
  | .table kind members =>
    match members.lookup name with
    | none => some (.table kind (setMember name (.tables [blank .header]) members))
    | some (.tables items) =>
      some (.table kind (setMember name (.tables (items ++ [blank .header])) members))
    | some _ => none
  | _ => none

mutual

/-- Whether all numbers inside an item are in range. -/
def isSound : Item → Bool
  | .text _ => true
  | .scalar inRange => inRange
  | .array items => areSound items
  | .tables items => areSound items
  | .table _ members => membersAreSound members

/-- Whether all numbers inside items are in range. -/
def areSound : List Item → Bool
  | [] => true
  | item :: rest => item.isSound && areSound rest

/-- Whether all numbers inside members are in range. -/
def membersAreSound : List (String × Item) → Bool
  | [] => true
  | (_, item) :: rest => item.isSound && membersAreSound rest

end

end Item

end ApiModel.Toml
