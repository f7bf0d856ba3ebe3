/-!
# Data trees

The shape in which a model is written: scalars, lists, records with ordered members, and values
marked with the name of their alternative.
-/

namespace ApiModel

/-- A tree of data. -/
inductive Tree where
  /-- No value. -/
  | null
  /-- A truth value. -/
  | bool (value : Bool)
  /-- A whole number. -/
  | number (value : Int)
  /-- A text. -/
  | text (value : String)
  /-- A list. -/
  | list (items : List Tree)
  /-- Members under their names, in order. -/
  | record (members : List (String × Tree))
  /-- A value of one of several alternatives, under the name of the alternative. -/
  | tagged (name : String) (payload : Tree)
deriving Inhabited

namespace Tree

/-- A value that may be missing. -/
def optional {α : Type} (write : α → Tree) : Option α → Tree
  | none => .null
  | some value => write value

/-- A list of values. -/
def listOf {α : Type} (write : α → Tree) (values : List α) : Tree :=
  .list (values.map write)

/-- A list of texts. -/
def texts (values : List String) : Tree :=
  listOf .text values

/-- A natural number. -/
def count (value : Nat) : Tree :=
  .number value

/-- Whether a value says nothing: no value, a false or empty one. -/
def isBlank : Tree → Bool
  | .null => true
  | .bool value => !value
  | .text value => value.isEmpty
  | .list items => items.isEmpty
  | .record members => members.isEmpty
  | .number _ => false
  | .tagged _ _ => false

mutual

/-- The tree without the members that say nothing, from the leaves up; list items stay. -/
def compact : Tree → Tree
  | .list items => .list (compactItems items)
  | .record members => .record (compactMembers members)
  | .tagged name payload =>
    let inner := payload.compact
    if inner.isBlank then .record [] else .tagged name inner
  | other => other

/-- The items without the members that say nothing. -/
def compactItems : List Tree → List Tree
  | [] => []
  | item :: rest => item.compact :: compactItems rest

/-- The members that say something. -/
def compactMembers : List (String × Tree) → List (String × Tree)
  | [] => []
  | (name, value) :: rest =>
    let inner := value.compact
    if inner.isBlank then compactMembers rest else (name, inner) :: compactMembers rest

end

end Tree

end ApiModel
