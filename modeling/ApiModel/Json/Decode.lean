import ApiModel.Index
import ApiModel.Json.Lexer

/-!
# Reading values out of JSON

Texts, truth values, lists, maps and records out of JSON values. A record is an object, or an array
of its members in their order; members may be missing, and unknown ones are passed over. The levels
bound how deep arrays and objects may still nest.
-/

namespace ApiModel.Json

/-- How many arrays and objects may nest in what is read. -/
def maxLevels : Nat := 127

/-- Reading a value while levels remain. -/
abbrev Decoder (α : Type) := Nat → Value → Option α

namespace Decoder

/-- A text. -/
def text : Decoder String
  | _, .text content => content
  | _, _ => none

/-- A truth value. -/
def bool : Decoder Bool
  | _, .bool value => some value
  | _, _ => none

/-- A value that may be null. -/
def optional {α : Type} (read : Decoder α) : Decoder (Option α)
  | _, .null => some none
  | levels, value => (read levels value).map some

/-- The items of an array. -/
def list {α : Type} (read : Decoder α) : Decoder (List α)
  | levels + 1, .array items => items.mapM (read levels)
  | _, _ => none

/-- The members of an object in the order of their keys; the last of one key counts. -/
def map {α : Type} (read : Decoder α) : Decoder (List (String × α))
  | levels + 1, .object members => do
    let entries ← members.mapM fun (key, value) => return (← key, ← read levels value)
    return entries.foldl (fun all entry => Index.insertEntry entry.1 entry.2 all) []
  | _, _ => none

/-- The members of a record that are given, under their names. -/
def members (names : List String) : Value → Option (List (String × Value))
  | .object members => members.mapM fun (key, value) => return (← key, value)
  | .array items => if items.length ≤ names.length then some (names.zip items) else none
  | _ => none

/-- A record, given how its members are read; two members of one known name are a fault. -/
def record {α : Type} (names : List String) (read : List (String × Value) → Nat → Option α) :
    Decoder α
  | 0, _ => none
  | levels + 1, value => do
    let given ← members names value
    let known := (given.map Prod.fst).filter fun name => names.contains name
    if known.eraseDups.length == known.length then read given levels else none

/-- A member of a record, or a default if it is not given. -/
def memberOr {α : Type} (given : List (String × Value)) (levels : Nat) (name : String)
    (default : α) (read : Decoder α) : Option α :=
  match given.lookup name with
  | some value => read levels value
  | none => some default

end Decoder

mutual

/-- Whether a value is sound in all of its parts: texts have characters, numbers are in range, and
the nesting keeps to the levels. -/
def Value.isSound : Nat → Value → Bool
  | _, .null => true
  | _, .bool _ => true
  | _, .number inRange => inRange
  | _, .text content => content.isSome
  | 0, .array _ => false
  | levels + 1, .array items => areSound levels items
  | 0, .object _ => false
  | levels + 1, .object members => membersAreSound levels members

/-- Whether all items are sound. -/
def Value.areSound (levels : Nat) : List Value → Bool
  | [] => true
  | item :: rest => item.isSound levels && areSound levels rest

/-- Whether all members are sound. -/
def Value.membersAreSound (levels : Nat) : List (Option String × Value) → Bool
  | [] => true
  | (key, value) :: rest => key.isSome && value.isSound levels && membersAreSound levels rest

end

/-- Whether a sound value is given; null is none. -/
def Decoder.isGiven : Decoder Bool
  | _, .null => some false
  | levels, value => if value.isSound levels then some true else none

/-- Reads a document. -/
def decode {α : Type} (read : Decoder α) (bytes : Bytes) : Option α :=
  (Value.ofBytes? bytes).bind (read maxLevels)

end ApiModel.Json
