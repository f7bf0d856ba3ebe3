import ApiModel.Wire.Field

/-!
# Reading messages

A message is read field by field into a value that begins with defaults. A scalar that comes again
replaces the one before, a message that comes again is merged into it, and repeated fields grow. A
field that the message does not know is skipped. The levels bound how deep messages may still nest.
-/

namespace ApiModel.Wire

/-- How many levels of messages may nest below the outermost one. -/
def maxLevels : Nat := 100

/-- How the value of a field goes into a message that is being read. -/
abbrev Put (α : Type) := α → Value → Option α

/-- The truth value of an integer. -/
def boolOf (n : Nat) : Bool := n != 0

/-- The low 32 bits of an integer, with a sign. -/
def int32Of (n : Nat) : Int32 := Int32.ofNat n

/-- Reads integers one behind the other. -/
def readIntegers (bytes : Bytes) : Option (List Nat) :=
  if bytes.isEmpty then some []
  else
    match _hread : readVarint bytes with
    | none => none
    | some (n, rest) => (readIntegers rest).map (n :: ·)
termination_by bytes.length
decreasing_by exact length_lt_of_readVarint _hread

namespace Value

/-- A truth value. -/
def bool? : Value → Option Bool
  | .varint n => some (boolOf n)
  | _ => none

/-- A 32-bit integer. -/
def int32? : Value → Option Int32
  | .varint n => some (int32Of n)
  | _ => none

/-- A text. -/
def text? : Value → Option String
  | .delimited bytes => Text.ofBytes? bytes
  | _ => none

/-- The bytes of a message. -/
def message? : Value → Option Bytes
  | .delimited bytes => some bytes
  | _ => none

/-- One 32-bit integer, or several packed behind one length. -/
def int32s? : Value → Option (List Int32)
  | .varint n => some [int32Of n]
  | .delimited bytes => (readIntegers bytes).map (List.map int32Of)
  | _ => none

end Value

/-- Reads the fields of a message into a value; unknown fields need a level to be skipped. -/
def mergeAt {α : Type} (levels : Nat) (known : Nat → Option (Put α)) (start : α)
    (bytes : Bytes) :
    Option α := do
  let fields ← readFields levels bytes
  fields.foldlM
    (fun value field =>
      match known field.number with
      | some put => put value field.value
      | none => if levels = 0 then none else some value)
    start

/-- Reads a message one level further down. -/
def mergeBelow {α : Type} (levels : Nat) (known : Nat → Nat → Option (Put α)) (start : α)
    (bytes : Bytes) : Option α :=
  match levels with
  | 0 => none
  | below + 1 => mergeAt below (known below) start bytes

/-- Puts an optional message, merged into the one before. -/
def putMessage {α β : Type} [Inhabited β] (levels : Nat)
    (known : Nat → Nat → Option (Put β)) (get : α → Option β)
    (set : α → Option β → α) : Put α :=
  fun value field => do
    let inner ← mergeBelow levels known ((get value).getD default) (← field.message?)
    return set value (some inner)

/-- Puts another message of a repeated field. -/
def addMessage {α β : Type} [Inhabited β] (levels : Nat)
    (known : Nat → Nat → Option (Put β)) (add : α → β → α) : Put α :=
  fun value field => do
    return add value (← mergeBelow levels known default (← field.message?))

/-- Puts a scalar in place of the one before. -/
def putScalar {α β : Type} (read : Value → Option β) (set : α → β → α) : Put α :=
  fun value field => (read field).map (set value)

end ApiModel.Wire
