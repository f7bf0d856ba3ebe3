import ApiModel.Descriptor.Basic
import ApiModel.Text.Blank

/-!
# Comments of schema files

The comments before elements, found by the way to the element. A comment is kept without the blank
that follows the comment sign on each line and without the blank lines around it.
-/

namespace ApiModel.Descriptor

/-- A position as a number of 32 bits. Those that do not fit are all the largest number. -/
def positionNumber (position : Nat) : Int32 := Int32.ofNat (min position 2147483647)

/-- The way to an element: the field number and the position of each step. -/
abbrev Place := List Int32

namespace Place

/-- A step to the element at a position among those of a field number. -/
def child (place : Place) (fieldNumber : Int32) (position : Nat) : Place :=
  place ++ [fieldNumber, positionNumber position]

/-- The place of a message of a file. -/
def fileMessage (position : Nat) : Place := child [] 4 position

/-- The place of an enumeration of a file. -/
def fileEnum (position : Nat) : Place := child [] 5 position

/-- The place of a service of a file. -/
def fileService (position : Nat) : Place := child [] 6 position

/-- The place of a field of a message. -/
def field (message : Place) (position : Nat) : Place := message.child 2 position

/-- The place of a message nested in another. -/
def nestedMessage (message : Place) (position : Nat) : Place := message.child 3 position

/-- The place of an enumeration nested in a message. -/
def nestedEnum (message : Place) (position : Nat) : Place := message.child 4 position

/-- The place of a group of alternatives of a message. -/
def oneof (message : Place) (position : Nat) : Place := message.child 8 position

/-- The place of a value of an enumeration. -/
def value (enumeration : Place) (position : Nat) : Place := enumeration.child 2 position

/-- The place of a method of a service. -/
def method (service : Place) (position : Nat) : Place := service.child 2 position

end Place

/-- The lines of a text. A line ends in a line feed, with or without a carriage return before it;
the last one may end with the text. -/
def lines (text : List Char) : List (List Char) :=
  match (Text.pieces (· == '\n') text).reverse with
  | [] => []
  | last :: ended =>
    let whole := ended.reverse.map fun line =>
      if line.getLast? == some '\r' then line.dropLast else line
    if last.isEmpty then whole else whole ++ [last]

/-- A comment without its margin. -/
def cleanComment (comment : String) : String :=
  let shown := (lines comment.toList).map fun line =>
    match line with
    | ' ' :: rest => String.ofList rest
    | _ => String.ofList line
  Text.trim ("\n".intercalate shown)

/-- The comments of a file by place; where several stand before one place, the last counts. -/
structure Comments where
  /-- The places that have comments, last one first, and their comments. -/
  entries : List (Place × String)

/-- The comments of a file. -/
def Comments.ofFile (file : File) : Comments :=
  let locations := (file.sourceInfo.map SourceInfo.locations).getD []
  let commented := locations.filterMap fun location =>
    location.leadingComments.map fun comment => (location.path, cleanComment comment)
  ⟨commented.reverse⟩

/-- The comment before an element, empty if there is none. -/
def Comments.before (comments : Comments) (place : Place) : String :=
  (comments.entries.lookup place).getD ""

end ApiModel.Descriptor
