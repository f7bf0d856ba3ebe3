import ApiModel.Text.Basic
import ApiModel.Text.Case

/-!
# Naming

How the full names of elements are made from packages and names.
-/

namespace ApiModel

/-- The full name of something that a package declares. -/
def qualify (package name : String) : String :=
  if package.isEmpty then "." ++ name else "." ++ package ++ "." ++ name

/-- The host of an address: what stands behind the scheme up to the first slash. -/
def hostOf (address : List Char) : String :=
  String.ofList (address.takeWhile (· != '/'))

/-- The text behind the first occurrence of another, if there is one. -/
def behindFirst? (mark : List Char) : List Char → Option (List Char)
  | [] => if mark.isEmpty then some [] else none
  | c :: rest =>
    match mark.isPrefixOf? (c :: rest) with
    | some behind => some behind
    | none => behindFirst? mark rest

/-- A name part with its first letter in upper case. -/
def capitalized : List Char → List Char
  | [] => []
  | c :: rest => Text.upperChar c ++ rest

/-- The parts of a name between underscores, dashes and dots, each with its first letter in upper
case. -/
def pascalCase (name : String) : String :=
  String.ofList
    ((Text.pieces (fun c => c == '_' || c == '-' || c == '.') name.toList).flatMap capitalized)

end ApiModel
