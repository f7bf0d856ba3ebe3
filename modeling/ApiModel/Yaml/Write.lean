import ApiModel.Tree
import ApiModel.Yaml.Style

/-!
# Writing data trees

The text of a data tree in YAML. Members stand on lines of their own, those of inner records two
columns further in; the items of a list stand below its key. Lists and records without content stand
in brackets and braces.
-/

namespace ApiModel.Yaml

/-! ## Scalars -/

/-- As many spaces as there are to be. -/
def spaces (count : Nat) : List Char :=
  List.replicate count ' '

/-- The hexadecimal digits of a number, so many of them. -/
def hexDigits (width number : Nat) : List Char :=
  (List.range width).reverse.map fun place =>
    (Nat.digitChar (number / Nat.pow 16 place % 16)).toUpper

/-- A character with an escape of its own, as the escape is written. -/
def shortEscape? : Char → Option (List Char)
  | '\x00' => some ['\\', '0']
  | '\x07' => some ['\\', 'a']
  | '\x08' => some ['\\', 'b']
  | '\t' => some ['\\', 't']
  | '\n' => some ['\\', 'n']
  | '\x0b' => some ['\\', 'v']
  | '\x0c' => some ['\\', 'f']
  | '\r' => some ['\\', 'r']
  | '\x1b' => some ['\\', 'e']
  | '"' => some ['\\', '"']
  | '\\' => some ['\\', '\\']
  | '\u0085' => some ['\\', 'N']
  | '\u2028' => some ['\\', 'L']
  | '\u2029' => some ['\\', 'P']
  | _ => none

/-- A character between double quotes. -/
def escaped (c : Char) : List Char :=
  match shortEscape? c with
  | some escape => escape
  | none =>
    if isShown c then [c]
    else if c.toNat ≤ 0xFF then '\\' :: 'x' :: hexDigits 2 c.toNat
    else if c.toNat ≤ 0xFFFF then '\\' :: 'u' :: hexDigits 4 c.toNat
    else '\\' :: 'U' :: hexDigits 8 c.toNat

/-- Characters between single quotes; what follows a line break is indented. -/
def singleQuoted (indent : Nat) (afterBreak : Bool) : List Char → List Char
  | [] => if afterBreak then spaces indent else []
  | c :: rest =>
    if isBreak c then c :: singleQuoted indent true rest
    else
      (if afterBreak && c != ' ' then spaces indent else [])
        ++ (if c == '\'' then ['\'', '\''] else [c])
        ++ singleQuoted indent (afterBreak && c == ' ') rest

/-- The lines of a block; every line that is not empty is indented. -/
def literalLines (indent : Nat) (afterBreak : Bool) : List Char → List Char
  | [] => []
  | c :: rest =>
    if isBreak c then c :: literalLines indent true rest
    else (if afterBreak then spaces indent else []) ++ c :: literalLines indent false rest

/-- The hints before a block: the indentation if the text begins with a gap, and what becomes of the
line breaks at its end. -/
def literalHints (cs : List Char) : List Char :=
  let indentation := if cs.head?.any fun c => c == ' ' || isBreak c then ['2'] else []
  let chomping :=
    match cs.reverse with
    | [] => ['-']
    | last :: before =>
      if !isBreak last then ['-']
      else if before.head?.all isBreak then ['+']
      else []
  indentation ++ chomping

/-- A scalar in a style; further lines have so many spaces before them. -/
def styledText (indent : Nat) (cs : List Char) : Style → List Char
  | .plain => cs
  | .single => '\'' :: (singleQuoted indent false cs ++ ['\''])
  | .double => '"' :: (cs.flatMap escaped ++ ['"'])
  | .literal => '|' :: (literalHints cs ++ '\n' :: literalLines indent true cs)

/-- A text as the value of a member or an item. -/
def textValue (indent : Nat) (text : String) : List Char :=
  styledText indent text.toList (valueStyle text)

/-- A text as a key on the line of its value. -/
def simpleKey (text : String) : List Char :=
  styledText 0 text.toList (valueStyle text)

/-- A whole number. -/
def numberText (value : Int) : List Char :=
  match value with
  | .ofNat n => (Nat.repr n).toList
  | .negSucc n => '-' :: (Nat.repr (n + 1)).toList

/-- Ends the line, unless a block of lines has done so. -/
def endLine (cs : List Char) : List Char :=
  if cs.getLast?.any isBreak then cs else cs ++ ['\n']

/-- A key and what stands between it and its value. A key that is long or has line breaks stands
behind a question mark on a line of its own. -/
def keyText (indent : Nat) (key : String) : List Char :=
  if isSimpleKey key then spaces indent ++ simpleKey key ++ [':']
  else spaces indent ++ '?' :: ' ' :: endLine (textValue (indent + 2) key) ++ spaces indent ++ [':']

/-! ## Trees -/

/-- Whether a tree stands on lines of its own. -/
def isNested : Tree → Bool
  | .list items => !items.isEmpty
  | .record members => !members.isEmpty
  | _ => false

/-- A tree that stands on the line of its key or dash. -/
def inlineText (indent : Nat) : Tree → List Char
  | .null => "null".toList
  | .bool true => "true".toList
  | .bool false => "false".toList
  | .number value => numberText value
  | .text value => textValue indent value
  | .list _ => "[]".toList
  | .record _ => ['\x7b', '\x7d']
  | .tagged _ _ => []

mutual

/-- What stands behind a key whose line has so many spaces before it, line ends included. -/
def memberValue (indent : Nat) : Tree → List Char
  | .tagged name payload => ' ' :: '!' :: (name.toList ++ memberValue indent payload)
  | .list (item :: rest) => '\n' :: itemLines indent (item :: rest)
  | .record (member :: rest) => '\n' :: memberLines (indent + 2) (member :: rest)
  | value => endLine (' ' :: inlineText (indent + 2) value)

/-- What stands behind the dash of an item whose line has so many spaces before it. -/
def itemValue (indent : Nat) : Tree → List Char
  | .tagged name payload => ' ' :: '!' :: (name.toList ++ memberValue indent payload)
  | .list (item :: rest) => ' ' :: (itemLines (indent + 2) (item :: rest)).drop (indent + 2)
  | .record (member :: rest) => ' ' :: (memberLines (indent + 2) (member :: rest)).drop (indent + 2)
  | value => endLine (' ' :: inlineText (indent + 2) value)

/-- The lines of the items of a list. -/
def itemLines (indent : Nat) : List Tree → List Char
  | [] => []
  | item :: rest => spaces indent ++ '-' :: (itemValue indent item ++ itemLines indent rest)

/-- The lines of the members of a record. -/
def memberLines (indent : Nat) : List (String × Tree) → List Char
  | [] => []
  | (key, value) :: rest =>
    keyText indent key ++ memberValue indent value ++ memberLines indent rest

end

/-- The text of a document that holds a tree. -/
def writeDocument (tree : Tree) : String :=
  String.ofList
    (match tree with
    | .record members =>
      if members.isEmpty then endLine (inlineText 0 tree) else memberLines 0 members
    | .list items => if items.isEmpty then endLine (inlineText 0 tree) else itemLines 0 items
    | _ => (memberValue 0 tree).drop 1)

end ApiModel.Yaml
