import ApiModel.Toml.Item

/-!
# Quoted texts

The four forms of texts in a settings document: on one line or on several, with escapes between
double quotes or without between single ones.
-/

namespace ApiModel.Toml

/-- Something that was read, and the characters behind it. -/
structure Parsed (α : Type) where
  /-- What was read. -/
  value : α
  /-- The characters behind it. -/
  rest : List Char

/-- Whether a character is a space or a tab. -/
def isSpace (c : Char) : Bool :=
  c == ' ' || c == '\t'

/-- Whether a character may stand in texts and comments: all but control characters, and the tab. -/
def isPlain (c : Char) : Bool :=
  c == '\t' || (0x20 ≤ c.toNat && c.toNat != 0x7F)

/-- The characters behind a line break, if there is one. -/
def afterBreak? : List Char → Option (List Char)
  | '\n' :: rest => some rest
  | '\r' :: '\n' :: rest => some rest
  | _ => none

/-- The value of a hexadecimal digit. -/
def hexDigit? (c : Char) : Option Nat :=
  if c.isDigit then some (c.toNat - '0'.toNat)
  else if 'a' ≤ c && c ≤ 'f' then some (c.toNat - 'a'.toNat + 10)
  else if 'A' ≤ c && c ≤ 'F' then some (c.toNat - 'A'.toNat + 10)
  else none

/-- The character with a code of so many hexadecimal digits. -/
def codeEscape (count : Nat) (input : List Char) : Option (Parsed Char) := do
  let digits ← (input.take count).mapM hexDigit?
  let code := digits.foldl (fun n d => n * 16 + d) 0
  if digits.length == count && code.isValidChar then
    some ⟨Char.ofNat code, input.drop count⟩
  else none

/-- The character that stands behind a backslash. -/
def escape : List Char → Option (Parsed Char)
  | 'b' :: rest => some ⟨'\x08', rest⟩
  | 't' :: rest => some ⟨'\t', rest⟩
  | 'n' :: rest => some ⟨'\n', rest⟩
  | 'f' :: rest => some ⟨'\x0c', rest⟩
  | 'r' :: rest => some ⟨'\r', rest⟩
  | 'e' :: rest => some ⟨'\x1b', rest⟩
  | '"' :: rest => some ⟨'"', rest⟩
  | '\\' :: rest => some ⟨'\\', rest⟩
  | 'x' :: rest => codeEscape 2 rest
  | 'u' :: rest => codeEscape 4 rest
  | 'U' :: rest => codeEscape 8 rest
  | _ => none

/-- Puts characters before those of a text. -/
def Parsed.prepend (characters : List Char) (text : Parsed (List Char)) : Parsed (List Char) :=
  ⟨characters ++ text.value, text.rest⟩

/-- Reads a text with escapes on one line, behind its quote; every round takes a character. -/
def escapedText : Nat → List Char → Option (Parsed (List Char))
  | 0, _ => none
  | _ + 1, [] => none
  | _ + 1, '"' :: rest => some ⟨[], rest⟩
  | fuel + 1, '\\' :: rest => do
    let escaped ← escape rest
    return (← escapedText fuel escaped.rest).prepend [escaped.value]
  | fuel + 1, c :: rest =>
    if isPlain c then (escapedText fuel rest).map (Parsed.prepend [c]) else none

/-- Reads a text without escapes on one line, behind its quote. -/
def literalText : List Char → Option (Parsed (List Char))
  | [] => none
  | '\'' :: rest => some ⟨[], rest⟩
  | c :: rest => if isPlain c then (literalText rest).map (Parsed.prepend [c]) else none

/-- The end of a text on several lines: three quotes, before which up to two belong to the text. -/
def closing? (quote : Char) (input : List Char) : Option (Parsed (List Char)) :=
  let count := (input.takeWhile (· == quote)).length
  if count < 3 then none
  else
    let kept := min (count - 3) 2
    some ⟨List.replicate kept quote, input.drop (kept + 3)⟩

/-- The characters behind blanks and line breaks; every round takes a character. -/
def skipBlankLines : Nat → List Char → List Char
  | 0, input => input
  | fuel + 1, input =>
    let shown := input.dropWhile isSpace
    match afterBreak? shown with
    | some rest => skipBlankLines fuel rest
    | none => shown

/-- The characters behind a backslash that ends its line. -/
def joinedLine? (input : List Char) : Option (List Char) :=
  (afterBreak? (input.dropWhile isSpace)).map fun rest => skipBlankLines (rest.length + 1) rest

/-- Reads a text on several lines, behind its quotes; every round takes a character. -/
def longText (quote : Char) : Nat → List Char → Option (Parsed (List Char))
  | 0, _ => none
  | fuel + 1, input =>
    match closing? quote input with
    | some closed => some closed
    | none =>
      match input with
      | [] => none
      | '\\' :: rest =>
        if quote != '"' then (longText quote fuel rest).map (Parsed.prepend ['\\'])
        else
          match joinedLine? rest with
          | some rest => longText quote fuel rest
          | none => do
            let escaped ← escape rest
            return (← longText quote fuel escaped.rest).prepend [escaped.value]
      | '\n' :: rest => (longText quote fuel rest).map (Parsed.prepend ['\n'])
      | '\r' :: '\n' :: rest => (longText quote fuel rest).map (Parsed.prepend ['\r', '\n'])
      | c :: rest =>
        if isPlain c then (longText quote fuel rest).map (Parsed.prepend [c]) else none

/-- Reads a text on several lines, of which the first is passed over if it is empty. -/
def longTextAfter (quote : Char) (input : List Char) : Option (Parsed (List Char)) :=
  longText quote (input.length + 1) ((afterBreak? input).getD input)

/-- Reads a text on one line. -/
def shortText? : List Char → Option (Parsed (List Char))
  | '"' :: rest => escapedText (rest.length + 1) rest
  | '\'' :: rest => literalText rest
  | _ => none

/-- Reads a text of any form. -/
def anyText? : List Char → Option (Parsed (List Char))
  | '"' :: '"' :: '"' :: rest => longTextAfter '"' rest
  | '\'' :: '\'' :: '\'' :: rest => longTextAfter '\'' rest
  | input => shortText? input

end ApiModel.Toml
