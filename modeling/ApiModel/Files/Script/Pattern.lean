import ApiModel.Text.Basic

/-!
# Patterns

What a word with stars, question marks and sets of characters matches. A quoted character of a
pattern stands for itself.
-/

namespace ApiModel.Files.Script

/-- A character of an expanded word, and whether it was quoted. -/
structure Letter where
  /-- Whether it was quoted. -/
  quoted : Bool
  /-- The character. -/
  value : Char
deriving DecidableEq, Repr

/-- A part of a pattern. -/
inductive Matcher where
  /-- Any characters. -/
  | anything
  /-- Any character. -/
  | anyone
  /-- One character. -/
  | letter (value : Char)
  /-- A character inside, or outside, of some closed ranges. -/
  | among (inside : Bool) (ranges : List (Char × Char))
deriving DecidableEq, Repr

/-- Whether a letter is an unquoted character. -/
def Letter.isMark (mark : Char) (letter : Letter) : Bool :=
  !letter.quoted && letter.value == mark

/-- The ranges that the letters of a set stand for. -/
def rangesOf : List Letter → List (Char × Char)
  | first :: dash :: last :: rest =>
    if dash.isMark '-' then (first.value, last.value) :: rangesOf rest
    else (first.value, first.value) :: rangesOf (dash :: last :: rest)
  | letter :: rest => (letter.value, letter.value) :: rangesOf rest
  | [] => []

/-- Reads a set of characters behind its bracket. A closing bracket at the beginning belongs to
it. -/
def set? (letters : List Letter) : Option (Matcher × List Letter) :=
  let negated := letters.head?.any (Letter.isMark '!')
  let members := if negated then letters.drop 1 else letters
  let body := members.take 1 ++ (members.drop 1).takeWhile fun letter => !letter.isMark ']'
  match members.drop body.length with
  | [] => none
  | _ :: rest => some (.among (!negated) (rangesOf body), rest)

/-- The pattern that letters stand for; every round takes a letter. -/
def matchers : Nat → List Letter → List Matcher
  | 0, _ => []
  | _ + 1, [] => []
  | fuel + 1, letter :: rest =>
    if letter.isMark '*' then .anything :: matchers fuel rest
    else if letter.isMark '?' then .anyone :: matchers fuel rest
    else if letter.isMark '[' then
      match set? rest with
      | some (found, rest) => found :: matchers fuel rest
      | none => .letter '[' :: matchers fuel rest
    else .letter letter.value :: matchers fuel rest

/-- The pattern that letters stand for. -/
def patternOf (letters : List Letter) : List Matcher :=
  matchers (letters.length + 1) letters

/-- Whether some end of a text satisfies a test. -/
def anyEnd (test : List Char → Bool) : List Char → Bool
  | [] => test []
  | c :: rest => test (c :: rest) || anyEnd test rest

/-- Whether a pattern matches a whole text. -/
def covers : List Matcher → List Char → Bool
  | [], text => text.isEmpty
  | .anything :: pattern, text => anyEnd (covers pattern) text
  | .anyone :: pattern, text => !text.isEmpty && covers pattern text.tail
  | .letter c :: pattern, text => text.head? == some c && covers pattern text.tail
  | .among inside ranges :: pattern, text =>
    text.head?.any (fun c => ranges.any (fun range => range.1 ≤ c && c ≤ range.2) == inside)
      && covers pattern text.tail

/-- Whether a pattern matches more than one text. -/
def Matcher.isOpen : Matcher → Bool
  | .letter _ => false
  | _ => true

/-- A text without the shortest or longest beginning that a pattern matches. -/
def withoutStart (longest : Bool) (pattern : List Matcher) (text : List Char) : List Char :=
  let sizes := List.range (text.length + 1)
  let sizes := if longest then sizes.reverse else sizes
  match sizes.find? fun size => covers pattern (text.take size) with
  | some size => text.drop size
  | none => text

/-- A text without the shortest or longest end that a pattern matches. -/
def withoutEnd (longest : Bool) (pattern : List Matcher) (text : List Char) : List Char :=
  let sizes := List.range (text.length + 1)
  let sizes := if longest then sizes else sizes.reverse
  match sizes.find? fun size => covers pattern (text.drop size) with
  | some size => text.take size
  | none => text

end ApiModel.Files.Script
