import ApiModel.Text.CaseTable

/-!
# Case mapping

Full upper-case and lower-case mapping of texts. A character may grow into several, and a capital
sigma at the end of a word gets the form that ends words.
-/

namespace ApiModel.Text

/-- The other case of a code point: an expansion if there is one, a shifted code point, or
itself. -/
def mapCode (runs : List CaseRun) (expansions : List (Nat × List Nat)) (code : Nat) : List Nat :=
  match expansions.lookup code with
  | some codes => codes
  | none =>
    match runs.find? fun run =>
      run.first ≤ code && code ≤ run.last && (code - run.first) % run.stride == 0 with
    | some run => [(code + run.delta).toNat]
    | none => [code]

/-- The upper-case form of a character. -/
def upperChar (c : Char) : List Char :=
  if c.toNat < 0x80 then [c.toUpper]
  else (mapCode upperRuns upperExpansions c.toNat).map Char.ofNat

/-- The lower-case form of a character outside any context. -/
def lowerChar (c : Char) : List Char :=
  if c.toNat < 0x80 then [c.toLower]
  else (mapCode lowerRuns lowerExpansions c.toNat).map Char.ofNat

/-- The upper-case form of a text. -/
def upper (text : String) : String :=
  String.ofList (text.toList.flatMap upperChar)

/-- Whether the nearest character that is not case-ignorable is cased. -/
def meetsCased (side : List Char) : Bool :=
  match side.dropWhile fun c => inRanges caseIgnorableRanges c.toNat with
  | [] => false
  | c :: _ => inRanges casedRanges c.toNat

/-- Lower case of the rest of a text whose beginning, reversed, is given. -/
def lowerFrom : List Char → List Char → List Char
  | _, [] => []
  | before, c :: rest =>
    if c == 'Σ' then
      (if meetsCased before && !meetsCased rest then 'ς' else 'σ') :: lowerFrom (c :: before) rest
    else lowerChar c ++ lowerFrom (c :: before) rest

/-- The lower-case form of a text. -/
def lower (text : String) : String :=
  String.ofList (lowerFrom [] text.toList)

end ApiModel.Text
