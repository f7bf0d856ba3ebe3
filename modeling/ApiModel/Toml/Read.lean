import ApiModel.Toml.Plain

/-!
# Reading settings documents

A TOML document is a sequence of headers, keys with values, comments and empty lines. Reading fails
where the syntax does, and where a header or a key does not fit what came before it.
-/

namespace ApiModel.Toml

/-- How many arrays and inline tables may nest, and how many names a key may have. -/
def maxNesting : Nat := 80

/-! ## Gaps -/

/-- The characters behind a comment, which has no control characters. -/
def afterComment? (input : List Char) : Option (List Char) :=
  let rest := input.dropWhile isPlain
  if rest.isEmpty || (afterBreak? rest).isSome then some rest else none

/-- The characters behind the rest of a line, which may hold a comment. -/
def afterLine? (input : List Char) : Option (List Char) := do
  let rest ←
    match input.dropWhile isSpace with
    | '#' :: comment => afterComment? comment
    | rest => some rest
  if rest.isEmpty then some [] else afterBreak? rest

/-- The characters behind blanks, line breaks and comments; every round takes a character. -/
def afterGap? : Nat → List Char → Option (List Char)
  | 0, _ => none
  | fuel + 1, input =>
    match input.dropWhile isSpace with
    | '#' :: comment => (afterComment? comment).bind (afterGap? fuel)
    | rest =>
      match afterBreak? rest with
      | some next => afterGap? fuel next
      | none => some rest

/-- The characters behind a gap. -/
def skipGap? (input : List Char) : Option (List Char) :=
  afterGap? (input.length + 1) input

/-- The characters behind the blanks of a line. -/
def skipSpace? (input : List Char) : Option (List Char) :=
  some (input.dropWhile isSpace)

/-! ## Keys -/

/-- Whether a character may stand in a name without quotes. -/
def isBare (c : Char) : Bool :=
  c.isAlphanum || c == '_' || c == '-'

/-- Reads a name, quoted or not. -/
def name? (input : List Char) : Option (Parsed String) :=
  match shortText? input with
  | some text => some ⟨String.ofList text.value, text.rest⟩
  | none =>
    let bare := input.takeWhile isBare
    if bare.isEmpty then none else some ⟨String.ofList bare, input.drop bare.length⟩

/-- Reads names with dots between them; every round takes a character. -/
def names? : Nat → List Char → Option (Parsed (List String))
  | 0, _ => none
  | fuel + 1, input => do
    let first ← name? (input.dropWhile isSpace)
    match first.rest.dropWhile isSpace with
    | '.' :: rest =>
      let others ← names? fuel rest
      return ⟨first.value :: others.value, others.rest⟩
    | rest => return ⟨[first.value], rest⟩

/-- Reads a key and the blanks around it. -/
def key? (input : List Char) : Option (Parsed Item.Key) := do
  let names ← names? (input.length + 1) input
  let name ← names.value.getLast?
  if maxNesting < names.value.length then none
  else some ⟨⟨names.value.dropLast, name⟩, names.rest⟩

/-! ## Values -/

/-- Reads the items of an array behind its bracket; every round takes a character. -/
def items? (value : List Char → Option (Parsed Item)) : Nat → List Char →
    Option (Parsed (List Item))
  | 0, _ => none
  | fuel + 1, input => do
    match ← skipGap? input with
    | ']' :: rest => some ⟨[], rest⟩
    | input =>
      let item ← value input
      match ← skipGap? item.rest with
      | ']' :: rest => some ⟨[item.value], rest⟩
      | ',' :: rest => (items? value fuel rest).map fun others =>
          ⟨item.value :: others.value, others.rest⟩
      | _ => none

/-- Reads a key and its value; `skip?` passes over what may stand around the equals sign. -/
def pair? (skip? : List Char → Option (List Char)) (value : List Char → Option (Parsed Item))
    (input : List Char) : Option (Parsed (Item.Key × Item)) := do
  let key ← key? input
  let '=' :: rest ← skip? key.rest | none
  let item ← value (← skip? rest)
  return ⟨(key.value, item.value), item.rest⟩

/-- Reads the members of an inline table behind its brace into a table; gaps may stand anywhere but
inside a key; every round takes a character. -/
def members? (value : List Char → Option (Parsed Item)) : Nat → Item → List Char →
    Option (Parsed Item)
  | 0, _, _ => none
  | fuel + 1, table, input => do
    match ← skipGap? input with
    | '\x7d' :: rest => some ⟨table, rest⟩
    | input =>
      let pair ← pair? skipGap? value input
      let table ← Item.put pair.value.1 pair.value.2 table
      match ← skipGap? pair.rest with
      | '\x7d' :: rest => some ⟨table, rest⟩
      | ',' :: rest => members? value fuel table rest
      | _ => none

/-- Reads a value in which so many arrays and inline tables may nest. -/
def value? : Nat → List Char → Option (Parsed Item)
  | levels + 1, '[' :: rest =>
    (items? (value? levels) (rest.length + 1) rest).map fun items =>
      ⟨.array items.value, items.rest⟩
  | levels + 1, '\x7b' :: rest =>
    members? (value? levels) (rest.length + 1) (Item.blank .inline) rest
  | _, input =>
    match input with
    | '"' :: _ => (anyText? input).map fun text => ⟨.text (String.ofList text.value), text.rest⟩
    | '\'' :: _ =>
        (anyText? input).map fun text => ⟨.text (String.ofList text.value), text.rest⟩
    | _ => plainScalar? input

/-! ## Documents -/

/-- A document as far as it is read. -/
structure Reading where
  /-- The whole document. -/
  root : Item
  /-- The path of the table that keys go into. -/
  current : List String

/-- Goes on in the table of a header. -/
def Reading.openTable (r : Reading) (key : Item.Key) : Option Reading :=
  (Item.update false (Item.declareTable key.name) key.path r.root).map fun root =>
    ⟨root, key.path ++ [key.name]⟩

/-- Goes on in a new table of a repeated header. -/
def Reading.openElement (r : Reading) (key : Item.Key) : Option Reading :=
  (Item.update false (Item.declareElement key.name) key.path r.root).map fun root =>
    ⟨root, key.path ++ [key.name]⟩

/-- Puts a value under a key of the current table. -/
def Reading.put (r : Reading) (key : Item.Key) (value : Item) : Option Reading :=
  (Item.update false (Item.put key value) r.current r.root).map fun root => { r with root := root }

/-- Reads a line, or a value that goes over several. -/
def statement? (r : Reading) (input : List Char) : Option (Parsed Reading) := do
  match input with
  | '[' :: '[' :: rest =>
    let key ← key? rest
    let ']' :: ']' :: rest := key.rest | none
    return ⟨← r.openElement key.value, ← afterLine? rest⟩
  | '[' :: rest =>
    let key ← key? rest
    let ']' :: rest := key.rest | none
    return ⟨← r.openTable key.value, ← afterLine? rest⟩
  | _ =>
    let pair ← pair? skipSpace? (value? maxNesting) input
    return ⟨← r.put pair.value.1 pair.value.2, ← afterLine? pair.rest⟩

/-- Reads statements to the end; every round takes a character. -/
def statements? : Nat → Reading → List Char → Option Item
  | 0, _, _ => none
  | fuel + 1, r, input => do
    match ← skipGap? input with
    | [] => some r.root
    | input =>
      let next ← statement? r input
      statements? fuel next.value next.rest

/-- Reads a document; a mark of the byte order before it is passed over. -/
def Item.ofText? (text : String) : Option Item :=
  let input :=
    match text.toList with
    | '\ufeff' :: rest => rest
    | cs => cs
  statements? (input.length + 1) ⟨Item.blank .header, []⟩ input

end ApiModel.Toml
