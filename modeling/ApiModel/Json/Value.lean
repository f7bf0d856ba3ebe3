import ApiModel.Text.Basic

/-!
# JSON values

The tree of a JSON document as far as its syntax tells. A text may still hold bytes that are no
characters, and a number may still be out of range; only a reader that wants the value objects to
that.
-/

namespace ApiModel.Json

/-- A JSON value. -/
inductive Value where
  /-- The null value. -/
  | null
  /-- A truth value. -/
  | bool (value : Bool)
  /-- A number, in range or not. -/
  | number (inRange : Bool)
  /-- A text, if its characters can be told. -/
  | text (content : Option String)
  /-- An array. -/
  | array (items : List Value)
  /-- An object with its members in order. -/
  | object (members : List (Option String × Value))
deriving Inhabited

/-- A token of JSON. -/
inductive Token where
  /-- The null value. -/
  | null
  /-- A truth value. -/
  | bool (value : Bool)
  /-- A number, in range or not. -/
  | number (inRange : Bool)
  /-- A text, if its characters can be told. -/
  | text (content : Option String)
  /-- An array begins. -/
  | arrayStart
  /-- An array ends. -/
  | arrayEnd
  /-- An object begins. -/
  | objectStart
  /-- An object ends. -/
  | objectEnd
  /-- Another item follows. -/
  | comma
  /-- The value of a member follows. -/
  | colon
deriving DecidableEq, Repr

/-- A container that is being read, its items latest first. -/
inductive Frame where
  /-- An array. -/
  | array (items : List Value)
  /-- An object and the key whose value is being read. -/
  | object (members : List (Option String × Value)) (key : Option String)

/-- What may come next. -/
inductive Expecting where
  /-- A value. -/
  | value
  /-- The first item of an array, or its end. -/
  | firstItem
  /-- The first key of an object, or its end. -/
  | firstKey (members : List (Option String × Value))
  /-- A key. -/
  | key (members : List (Option String × Value))
  /-- The colon behind a key. -/
  | colon (members : List (Option String × Value)) (key : Option String)
  /-- What follows a value. -/
  | after (value : Value)

/-- Reads one value out of tokens, the containers around the current place innermost first. -/
def Value.build : Expecting → List Frame → List Token → Option Value
  | .after value, [], [] => some value
  | _, _, [] => none
  | .value, frames, token :: rest => scalarOrStart token frames rest
  | .firstItem, frames, .arrayEnd :: rest => build (.after (.array [])) frames rest
  | .firstItem, frames, token :: rest => scalarOrStart token (.array [] :: frames) rest
  | .firstKey _, frames, .objectEnd :: rest => build (.after (.object [])) frames rest
  | .firstKey members, frames, .text key :: rest => build (.colon members key) frames rest
  | .key members, frames, .text key :: rest => build (.colon members key) frames rest
  | .colon members key, frames, .colon :: rest =>
    build .value (.object members key :: frames) rest
  | .after value, .array items :: frames, .comma :: rest =>
    build .value (.array (value :: items) :: frames) rest
  | .after value, .array items :: frames, .arrayEnd :: rest =>
    build (.after (.array (value :: items).reverse)) frames rest
  | .after value, .object members key :: frames, .comma :: rest =>
    build (.key ((key, value) :: members)) frames rest
  | .after value, .object members key :: frames, .objectEnd :: rest =>
    build (.after (.object ((key, value) :: members).reverse)) frames rest
  | _, _, _ => none
where
  /-- Takes the first token of a value. -/
  scalarOrStart (token : Token) (frames : List Frame) (rest : List Token) : Option Value :=
    match token with
    | .null => build (.after .null) frames rest
    | .bool value => build (.after (.bool value)) frames rest
    | .number inRange => build (.after (.number inRange)) frames rest
    | .text content => build (.after (.text content)) frames rest
    | .arrayStart => build .firstItem frames rest
    | .objectStart => build (.firstKey []) frames rest
    | _ => none

/-- Reads one value out of tokens, with none left. -/
def Value.ofTokens? (tokens : List Token) : Option Value :=
  Value.build .value [] tokens

end ApiModel.Json
