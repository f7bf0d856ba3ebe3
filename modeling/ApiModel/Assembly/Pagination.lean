import ApiModel.Assembly.Indexing

/-!
# Unique numbers and pagination

The first value of each number in an enumeration, and the fields that drive the pages of list
methods: the request has a page token, the response has a token for the next page and exactly one
list or map.
-/

namespace ApiModel

/-- The positions of the numbers that did not occur before. -/
def firstPositions (seen : List Int) (position : Nat) : List Int → List Nat
  | [] => []
  | n :: rest =>
    if seen.contains n then firstPositions seen (position + 1) rest
    else position :: firstPositions (n :: seen) (position + 1) rest

/-- Whether a field is a text under one of two names and no list. -/
def Field.isToken (f : Field) (name jsonName : String) : Bool :=
  f.type == .string && !f.repeated && (f.name == name || f.jsonName == jsonName)

/-- The position of the page token in a request. -/
def Message.pageToken? (request : Message) : Option Nat :=
  request.fields.findIdx? fun f => f.isToken "page_token" "pageToken"

/-- The position of the token for the next page in a response. -/
def Message.nextPageToken? (response : Message) : Option Nat :=
  response.fields.findIdx? fun f => f.isToken "next_page_token" "nextPageToken"

/-- The positions of the lists and maps of a response. -/
def Message.collections (response : Message) : List Nat :=
  (List.range response.fields.length).filter fun i =>
    match response.fields[i]? with
    | some f => f.repeated || f.map
    | none => false

/-- The position of the only list or map of a response. -/
def Message.pageableItem? (response : Message) : Option Nat :=
  match response.collections with
  | [item] => some item
  | _ => none

namespace Model

/-- Finds the first values of each number in an enumeration. -/
def findUniqueValues (m : Model) (ref : EnumRef) : Model :=
  m.modifyEnum ref fun element =>
    { element with
      uniqueNumberValues := firstPositions [] 0 (element.values.map EnumValue.number) }

/-- Finds the first values of each number in all indexed enumerations. -/
def findAllUniqueValues (m : Model) : Model :=
  m.indexedEnums.foldl findUniqueValues m

/-- The fields that drive the pages of a method: one of the request, two of the response. -/
def pages? (m : Model) (method : Method) : Option (FieldRef × MessageRef × Pagination) := do
  let input ← method.inputType
  let output ← method.outputType
  let pageToken ← (m.message input).pageToken?
  let nextPageToken ← (m.message output).nextPageToken?
  let pageableItem ← (m.message output).pageableItem?
  return (⟨input, pageToken⟩, output,
    ⟨⟨output, nextPageToken⟩, ⟨output, pageableItem⟩⟩)

/-- Notes the fields that drive the pages of a method. -/
def markPages (m : Model) (ref : MethodRef) : Model :=
  match m.pages? (m.method ref) with
  | none => m
  | some (pageToken, response, pagination) =>
    (m.modifyMethod ref fun method => { method with pagination := some pageToken }).modifyMessage
      response fun element => { element with pagination := some pagination }

/-- Notes the fields that drive the pages of all indexed methods. -/
def markAllPages (m : Model) : Model :=
  m.indexedMethods.foldl markPages m

end Model

end ApiModel
