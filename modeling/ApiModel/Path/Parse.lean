import ApiModel.Error
import ApiModel.Path.Template

/-!
# Reading path templates

Two spellings are read. The annotation spelling begins with a slash and names its captures, as in
`/v1/{name=projects/*/secrets/*}:access`. The resource spelling of discovery documents has plain
names between braces, as in `projects/{project}/{+rest}`. Slashes and colons count only outside
braces, and the last such colon of the last segment begins the verb.
-/

namespace ApiModel.Path

/-- Whether every closing brace has an opening one before it and all are closed in the end. -/
def balanced : Nat → List Char → Bool
  | depth, [] => depth == 0
  | depth, '\x7b' :: rest => balanced (depth + 1) rest
  | 0, '\x7d' :: _ => false
  | depth + 1, '\x7d' :: rest => balanced depth rest
  | depth, _ :: rest => balanced depth rest

/-- The pieces between the separators that stand outside braces. -/
def splitOutside (separator : Char) : Nat → List Char → List (List Char)
  | _, [] => [[]]
  | depth, c :: rest =>
    if depth = 0 ∧ c = separator then [] :: splitOutside separator 0 rest
    else
      let inner := if c = '\x7b' then depth + 1 else if c = '\x7d' then depth - 1 else depth
      match splitOutside separator inner rest with
      | [] => [[c]]
      | piece :: more => (c :: piece) :: more

/-- The segments of a path and its verb, as they are spelled. -/
structure Spelling where
  /-- The texts between the slashes. -/
  segments : List (List Char)
  /-- The text behind the last colon of the last segment. -/
  verb : Option (List Char)

/-- Splits the last segment at its last colon outside braces. -/
def splitVerb (segments : List (List Char)) : Except TemplateFault Spelling :=
  let last := segments.getLastD []
  let pieces := splitOutside ':' 0 last
  if pieces.length ≤ 1 then .ok ⟨segments, none⟩
  else
    let verb := pieces.getLastD []
    if verb.isEmpty then .error .emptyVerb
    else .ok ⟨segments.dropLast ++ [[':'].intercalate pieces.dropLast], some verb⟩

/-- The segments and the verb of the path behind the first slash. -/
def spelling (body : List Char) : Except TemplateFault Spelling :=
  if balanced 0 body then splitVerb (splitOutside '/' 0 body) else .error .unbalancedBraces

/-- Whether a text has a brace in it. -/
def hasBrace (text : List Char) : Bool :=
  text.any fun c => c == '\x7b' || c == '\x7d'

/-- The text between an opening brace at its beginning and a closing one at its end. -/
def braced? : List Char → Option (List Char)
  | '\x7b' :: inner => if inner.getLast? == some '\x7d' then some inner.dropLast else none
  | _ => none

/-- Whether a text is a field name: ASCII letters, digits and underscores, at least one. -/
def isIdentifier (text : List Char) : Bool :=
  !text.isEmpty && text.all fun c => c.isAlphanum || c == '_'

/-- Reads one capture. -/
def readCapture (text : List Char) : Except TemplateFault String :=
  if text.isEmpty then .error .emptyCapture
  else if text.any fun c => c == '\x7b' || c == '\x7d' || c == '=' then .error .nestedVariables
  else .ok (String.ofList text)

/-- Reads the field path and the captures between the braces of a variable. -/
def readVariable (inner : List Char) : Except TemplateFault Variable := do
  let (path, captures) : List Char × Option (List Char) :=
    match Text.splitFirst? '=' inner with
    | some (path, captures) => (path, some captures)
    | none => (inner, none)
  let names := Text.pieces (· == '.') path
  if names.all isIdentifier then
    let fieldPath := names.map String.ofList
    match captures with
    | none => return ⟨fieldPath, [oneSegment], false⟩
    | some captures =>
      return ⟨fieldPath, ← (Text.pieces (· == '/') captures).mapM readCapture, false⟩
  else throw (.invalidFieldPath (String.ofList path))

/-- Reads one segment of the annotation spelling. -/
def readSegment (text : List Char) : Except TemplateFault Segment :=
  if text.isEmpty then .error .emptySegment
  else if text.head? = some '\x7b' then
    match braced? text with
    | some inner => (readVariable inner).map .variable
    | none => .error .unterminatedVariable
  else if text = oneSegment.toList ∨ text = manySegments.toList then .error .bareWildcard
  else if hasBrace text then .error .unbalancedBraces
  else .ok (.literal (String.ofList text))

/-- Reads one segment of the resource spelling. -/
def readResourceSegment (text : List Char) : Except TemplateFault Segment :=
  if text.isEmpty then .error .emptySegment
  else match braced? text with
    | some ('+' :: name) => .ok (.variable ⟨[String.ofList name], [manySegments], true⟩)
    | some name => .ok (.variable ⟨[String.ofList name], [oneSegment], false⟩)
    | none =>
      if hasBrace text then .error .unbalancedBraces
      else .ok (.literal (String.ofList text))

/-- Reads the path behind the first slash with a reader of segments. -/
def readBody (segment : List Char → Except TemplateFault Segment) (body : List Char) :
    Except TemplateFault Template := do
  let spelled ← spelling body
  return ⟨← spelled.segments.mapM segment, spelled.verb.map String.ofList⟩

namespace Template

/-- Reads the annotation spelling; the fault alone is told. -/
def parseFault (text : String) : Except TemplateFault Template :=
  match text.toList with
  | '/' :: body => readBody readSegment body
  | _ => .error .noLeadingSlash

/-- Reads the resource spelling, whose first slash may be left out; the fault alone is told. -/
def parseResourceFault (text : String) : Except TemplateFault Template :=
  match text.toList with
  | '/' :: body => readBody readResourceSegment body
  | body => readBody readResourceSegment body

/-- Reads the annotation spelling. -/
def parse (text : String) : Except Error Template :=
  (parseFault text).mapError (.pathTemplate text)

/-- Reads the resource spelling. -/
def parseResource (text : String) : Except Error Template :=
  (parseResourceFault text).mapError (.pathTemplate text)

end Template

end ApiModel.Path
