import ApiModel.Text.Basic

/-!
# Path templates

An HTTP path as an ordered list of literal segments and captured variables with an optional verb
behind a colon, and the text that shows it. Nothing here judges whether a template makes sense: a
template may be built in any shape, and only reading one from text refuses.
-/

namespace ApiModel.Path

/-- The capture that matches exactly one path segment. -/
def oneSegment : String := "*"

/-- The capture that matches any number of path segments. -/
def manySegments : String := "**"

/-- A variable that captures path segments into a request field. -/
structure Variable where
  /-- The names of the field path, outermost first. -/
  fieldPath : List String
  /-- What is captured: literals and wildcards. -/
  captures : List String := []
  /-- Whether reserved characters may stand unescaped in the value. -/
  allowReserved : Bool := false
deriving DecidableEq, Repr, Inhabited

/-- One piece of a path between slashes. -/
inductive Segment where
  /-- A text that is matched as it stands. -/
  | literal (text : String)
  /-- A capture into a request field. -/
  | variable (captured : Variable)
deriving DecidableEq, Repr, Inhabited

/-- A path with variables and an optional verb. -/
structure Template where
  /-- The segments in path order. -/
  segments : List Segment := []
  /-- The verb behind the colon. -/
  verb : Option String := none
deriving DecidableEq, Repr, Inhabited

namespace Variable

/-- Adds a capture that matches literally. -/
def withLiteral (v : Variable) (text : String) : Variable :=
  { v with captures := v.captures ++ [text] }

/-- Adds a capture that matches one segment. -/
def withMatch (v : Variable) : Variable :=
  v.withLiteral oneSegment

/-- Adds a capture that matches any number of segments. -/
def withMatchMany (v : Variable) : Variable :=
  v.withLiteral manySegments

/-- Allows reserved characters in the value. -/
def withAllowReserved (v : Variable) : Variable :=
  { v with allowReserved := true }

/-- The dotted field path. -/
def fieldName (v : Variable) : String :=
  String.intercalate "." v.fieldPath

/-- The text of a variable; a single one-segment capture is left out. -/
def display (v : Variable) : String :=
  if v.captures = [oneSegment] then "\x7b" ++ v.fieldName ++ "\x7d"
  else "\x7b" ++ v.fieldName ++ "=" ++ String.intercalate "/" v.captures ++ "\x7d"

end Variable

/-- The text of a segment. -/
def Segment.display : Segment → String
  | .literal text => text
  | .variable v => v.display

/-- The captured variable, if the segment is one. -/
def Segment.variable? : Segment → Option Variable
  | .literal _ => none
  | .variable v => some v

namespace Template

/-- Adds a literal segment. -/
def withLiteral (t : Template) (text : String) : Template :=
  { t with segments := t.segments ++ [.literal text] }

/-- Adds a variable segment. -/
def withVariable (t : Template) (v : Variable) : Template :=
  { t with segments := t.segments ++ [.variable v] }

/-- Adds a variable that captures one segment. -/
def withVariableNamed (t : Template) (fieldPath : List String) : Template :=
  t.withVariable (Variable.withMatch ⟨fieldPath, [], false⟩)

/-- Sets the verb. -/
def withVerb (t : Template) (text : String) : Template :=
  { t with verb := some text }

/-- The variables in path order. -/
def variableList (t : Template) : List Variable :=
  t.segments.filterMap Segment.variable?

/-- The text of a template: a slash before every segment, a colon before the verb. -/
def display (t : Template) : String :=
  String.join (t.segments.map fun s => "/" ++ s.display) ++
    (match t.verb with
     | none => ""
     | some text => ":" ++ text)

end Template

end ApiModel.Path
