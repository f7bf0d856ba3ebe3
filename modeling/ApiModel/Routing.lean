import ApiModel.Error
import ApiModel.Model.Basic

/-!
# Routing rules

A routing rule lists parameters, each a request field and a template with one key and pattern
between braces. Parameters with the same key are variants of one routing key, and the last one
declared comes first, since it wins over those before it.
-/

namespace ApiModel.Routing

/-- One parameter of a routing rule. -/
structure Parameter where
  /-- The dotted path of the request field. -/
  field : String := ""
  /-- The template; an empty one takes the whole field under its own name. -/
  pathTemplate : String := ""
deriving DecidableEq, Repr, Inhabited

/-- A variant and the key that it belongs to. -/
structure KeyedVariant where
  /-- The key. -/
  key : String
  /-- The variant. -/
  variant : RoutingVariant
deriving DecidableEq, Repr

/-- The pieces between slashes that are not empty. -/
def segments (text : List Char) : List String :=
  ((Text.pieces (· == '/') text).filter fun piece => !piece.isEmpty).map String.ofList

/-- The key, and the pattern behind an equals sign; one segment where there is none. -/
def keyAndPattern (inner : List Char) : List Char × List Char :=
  match Text.splitFirst? '=' inner with
  | some (key, pattern) => (key, pattern)
  | none => (inner, Path.oneSegment.toList)

/-- Reads a template that is not empty. -/
def readTemplate (fieldPath : List String) (text : List Char) :
    Except TemplateFault KeyedVariant :=
  match Text.splitFirst? '\x7b' text with
  | none => .error .noVariable
  | some (before, opened) =>
    if !text.contains '\x7d' then .error .noVariable
    else match Text.splitLast? '\x7d' opened with
      | none => .error .notOneVariable
      | some (inner, after) =>
        if inner.any fun c => c == '\x7b' || c == '\x7d' then .error .notOneVariable
        else
          let (key, pattern) := keyAndPattern inner
          if key.isEmpty || pattern.isEmpty then .error .emptyKeyOrPattern
          else .ok ⟨String.ofList key, fieldPath, segments before, segments pattern,
            segments after⟩

/-- Reads one parameter. -/
def Parameter.read (p : Parameter) : Except Error KeyedVariant :=
  let fieldPath := Text.splitAt '.' p.field
  if p.pathTemplate.isEmpty then .ok ⟨p.field, fieldPath, [], [Path.manySegments], []⟩
  else (readTemplate fieldPath p.pathTemplate.toList).mapError (.pathTemplate p.pathTemplate)

/-- Puts a variant behind those of its key. The first variant of a key opens a group behind all
others. -/
def place (v : KeyedVariant) : List RoutingInfo → List RoutingInfo
  | [] => [⟨v.key, [v.variant]⟩]
  | info :: infos =>
    if info.name = v.key then { info with variants := info.variants ++ [v.variant] } :: infos
    else info :: place v infos

/-- Reads a parameter and puts its variant among those read so far. -/
def readInto (infos : List RoutingInfo) (p : Parameter) : Except Error (List RoutingInfo) :=
  p.read.map fun v => place v infos

/-- The group with its last variant first. -/
def lastFirst (info : RoutingInfo) : RoutingInfo :=
  { info with variants := info.variants.reverse }

/-- Reads a routing rule, one parameter after the other; the first one at fault is told. -/
def readRule (parameters : List Parameter) : Except Error (List RoutingInfo) :=
  (parameters.foldlM readInto []).map (List.map lastFirst)

end ApiModel.Routing
