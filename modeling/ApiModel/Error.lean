import ApiModel.Text.Quoted

/-!
# Errors

Every way in which building a model can fail, as a cause, and the text that tells it. A failure ends
the run: no model with an open reference is handed on.
-/

namespace ApiModel

/-- Why a file could not be read. -/
inductive FileFault where
  /-- There is no such file. -/
  | notFound
  /-- A part of the path that should be a directory is none. -/
  | notDirectory
  /-- The path names a directory. -/
  | isDirectory
  /-- The path is longer than the system takes. -/
  | nameTooLong
  /-- The path holds a zero character. -/
  | zeroInName
  /-- The file may not be used so. -/
  | notPermitted
  /-- The file is not a program. -/
  | notProgram
  /-- Too many files lead to one another. -/
  | tooManyLevels
  /-- The bytes of the file are not UTF-8. -/
  | notText
  /-- Another fault, told by the system. -/
  | other (text : String)
deriving DecidableEq, Repr

/-- The text of a file fault. -/
def FileFault.message : FileFault → String
  | .notFound => "No such file or directory (os error 2)"
  | .notDirectory => "Not a directory (os error 20)"
  | .isDirectory => "Is a directory (os error 21)"
  | .nameTooLong => "File name too long (os error 36)"
  | .zeroInName => "file name contained an unexpected NUL byte"
  | .notPermitted => "Permission denied (os error 13)"
  | .notProgram => "Exec format error (os error 8)"
  | .tooManyLevels => "Too many levels of symbolic links (os error 40)"
  | .notText => "stream did not contain valid UTF-8"
  | .other text => text

/-- Why a path template is malformed. -/
inductive TemplateFault where
  /-- It does not begin with a slash. -/
  | noLeadingSlash
  /-- Two slashes meet, or one ends the path. -/
  | emptySegment
  /-- A segment opens with a brace but does not end with one. -/
  | unterminatedVariable
  /-- A wildcard stands outside a variable. -/
  | bareWildcard
  /-- A brace has no partner. -/
  | unbalancedBraces
  /-- Nothing follows the colon. -/
  | emptyVerb
  /-- A field path is not a dotted list of identifiers. -/
  | invalidFieldPath (text : String)
  /-- Nothing stands between two slashes of a capture list. -/
  | emptyCapture
  /-- A capture holds a brace or an equals sign. -/
  | nestedVariables
  /-- A routing template has no variable. -/
  | noVariable
  /-- A routing template has more than one variable. -/
  | notOneVariable
  /-- The key or the pattern of a routing template is empty. -/
  | emptyKeyOrPattern
deriving DecidableEq, Repr

/-- The text of a template fault. -/
def TemplateFault.message : TemplateFault → String
  | .noLeadingSlash => "must start with '/'"
  | .emptySegment => "empty segment"
  | .unterminatedVariable => "unterminated variable"
  | .bareWildcard => "wildcards must be captured by a named variable"
  | .unbalancedBraces => "unbalanced braces"
  | .emptyVerb => "empty verb"
  | .invalidFieldPath text => "invalid field path " ++ Text.quoted text
  | .emptyCapture => "empty capture segment"
  | .nestedVariables => "nested variables"
  | .noVariable => "missing `\x7bkey=pattern\x7d` variable"
  | .notOneVariable => "expected exactly one variable"
  | .emptyKeyOrPattern => "empty key or pattern"

/-- The kinds of elements that carry a package. -/
inductive ElementKind where
  /-- A message. -/
  | message
  /-- An enumeration. -/
  | enumeration
  /-- A service. -/
  | service
deriving DecidableEq, Repr

/-- The word for a kind of element. -/
def ElementKind.word : ElementKind → String
  | .message => "message"
  | .enumeration => "enum"
  | .service => "service"

/-- Why no model came out. -/
inductive Error where
  /-- A specification or service configuration could not be read. -/
  | io (path : String) (fault : FileFault)
  /-- A JSON document could not be decoded. -/
  | json
  /-- A service configuration could not be decoded. -/
  | yaml
  /-- A descriptor set could not be decoded. -/
  | descriptor
  /-- The schema compiler failed. -/
  | compiler (text : String)
  /-- The document has a shape that the model cannot hold. -/
  | schema (id : String) (reason : String)
  /-- A type reference names no known element. -/
  | unresolved (owner : String) (id : String)
  /-- A map entry lacks its pair of fields. -/
  | mapEntryShape (id : String)
  /-- An element is in another package than the model. -/
  | packageMismatch (kind : ElementKind) (id actual expected : String)
  /-- A path template is malformed. -/
  | pathTemplate (template : String) (fault : TemplateFault)
  /-- A documentation override cannot be applied. -/
  | documentationOverride (id reason : String)
  /-- The configuration is wrong. -/
  | config (text : String)
deriving DecidableEq, Repr

/-- The text of an error; decoding faults are told without their detail. -/
def Error.message : Error → String
  | .io path fault => "cannot read " ++ path ++ ": " ++ fault.message
  | .json => "failed to decode JSON document"
  | .yaml => "failed to decode service config"
  | .descriptor => "failed to decode FileDescriptorSet"
  | .compiler text => "protoc failed: " ++ text
  | .schema id reason => "invalid schema for " ++ id ++ ": " ++ reason
  | .unresolved owner id => "cannot resolve " ++ id ++ " referenced by " ++ owner
  | .mapEntryShape id =>
    "map entry message " ++ id ++ " must have exactly a `key` and a `value` field"
  | .packageMismatch kind id actual expected =>
    kind.word ++ " " ++ id ++ " has package " ++ Text.quoted actual ++ ", expected " ++
      Text.quoted expected
  | .pathTemplate template fault =>
    "invalid path template " ++ Text.quoted template ++ ": " ++ fault.message
  | .documentationOverride id reason => "documentation override for " ++ id ++ ": " ++ reason
  | .config text => text

end ApiModel
