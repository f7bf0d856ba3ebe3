import ApiModel.Settings

/-!
# Arguments

What the arguments of a call ask for. Before the name of a task only general switches may stand;
behind it come the switches of the task. A switch with a value takes what is attached to it, or else
the next argument unless that looks like a switch. The first switch that asks for help or the
version ends the reading, and so does the first argument that does not fit.
-/

namespace ApiModel.Command

/-- A switch. -/
inductive Switch where
  /-- Says more. -/
  | verbose
  /-- Asks for help. -/
  | help
  /-- Asks for the version. -/
  | version
  /-- Names a settings file. -/
  | settings
  /-- Chooses the format of the specification. -/
  | specificationFormat
  /-- Names the specification. -/
  | specificationSource
  /-- Names the service configuration. -/
  | serviceConfig
  /-- Sets an option of the source. -/
  | source
  /-- Chooses the form of the output. -/
  | format
deriving DecidableEq, Repr

/-- What a call can do. -/
inductive Task where
  /-- Shows a model. -/
  | model
  /-- Tells whether a model is consistent. -/
  | validate
deriving DecidableEq, Repr

/-- The task with a name. -/
def Task.ofName? : String → Option Task
  | "model" => some .model
  | "validate" => some .validate
  | _ => none

/-- The switch with a long name, before the name of a task or behind it. -/
def Switch.ofLong? : Option Task → String → Option Switch
  | _, "verbose" => some .verbose
  | _, "help" => some .help
  | none, "version" => some .version
  | some _, "config" => some .settings
  | some _, "specification-format" => some .specificationFormat
  | some _, "specification-source" => some .specificationSource
  | some _, "service-config" => some .serviceConfig
  | some _, "source" => some .source
  | some .model, "format" => some .format
  | _, _ => none

/-- The switch with a letter, before the name of a task or behind it. -/
def Switch.ofLetter? : Option Task → Char → Option Switch
  | _, 'v' => some .verbose
  | _, 'h' => some .help
  | none, 'V' => some .version
  | some _, 'c' => some .settings
  | some .model, 'f' => some .format
  | _, _ => none

/-- Whether a switch takes a value. -/
def Switch.takesValue : Switch → Bool
  | .verbose | .help | .version => false
  | _ => true

/-- What a part of the arguments is. -/
inductive Part where
  /-- A switch without a value. -/
  | flag (switch : Switch)
  /-- A switch with its value. -/
  | value (switch : Switch) (text : String)
  /-- Something that does not fit; nothing behind it is read. -/
  | misfit
  /-- A word that is no value, and the arguments behind it. -/
  | word (text : String) (rest : List String)
deriving DecidableEq, Repr

/-- Whether an argument looks like a switch. -/
def looksLikeSwitch (argument : String) : Bool :=
  match argument.toList with
  | '-' :: _ :: _ => true
  | _ => false

/-- An argument taken apart. -/
inductive Shape where
  /-- Two dashes: no switch follows. -/
  | divider
  /-- A long name, and an attached value if there is one. -/
  | long (name : String) (attached : Option String)
  /-- Letters, of which one may take the rest as its value. -/
  | letters (text : List Char)
  /-- A word. -/
  | word
deriving DecidableEq, Repr

/-- The shape of an argument. -/
def shapeOf (argument : String) : Shape :=
  match argument.toList with
  | ['-', '-'] => .divider
  | '-' :: '-' :: body =>
    match Text.splitFirst? '=' body with
    | some (name, value) => .long (String.ofList name) (some (String.ofList value))
    | none => .long (String.ofList body) none
  | '-' :: c :: rest => .letters (c :: rest)
  | _ => .word

/-- What switches before or behind the name of a task make of some letters: the parts, and the
switch that still needs a value from the next argument. -/
def letterParts (task : Option Task) : List Char → List Part × Option Switch
  | [] => ([], none)
  | c :: rest =>
    match Switch.ofLetter? task c with
    | none => ([.misfit], none)
    | some switch =>
      if switch.takesValue then
        match rest with
        | [] => ([], some switch)
        | '=' :: value => ([.value switch (String.ofList value)], none)
        | value => ([.value switch (String.ofList value)], none)
      else
        let (parts, open?) := letterParts task rest
        (.flag switch :: parts, open?)

/-- What an argument makes before or behind the name of a task: the parts, and the switch that still
needs a value from the next argument. -/
def argumentParts (task : Option Task) (argument : String) : List Part × Option Switch :=
  match shapeOf argument with
  | .long name attached =>
    match Switch.ofLong? task name, attached with
    | none, _ => ([.misfit], none)
    | some switch, none => if switch.takesValue then ([], some switch) else ([.flag switch], none)
    | some switch, some value =>
      if switch.takesValue then ([.value switch value], none) else ([.misfit], none)
  | .letters text => letterParts task text
  | _ => ([], none)

/-- The parts of arguments up to the first word. -/
def parts (task : Option Task) : List String → List Part
  | [] => []
  | argument :: rest =>
    match shapeOf argument with
    | .divider => if rest.isEmpty then [] else [.misfit]
    | .word => [.word argument rest]
    | _ =>
      match argumentParts task argument with
      | (found, none) => found ++ parts task rest
      | (found, some switch) =>
        match rest with
        | [] => found ++ [.misfit]
        | next :: rest =>
          if looksLikeSwitch next then found ++ [.misfit]
          else found ++ .value switch next :: parts task rest

/-! ## Calls -/

/-- The form of the output. -/
inductive OutputFormat where
  /-- A short listing. -/
  | summary
  /-- The whole model. -/
  | yaml
deriving DecidableEq, Repr

/-- The arguments of a task. -/
structure TaskArguments where
  /-- The settings file. -/
  settings : Option String := none
  /-- What takes the place of settings. -/
  replacements : Replacements := {}
  /-- The form of the output. -/
  format : Option OutputFormat := none
deriving DecidableEq, Repr, Inhabited

/-- What a call asks for. -/
inductive Request where
  /-- A task. -/
  | run (task : Task) (arguments : TaskArguments)
  /-- The version. -/
  | version
  /-- Help. -/
  | help
  /-- Nothing that can be told from the arguments. -/
  | unclear
deriving DecidableEq, Repr

/-- A path, which may not be empty. -/
def path? (text : String) : Option String :=
  if text.isEmpty then none else some text

/-- A key and a value with an equals sign between them; the key may not be empty. -/
def option? (text : String) : Option (String × String) :=
  match Text.splitFirst? '=' text.toList with
  | some (c :: key, value) => some (String.ofList (c :: key), String.ofList value)
  | _ => none

/-- The form of the output with a name. -/
def OutputFormat.ofName? : String → Option OutputFormat
  | "summary" => some .summary
  | "yaml" => some .yaml
  | _ => none

/-- A value that is given for the first time. -/
def once {α : Type} (current : Option α) (value : Option α) : Option (Option α) :=
  if current.isSome then none else value.map some

/-- The arguments with the value of a switch. Only options of the source may be given repeatedly. -/
def TaskArguments.take (a : TaskArguments) (switch : Switch) (text : String) :
    Option TaskArguments := do
  let choices := a.replacements.choices
  match switch with
  | .settings => return { a with settings := ← once a.settings (path? text) }
  | .specificationFormat =>
    let format ← once choices.format (SpecificationFormat.ofWord? text)
    return { a with replacements.choices.format := format }
  | .specificationSource =>
    let source ← once choices.source (path? text)
    return { a with replacements.choices.source := source }
  | .serviceConfig =>
    let path ← once choices.serviceConfig (path? text)
    return { a with replacements.choices.serviceConfig := path }
  | .source =>
    let entry ← option? text
    return { a with replacements.options := a.replacements.options ++ [entry] }
  | .format => return { a with format := ← once a.format (OutputFormat.ofName? text) }
  | _ => none

/-- What the parts behind the name of a task ask for. -/
def taskRequest (task : Task) (a : TaskArguments) : List Part → Request
  | [] => .run task a
  | .flag .help :: _ => .help
  | .flag _ :: rest => taskRequest task a rest
  | .value switch text :: rest =>
    match a.take switch text with
    | some a => taskRequest task a rest
    | none => .unclear
  | .misfit :: _ => .unclear
  | .word _ _ :: _ => .unclear

/-- What the name of a task and the arguments behind it ask for. -/
def namedRequest (name : String) (rest : List String) : Request :=
  match Task.ofName? name with
  | some task => taskRequest task {} (parts (some task) rest)
  | none =>
    if name == "help" && (rest == [] || rest == ["help"] || rest == ["model"]
        || rest == ["validate"]) then .help
    else .unclear

/-- What the parts before the name of a task ask for. -/
def generalRequest : List Part → Request
  | [] => .unclear
  | .flag .help :: _ => .help
  | .flag .version :: _ => .version
  | .flag _ :: rest => generalRequest rest
  | .word name rest :: _ => namedRequest name rest
  | .value _ _ :: _ => .unclear
  | .misfit :: _ => .unclear

/-- What arguments ask for. -/
def Request.ofArguments (arguments : List String) : Request :=
  generalRequest (parts none arguments)

end ApiModel.Command
