import ApiModel.Yaml.Token

/-!
# Nodes

The tree of a document: scalars, sequences and mappings, some of them under an anchor, and
references to anchors. The fuel of the readers bounds their nesting and their rounds; each takes a
token or is followed by one that does.
-/

namespace ApiModel.Yaml

/-- A node of a document. -/
inductive Node where
  /-- A scalar, plain or not. -/
  | scalar (anchor : Option Nat) (plain : Bool) (text : String)
  /-- A sequence. -/
  | sequence (anchor : Option Nat) (items : List Node)
  /-- A mapping, with its keys in order. -/
  | mapping (anchor : Option Nat) (entries : List (Node × Node))
  /-- A reference to an anchor. -/
  | alias (anchor : Nat)
deriving Inhabited

namespace Node

mutual

/-- How many events tell a node: one for a scalar or reference, two for a collection. -/
def events : Node → Nat
  | .scalar _ _ _ => 1
  | .alias _ => 1
  | .sequence _ items => 2 + eventsOfItems items
  | .mapping _ entries => 2 + eventsOfEntries entries

/-- How many events tell the items of a sequence. -/
def eventsOfItems : List Node → Nat
  | [] => 0
  | item :: rest => events item + eventsOfItems rest

/-- How many events tell the entries of a mapping. -/
def eventsOfEntries : List (Node × Node) → Nat
  | [] => 0
  | (key, value) :: rest => events key + events value + eventsOfEntries rest

end

/-- The entry of a node under its anchor, if it has one. -/
def entry (anchor : Option Nat) (node : Node) : List (Nat × Node) :=
  match anchor with
  | some number => [(number, node)]
  | none => []

mutual

/-- The nodes under anchors, those that begin later first. -/
def anchored : Node → List (Nat × Node)
  | .scalar anchor plain text => entry anchor (.scalar anchor plain text)
  | .alias _ => []
  | .sequence anchor items => anchoredInItems items ++ entry anchor (.sequence anchor items)
  | .mapping anchor entries => anchoredInEntries entries ++ entry anchor (.mapping anchor entries)

/-- The nodes under anchors among items. -/
def anchoredInItems : List Node → List (Nat × Node)
  | [] => []
  | item :: rest => anchoredInItems rest ++ anchored item

/-- The nodes under anchors among entries. -/
def anchoredInEntries : List (Node × Node) → List (Nat × Node)
  | [] => []
  | (key, value) :: rest => anchoredInEntries rest ++ (anchored value ++ anchored key)

end

end Node

/-- The tokens that are left and the anchors that are known. -/
structure NodeReader where
  /-- The tokens. -/
  tokens : List Token
  /-- The handles that tags may use. -/
  handles : List (List Char)
  /-- The numbers of the anchor names, latest first. -/
  anchors : List (List Char × Nat) := []
  /-- How many distinct anchor names there are, which is the number of the next anchor. -/
  names : Nat := 0

namespace NodeReader

/-- The next token. -/
def head (s : NodeReader) : Token :=
  s.tokens.headD .streamEnd

/-- The state behind the next token. -/
def next (s : NodeReader) : NodeReader :=
  { s with tokens := s.tokens.tail }

/-- Gives an anchor name the number of names before it; a name that comes again keeps the count. -/
def nameAnchor (s : NodeReader) (name : List Char) : NodeReader :=
  { s with
    anchors := (name, s.names) :: s.anchors
    names := if (s.anchors.lookup name).isSome then s.names else s.names + 1 }

/-- The anchor and tag before a node. -/
structure Properties where
  /-- The name of the anchor. -/
  anchor : Option (List Char) := none
  /-- The handle of the tag. -/
  tag : Option (List Char) := none

/-- Reads an anchor and a tag, in either order. -/
def properties (s : NodeReader) : Properties × NodeReader :=
  match s.tokens with
  | .anchor name :: .tag handle :: rest => (⟨some name, some handle⟩, { s with tokens := rest })
  | .tag handle :: .anchor name :: rest => (⟨some name, some handle⟩, { s with tokens := rest })
  | .anchor name :: rest => (⟨some name, none⟩, { s with tokens := rest })
  | .tag handle :: rest => (⟨none, some handle⟩, { s with tokens := rest })
  | _ => ({}, s)

/-- Whether a tag handle is known; a tag without one is. -/
def knows (s : NodeReader) : Option (List Char) → Bool
  | none => true
  | some [] => true
  | some handle => s.handles.contains handle

/-- Numbers the anchor of a node that begins here. -/
def register (s : NodeReader) : Option (List Char) → Option Nat × NodeReader
  | none => (none, s)
  | some name => (some s.names, s.nameAnchor name)

/-- A scalar without text. -/
def blank : Node := .scalar none true ""

mutual

/-- Reads a node; block collections and lists of items without indentation only where allowed. -/
def node (block indentless : Bool) : Nat → NodeReader → Option (Node × NodeReader)
  | 0, _ => none
  | fuel + 1, s =>
    match s.head with
    | .alias name => (s.anchors.lookup name).map fun number => (.alias number, s.next)
    | _ =>
      let (found, s) := s.properties
      if !s.knows found.tag then none
      else
        let (anchor, named) := s.register found.anchor
        match s.head with
        | .scalar plain text => some (.scalar anchor plain text, named.next)
        | .flowSequenceStart =>
          (flowItems true fuel named.next).map fun (items, s) => (.sequence anchor items, s)
        | .flowMappingStart =>
          (flowEntries true fuel named.next).map fun (entries, s) => (.mapping anchor entries, s)
        | .blockEntry =>
          if indentless then
            (indentlessItems fuel named).map fun (items, s) => (.sequence anchor items, s)
          else if found.anchor.isSome || found.tag.isSome then
            some (.scalar anchor true "", named)
          else none
        | .blockSequenceStart =>
          if block then
            (blockItems fuel named.next).map fun (items, s) => (.sequence anchor items, s)
          else if found.anchor.isSome || found.tag.isSome then
            some (.scalar anchor true "", named)
          else none
        | .blockMappingStart =>
          if block then
            (blockEntries fuel named.next).map fun (entries, s) => (.mapping anchor entries, s)
          else if found.anchor.isSome || found.tag.isSome then
            some (.scalar anchor true "", named)
          else none
        | _ =>
          if found.anchor.isSome || found.tag.isSome then some (.scalar anchor true "", named)
          else none

/-- Reads the items of a block sequence up to its end. -/
def blockItems : Nat → NodeReader → Option (List Node × NodeReader)
  | 0, _ => none
  | fuel + 1, s =>
    match s.head with
    | .blockEntry =>
      let s := s.next
      match s.head with
      | .blockEntry | .blockEnd =>
        (blockItems fuel s).map fun (items, s) => (blank :: items, s)
      | _ =>
        match node true false fuel s with
        | none => none
        | some (item, s) => (blockItems fuel s).map fun (items, s) => (item :: items, s)
    | .blockEnd => some ([], s.next)
    | _ => none

/-- Reads the items of a sequence that is not indented, up to another token. -/
def indentlessItems : Nat → NodeReader → Option (List Node × NodeReader)
  | 0, _ => none
  | fuel + 1, s =>
    match s.head with
    | .blockEntry =>
      let s := s.next
      match s.head with
      | .blockEntry | .key | .value | .blockEnd =>
        (indentlessItems fuel s).map fun (items, s) => (blank :: items, s)
      | _ =>
        match node true false fuel s with
        | none => none
        | some (item, s) => (indentlessItems fuel s).map fun (items, s) => (item :: items, s)
    | _ => some ([], s)

/-- Reads the part of a block mapping behind the mark of a key or value. -/
def blockPart (fuel : Nat) (s : NodeReader) : Option (Node × NodeReader) :=
  match fuel with
  | 0 => none
  | fuel + 1 =>
    match s.head with
    | .key | .value | .blockEnd => some (blank, s)
    | _ => node true true fuel s

/-- Reads the value of a block mapping, which may be missing. -/
def blockValue (fuel : Nat) (s : NodeReader) : Option (Node × NodeReader) :=
  match fuel with
  | 0 => none
  | fuel + 1 =>
    match s.head with
    | .value => blockPart fuel s.next
    | _ => some (blank, s)

/-- Reads the entries of a block mapping up to its end. -/
def blockEntries : Nat → NodeReader → Option (List (Node × Node) × NodeReader)
  | 0, _ => none
  | fuel + 1, s =>
    match s.head with
    | .key =>
      match blockPart fuel s.next with
      | none => none
      | some (key, s) =>
        match blockValue fuel s with
        | none => none
        | some (value, s) =>
          (blockEntries fuel s).map fun (entries, s) => ((key, value) :: entries, s)
    | .blockEnd => some ([], s.next)
    | _ => none

/-- Reads the items of a flow sequence up to its end. -/
def flowItems (first : Bool) : Nat → NodeReader → Option (List Node × NodeReader)
  | 0, _ => none
  | fuel + 1, s =>
    match s.head with
    | .flowSequenceEnd => some ([], s.next)
    | _ =>
      let separated : Option NodeReader :=
        if first then some s
        else match s.head with
          | .flowEntry => some s.next
          | _ => none
      match separated with
      | none => none
      | some s =>
        match s.head with
        | .flowSequenceEnd => some ([], s.next)
        | .key =>
          match flowPair fuel s.next with
          | none => none
          | some (pair, s) =>
            (flowItems false fuel s).map fun (items, s) => (pair :: items, s)
        | _ =>
          match node false false fuel s with
          | none => none
          | some (item, s) => (flowItems false fuel s).map fun (items, s) => (item :: items, s)

/-- Reads a mapping of one entry inside a flow sequence, behind the mark of its key. An empty key
takes the token after it. -/
def flowPair : Nat → NodeReader → Option (Node × NodeReader)
  | 0, _ => none
  | fuel + 1, s =>
    let key : Option (Node × NodeReader) :=
      match s.head with
      | .value | .flowEntry | .flowSequenceEnd => some (blank, s.next)
      | _ => node false false fuel s
    match key with
    | none => none
    | some (key, s) =>
      let value : Option (Node × NodeReader) :=
        match s.head with
        | .value =>
          let s := s.next
          match s.head with
          | .flowEntry | .flowSequenceEnd => some (blank, s)
          | _ => node false false fuel s
        | _ => some (blank, s)
      value.map fun (value, s) => (.mapping none [(key, value)], s)

/-- Reads the entries of a flow mapping up to its end. -/
def flowEntries (first : Bool) : Nat → NodeReader → Option (List (Node × Node) × NodeReader)
  | 0, _ => none
  | fuel + 1, s =>
    match s.head with
    | .flowMappingEnd => some ([], s.next)
    | _ =>
      let separated : Option NodeReader :=
        if first then some s
        else match s.head with
          | .flowEntry => some s.next
          | _ => none
      match separated with
      | none => none
      | some s =>
        match s.head with
        | .flowMappingEnd => some ([], s.next)
        | .key =>
          let s := s.next
          let key : Option (Node × NodeReader) :=
            match s.head with
            | .value | .flowEntry | .flowMappingEnd => some (blank, s)
            | _ => node false false fuel s
          match key with
          | none => none
          | some (key, s) =>
            let value : Option (Node × NodeReader) :=
              match s.head with
              | .value =>
                let s := s.next
                match s.head with
                | .flowEntry | .flowMappingEnd => some (blank, s)
                | _ => node false false fuel s
              | _ => some (blank, s)
            match value with
            | none => none
            | some (value, s) =>
              (flowEntries false fuel s).map fun (entries, s) => ((key, value) :: entries, s)
        | _ =>
          match node false false fuel s with
          | none => none
          | some (key, s) =>
            (flowEntries false fuel s).map fun (entries, s) => ((key, blank) :: entries, s)

end

/-- The directives before a document: at most one version, of two that are known, and distinct
handles. -/
def directives (tokens : List Token) : Option (List (List Char)) := do
  let versions := tokens.filter fun t => match t with
    | .version _ _ => true
    | _ => false
  let handles := tokens.filterMap fun t => match t with
    | .tagHandle handle => some handle
    | _ => none
  let known := versions.all fun t => match t with
    | .version major minor => major == 1 && (minor == 1 || minor == 2)
    | _ => true
  if versions.length ≤ 1 && known && handles.length == handles.eraseDups.length then
    some (handles ++ [['!'], ['!', '!']])
  else none

/-- Whether a token is a directive. -/
def isDirective : Token → Bool
  | .version _ _ => true
  | .tagHandle _ => true
  | _ => false

end NodeReader

/-- What a stream holds. -/
inductive Stream where
  /-- No document. -/
  | empty
  /-- One document. -/
  | document (root : Node)

namespace Stream

open NodeReader in
/-- The content of a document that was started, which may be missing. -/
def content (explicit : Bool) (fuel : Nat) (s : NodeReader) : Option (Node × NodeReader) :=
  match explicit, s.head with
  | true, .documentStart | true, .documentEnd | true, .streamEnd => some (blank, s)
  | true, .version _ _ | true, .tagHandle _ => some (blank, s)
  | _, _ => node true false fuel s

/-- Reads a stream of tokens with at most one document in it. -/
def ofTokens? (tokens : List Token) : Option Stream :=
  match tokens with
  | [.streamEnd] => some .empty
  | _ => do
    let head := tokens.takeWhile NodeReader.isDirective
    let handles ← NodeReader.directives head
    let rest := tokens.drop head.length
    let fuel := 4 * tokens.length + 8
    let explicit := rest.head? == some .documentStart
    if !head.isEmpty && !explicit then none
    else
      let start := if explicit then rest.tail else rest
      let (root, s) ← content explicit fuel { tokens := start, handles }
      match s.tokens.dropWhile (· == .documentEnd) with
      | [.streamEnd] => some (.document root)
      | _ => none

/-- Reads a text with at most one document in it. -/
def ofText? (text : String) : Option Stream :=
  (Token.scan text.toList).bind ofTokens?

end Stream

end ApiModel.Yaml
