import ApiModel.Yaml.Node

/-!
# Reading values out of documents

Texts, lists and records out of the nodes of a document. A scalar stands for its text whatever it
looks like. An empty plain scalar stands for an empty list and for a record without members.
References are followed, but not without bound: a hundred for each event of the document.
-/

namespace ApiModel.Yaml

/-- A document whose references can be followed. -/
structure Document where
  /-- The root. -/
  root : Node
  /-- The nodes under anchors, latest first. -/
  anchored : List (Nat × Node)
  /-- How many references may be followed. -/
  limit : Nat

/-- The document with a root. -/
def Document.ofNode (root : Node) : Document :=
  ⟨root, root.anchored, 100 * root.events⟩

/-- Reading that counts the references that it follows. -/
abbrev Decoder := StateT Nat Option

namespace Document

/-- The node that a node stands for, with a reference followed. -/
def resolve (d : Document) : Node → Decoder Node
  | .alias number => do
    let followed ← get
    if d.limit ≤ followed then failure
    else
      set (followed + 1)
      (d.anchored.lookup number : Option Node)
  | node => return node

/-- The text of a scalar. -/
def text (d : Document) (node : Node) : Decoder String := do
  match ← d.resolve node with
  | .scalar _ _ text => return text
  | _ => failure

/-- The items of a list. -/
def list {α : Type} (d : Document) (item : Node → Decoder α) (node : Node) :
    Decoder (List α) := do
  match ← d.resolve node with
  | .sequence _ items => items.mapM item
  | .scalar _ true "" => return []
  | _ => failure

/-- The members of a record under their names. -/
def members (d : Document) (node : Node) : Decoder (List (String × Node)) := do
  match ← d.resolve node with
  | .mapping _ entries => entries.mapM fun (key, value) => return (← d.text key, value)
  | .scalar _ true "" => return []
  | _ => failure

end Document

/-- The value of a member, or a default if there is none; two of one name are a fault. -/
def memberOr {α : Type} (members : List (String × Node)) (name : String) (default : α)
    (read : Node → Decoder α) : Decoder α :=
  match members.filter fun entry => entry.1 == name with
  | [] => return default
  | [(_, node)] => read node
  | _ => failure

end ApiModel.Yaml
