import ApiModel.Assembly.Indexing

/-!
# Recursive fields

A field is recursive if the message that owns it can be reached again from the message that it
holds, going from messages to the messages of their fields.
-/

namespace ApiModel.Model

/-- The messages that the fields of a message hold. -/
def fieldMessages (m : Model) (ref : MessageRef) : List MessageRef :=
  (m.message ref).fields.filterMap fun f => f.target.bind TypeRef.message?

/-- Marking an unmarked place leaves fewer of them. -/
theorem count_unmarked_set {marks : Array Bool} {i : Nat} (h : i < marks.size)
    (unmarked : marks[i] = false) :
    (marks.set i true).count false < marks.count false := by
  have positive : 0 < marks.count false :=
    Array.count_pos_iff.2 (unmarked ▸ Array.getElem_mem h)
  have fewer : (marks.set i true).count false = marks.count false - 1 := by
    rw [Array.count_set, unmarked]
    rfl
  omega

/-- Marks the places that can be reached from the pending ones through unmarked places. -/
def markReachable (next : Nat → List Nat) (marks : Array Bool) (pending : List Nat) :
    Array Bool :=
  match pending with
  | [] => marks
  | i :: rest =>
    if h : i < marks.size then
      if unmarked : marks[i] = false then
        markReachable next (marks.set i true) (next i ++ rest)
      else markReachable next marks rest
    else markReachable next marks rest
termination_by (marks.count false, pending.length)
decreasing_by
  · exact Prod.Lex.left _ _ (count_unmarked_set h unmarked)
  · exact Prod.Lex.right _ (Nat.lt_succ_self _)
  · exact Prod.Lex.right _ (Nat.lt_succ_self _)

/-- The marks of all messages that can be reached from a message, itself included. -/
def reachableMessages (m : Model) (start : MessageRef) : Array Bool :=
  markReachable (fun i => (m.fieldMessages ⟨i⟩).map MessageRef.index)
    (Array.replicate m.store.messages.size false) [start.index]

/-- What can be reached from the messages that were searched from already. -/
structure Closures where
  /-- The marks of what can be reached from a message, the last search first. -/
  known : List (MessageRef × Array Bool) := []

/-- The closures with that of a message. Only what is not known yet is searched for. -/
def Closures.search (m : Model) (closures : Closures) (start : MessageRef) : Closures :=
  match closures.known.lookup start with
  | some _ => closures
  | none => ⟨(start, m.reachableMessages start) :: closures.known⟩

/-- Whether a message is in the closure of another. -/
def Closures.reach (closures : Closures) (start goal : MessageRef) : Bool :=
  (closures.known.lookup start).any fun marks => marks.getD goal.index false

/-- Which of the fields of a message are recursive, and the closures that were needed. -/
structure FieldMarks where
  /-- Whether each of the fields so far is recursive, in order. -/
  marks : List Bool := []
  /-- The closures. -/
  closures : Closures

/-- Finds whether the next field of a message is recursive. -/
def FieldMarks.next (m : Model) (owner : MessageRef) (found : FieldMarks) (f : Field) :
    FieldMarks :=
  match f.target with
  | some (.message target) =>
    let closures := found.closures.search m target
    { marks := found.marks ++ [closures.reach target owner], closures := closures }
  | _ => { found with marks := found.marks ++ [false] }

/-- A model whose recursive fields are being marked. -/
structure Marking where
  /-- The model. -/
  model : Model
  /-- The closures that were needed so far. -/
  closures : Closures := {}

/-- Marks the recursive fields of a message. -/
def Marking.message (state : Marking) (ref : MessageRef) : Marking :=
  let found := (state.model.message ref).fields.foldl (FieldMarks.next state.model ref)
    { closures := state.closures }
  { model := state.model.modifyMessage ref fun element =>
      { element with
        fields := List.zipWith (fun f mark => { f with recursive := mark }) element.fields
          found.marks }
    closures := found.closures }

/-- Marks the recursive fields of all indexed messages. -/
def markAllRecursive (m : Model) : Model :=
  (m.indexedMessages.foldl Marking.message { model := m }).model

end ApiModel.Model
