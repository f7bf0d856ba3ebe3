import ApiModel.Error
import ApiModel.Model.Basic

/-!
# Outcomes

A pass over a model may fail half-way. Its outcome is the model as far as the pass got and the error
that stopped it.
-/

namespace ApiModel

/-- A model after a pass, and the error that stopped the pass. -/
structure Outcome where
  /-- The model. -/
  model : Model
  /-- The error, if the pass did not come to its end. -/
  error? : Option Error := none

namespace Outcome

/-- Goes on with another pass unless one was stopped. -/
def andThen (outcome : Outcome) (pass : Model → Outcome) : Outcome :=
  match outcome.error? with
  | none => pass outcome.model
  | some _ => outcome

/-- The model of a pass that came to its end, or the error. -/
def result (outcome : Outcome) : Except Error Model :=
  match outcome.error? with
  | none => .ok outcome.model
  | some e => .error e

/-- A step that changes nothing if it fails. -/
def ofStep (model : Model) : Except Error Model → Outcome
  | .ok changed => ⟨changed, none⟩
  | .error e => ⟨model, some e⟩

/-- Takes a step for each item in turn until one fails. -/
def forEach {α : Type} (step : Model → α → Except Error Model) : List α → Model → Outcome
  | [], model => ⟨model, none⟩
  | item :: rest, model => (ofStep model (step model item)).andThen (forEach step rest)

end Outcome

end ApiModel
