import ApiModel.Error
import ApiModel.Model.Query

/-!
# Validation

Everything that is generated, nested elements included, must belong to the package of the model.
What is external may belong to any.
-/

namespace ApiModel

/-- An element and its package. -/
structure Packaged where
  /-- The kind of the element. -/
  kind : ElementKind
  /-- Its full name. -/
  id : String
  /-- Its package. -/
  package : String
deriving DecidableEq, Repr

namespace Model

/-- The generated elements in the order in which they are checked. -/
def packagedElements (m : Model) : List Packaged :=
  (m.services.map fun ref => ⟨.service, (m.service ref).id, (m.service ref).package⟩)
    ++ (m.allMessages.map fun ref => ⟨.message, (m.message ref).id, (m.message ref).package⟩)
    ++ m.allEnums.map fun ref =>
      ⟨.enumeration, (m.enumeration ref).id, (m.enumeration ref).package⟩

/-- Tells the first generated element of another package. -/
def validate (m : Model) : Except Error Unit :=
  match m.packagedElements.find? fun element => element.package != m.packageName with
  | none => .ok ()
  | some element =>
    .error (.packageMismatch element.kind element.id element.package m.packageName)

end Model

end ApiModel
