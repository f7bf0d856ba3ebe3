import ApiModel.Assembly.Pagination
import ApiModel.Assembly.Recursion
import ApiModel.Assembly.Resolve

/-!
# Assembly

A fresh model has only texts that name types. Assembly indexes all elements, resolves the names and
notes what needs the whole graph: maps, recursive fields, unique numbers and pages.
-/

namespace ApiModel.Model

/-- Notes what needs the whole graph. -/
def annotate (m : Model) : Model :=
  m.markAllRecursive.findAllUniqueValues.markAllPages

/-- Indexes, resolves and annotates a model. -/
def crossReference (m : Model) : Outcome :=
  ((m.buildIndices.resolveFields.andThen fun m => .ofStep m m.checkMapEntries).andThen fun m =>
    m.markAllMaps.resolveMethods).andThen fun m => ⟨m.annotate, none⟩

end ApiModel.Model
