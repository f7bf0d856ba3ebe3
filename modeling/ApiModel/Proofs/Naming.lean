import ApiModel.Model.Naming
import ApiModel.Proofs.Text.Occurrences

/-!
# Full names

What a full name tells about the names that it is made of.
-/

namespace ApiModel

/-- A full name ends with what the name ends with. -/
theorem qualify_append (package name ending : String) :
    qualify package (name ++ ending) = qualify package name ++ ending := by
  unfold qualify
  split <;> simp [← String.toList_inj]

/-- Names that a package declares differ if their full names do. -/
theorem qualify_inj {package first second : String} :
    qualify package first = qualify package second ↔ first = second := by
  unfold qualify
  split <;> simp [← String.toList_inj]

/-- A text that goes on with a dot and a name without one tells both parts. -/
theorem append_dot_inj {first second name other : String} (hname : '.' ∉ name.toList)
    (hother : '.' ∉ other.toList) :
    first ++ "." ++ name = second ++ "." ++ other ↔ first = second ∧ name = other := by
  have hsplit : ∀ start name : String, '.' ∉ name.toList →
      Text.splitLast? '.' (start ++ "." ++ name).toList = some (start.toList, name.toList) := by
    intro start name hname
    refine Text.splitLast?_eq_some.2 ⟨?_, hname⟩
    rw [String.toList_append, String.toList_append, List.append_assoc]
    rfl
  constructor
  · intro h
    have hparts := (hsplit first name hname).symm.trans (h ▸ hsplit second other hother)
    obtain ⟨hfirst, hname⟩ := Prod.mk.inj (Option.some.inj hparts)
    exact ⟨String.toList_inj.1 hfirst, String.toList_inj.1 hname⟩
  · rintro ⟨rfl, rfl⟩
    rfl

end ApiModel
