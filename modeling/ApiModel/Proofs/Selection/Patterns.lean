import ApiModel.Proofs.Text.Affixes
import ApiModel.Skip

/-!
# Patterns of full names

A pattern stands for itself, or, if it ends in a star, for everything strictly below what is before
the star. A selection reads its two lists in that sense, and refuses a pattern that does not begin
with a dot.
-/

namespace ApiModel

namespace IdFilter

/-- Whether a pattern stands for a full name. -/
inductive StandsFor : String → String → Prop
  /-- A pattern that does not end in a star stands for itself. -/
  | itself {pattern : String} (hplain : ∀ scope, pattern ≠ scope ++ ".*") : StandsFor
      pattern pattern
  /-- A star stands for everything strictly below what is before it. -/
  | below (scope rest : String) : StandsFor (scope ++ ".*") (scope ++ "." ++ rest)

/-- Whether a list of patterns matches a full name. -/
def Matches (filter : IdFilter) (id : String) : Prop :=
  ∃ pattern ∈ filter.patterns, StandsFor pattern id

/-- Whether a pattern is a full name, with the dot at its beginning. -/
def Qualified (pattern : String) : Prop := ∃ rest, pattern = "." ++ rest

/-- A star stands for what goes on with a dot. -/
theorem standsFor_star {scope id : String} :
    StandsFor (scope ++ ".*") id ↔ ∃ rest, id = scope ++ "." ++ rest := by
  constructor
  · intro h
    generalize hpattern : scope ++ ".*" = pattern at h
    cases h with
    | itself hplain => exact absurd hpattern.symm (hplain scope)
    | below other rest =>
      obtain rfl : scope = other := by simpa using hpattern
      exact ⟨rest, rfl⟩
  · rintro ⟨rest, rfl⟩
    exact .below scope rest

/-- A pattern is compared in its own sense. -/
theorem patternMatches_iff {pattern id : String} :
    patternMatches pattern id = true ↔ StandsFor pattern id := by
  rw [patternMatches]
  cases hscope : Text.stripSuffix? ".*" pattern with
  | some scope =>
    obtain rfl := Text.stripSuffix?_eq_some.1 hscope
    rw [standsFor_star]
    exact Text.beginsWith_iff
  | none =>
    have hplain := Text.stripSuffix?_eq_none.1 hscope
    rw [beq_iff_eq]
    constructor
    · rintro rfl
      exact .itself hplain
    · intro h
      cases h with
      | itself => rfl
      | below scope rest => exact absurd rfl (hplain scope)

variable {filter : IdFilter} {id : String}

/-- A list covers exactly the names that it matches. -/
theorem covers_iff : filter.covers id = true ↔ filter.Matches id := by
  rw [covers, List.any_eq_true]
  exact exists_congr fun pattern => and_congr_right fun _ => patternMatches_iff

instance (filter : IdFilter) (id : String) : Decidable (filter.Matches id) :=
  decidable_of_iff _ covers_iff

/-- A list leaves out exactly the names that it does not match. -/
theorem covers_eq_false_iff : filter.covers id = false ↔ ¬filter.Matches id := by
  rw [← covers_iff, Bool.not_eq_true]

/-- A list of no patterns is empty. -/
theorem isEmpty_iff_patterns : filter.isEmpty = true ↔ filter.patterns = [] :=
  List.isEmpty_iff

/-- Every pattern is a full name if none is found that is not. -/
theorem unqualified?_eq_none :
    filter.unqualified? = none ↔ ∀ pattern ∈ filter.patterns, Qualified pattern := by
  simp only [unqualified?, List.find?_eq_none, Bool.not_eq_true', Bool.not_eq_false,
    Text.beginsWith_iff, Qualified]

/-- What is found is no full name. -/
theorem of_unqualified? {pattern : String} (h : filter.unqualified? = some pattern) :
    pattern ∈ filter.patterns ∧ ¬Qualified pattern := by
  have hfound := List.find?_some h
  rw [Bool.not_eq_true', ← Bool.not_eq_true, Text.beginsWith_iff] at hfound
  exact ⟨List.mem_of_find?_eq_some h, hfound⟩

end IdFilter

namespace Selection

open IdFilter

variable {s : Selection}

/-- Whether the patterns for what is included let a full name in. -/
def Includes (s : Selection) (id : String) : Prop :=
  s.included.patterns = [] ∨ s.included.Matches id

instance (s : Selection) (id : String) : Decidable (s.Includes id) :=
  inferInstanceAs (Decidable (_ ∨ _))

/-- A name is included if nothing is asked for or the name is. -/
theorem includes_iff {id : String} : s.includes id = true ↔ s.Includes id := by
  rw [includes, Bool.or_eq_true, isEmpty_iff_patterns, covers_iff, Includes]

/-- A top-level element stays if it is not skipped, and included. -/
theorem keeps_iff {id : String} : s.keeps id = true ↔ ¬s.skipped.Matches id ∧
    s.Includes id := by
  rw [keeps, Bool.and_eq_true, Bool.not_eq_true', covers_eq_false_iff, includes_iff]

/-- There is no error if all patterns are full names. -/
theorem fault?_eq_none :
    s.fault? = none ↔ ∀ pattern ∈ s.skipped.patterns ++ s.included.patterns,
    Qualified pattern := by
  rw [List.forall_mem_append, ← unqualified?_eq_none, ← unqualified?_eq_none, fault?]
  cases s.skipped.unqualified? with
  | none => simp only [Option.map_eq_none_iff, true_and]
  | some pattern => simp only [reduceCtorEq, false_and]

/-- An error tells the list and a pattern of it that is no full name. -/
theorem of_fault? {e : Error} (h : s.fault? = some e) :
    ∃ key pattern, e = unqualified key pattern ∧ ¬Qualified pattern ∧
      (key = SourceOptions.skippedIds ∧ pattern ∈ s.skipped.patterns ∨
        key = SourceOptions.includedIds ∧ pattern ∈ s.included.patterns) := by
  rw [fault?] at h
  cases hskipped : s.skipped.unqualified? with
  | some pattern =>
    rw [hskipped] at h
    obtain ⟨hmem, hbad⟩ := of_unqualified? hskipped
    exact ⟨_, pattern, (Option.some.inj h).symm, hbad, .inl ⟨rfl, hmem⟩⟩
  | none =>
    rw [hskipped] at h
    obtain ⟨pattern, hincluded, rfl⟩ := Option.map_eq_some_iff.1 h
    obtain ⟨hmem, hbad⟩ := of_unqualified? hincluded
    exact ⟨_, pattern, rfl, hbad, .inr ⟨rfl, hmem⟩⟩

end Selection

end ApiModel
