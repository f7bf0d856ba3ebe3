import ApiModel.Proofs.Graph.Runs

/-!
# The identity of a model

A model is known by its name, its package, its title and its overview. A reader gives it these, and
no call changes them, however far it gets.
-/

namespace ApiModel

namespace Model

/-- Whether two models have one identity. -/
structure SameIdentity (m other : Model) : Prop where
  /-- The same name. -/
  name : other.name = m.name
  /-- The same package. -/
  packageName : other.packageName = m.packageName
  /-- The same title. -/
  title : other.title = m.title
  /-- The same overview. -/
  description : other.description = m.description

variable {m other last : Model}

namespace SameIdentity

/-- Every model has its own identity. -/
theorem refl (m : Model) : SameIdentity m m :=
  ⟨rfl, rfl, rfl, rfl⟩

/-- Having one identity is passed on. -/
theorem trans (h : SameIdentity m other) (h' : SameIdentity other last) : SameIdentity m last where
  name := h'.name.trans h.name
  packageName := h'.packageName.trans h.packageName
  title := h'.title.trans h.title
  description := h'.description.trans h.description

end SameIdentity

/-- Changing a message keeps the identity. -/
theorem sameIdentity_modifyMessage (m : Model) (r : MessageRef) (change : Message → Message) :
    SameIdentity m (m.modifyMessage r change) := ⟨rfl, rfl, rfl, rfl⟩

/-- Changing an enumeration keeps the identity. -/
theorem sameIdentity_modifyEnum (m : Model) (r : EnumRef) (change : Enumeration → Enumeration) :
    SameIdentity m (m.modifyEnum r change) := ⟨rfl, rfl, rfl, rfl⟩

/-- Changing a service keeps the identity. -/
theorem sameIdentity_modifyService (m : Model) (r : ServiceRef) (change : Service → Service) :
    SameIdentity m (m.modifyService r change) := ⟨rfl, rfl, rfl, rfl⟩

/-- Changing a method keeps the identity. -/
theorem sameIdentity_modifyMethod (m : Model) (r : MethodRef) (change : Method → Method) :
    SameIdentity m (m.modifyMethod r change) := ⟨rfl, rfl, rfl, rfl⟩

/-! ## Assembly -/

/-- Indexing keeps the identity. -/
theorem sameIdentity_buildIndices (m : Model) : SameIdentity m m.buildIndices := by
  rw [buildIndices_eq]
  exact ⟨rfl, rfl, rfl, rfl⟩

/-- Resolving fields keeps the identity, however far it gets. -/
theorem sameIdentity_resolveFields (m : Model) : SameIdentity m m.resolveFields.model := by
  refine Outcome.forEach_relates SameIdentity.refl SameIdentity.trans (fun k r y hy => ?_) _ m
  obtain ⟨fields, -, rfl⟩ := Attempt.map_eq_ok.1 hy
  exact sameIdentity_modifyMessage k r _

/-- Resolving methods keeps the identity, however far it gets. -/
theorem sameIdentity_resolveMethods (m : Model) : SameIdentity m m.resolveMethods.model := by
  refine Outcome.forEach_relates SameIdentity.refl SameIdentity.trans (fun k r y hy => ?_) _ m
  obtain ⟨resolved, -, rfl⟩ := Attempt.map_eq_ok.1 hy
  exact sameIdentity_modifyMethod k r _

/-- Marking the recursive fields keeps the identity. -/
theorem sameIdentity_markAllRecursive (m : Model) : SameIdentity m m.markAllRecursive := by
  rw [markAllRecursive_eq_foldl]
  exact foldl_relates SameIdentity.refl SameIdentity.trans
    (fun k r => sameIdentity_modifyMessage k r _) _ m

/-- Finding the first values of numbers keeps the identity. -/
theorem sameIdentity_findAllUniqueValues (m : Model) : SameIdentity m m.findAllUniqueValues :=
  foldl_relates SameIdentity.refl SameIdentity.trans (fun k r => sameIdentity_modifyEnum k r _) _ m

/-- Noting pages keeps the identity. -/
theorem sameIdentity_markAllPages (m : Model) : SameIdentity m m.markAllPages := by
  refine foldl_relates SameIdentity.refl SameIdentity.trans (fun k r => ?_) _ m
  rw [markPages]
  split
  · exact .refl k
  · exact (sameIdentity_modifyMethod k r _).trans (sameIdentity_modifyMessage _ _ _)

/-- Marking maps keeps the identity. -/
theorem sameIdentity_markAllMaps (m : Model) : SameIdentity m m.markAllMaps :=
  foldl_relates SameIdentity.refl SameIdentity.trans
    (fun k r => sameIdentity_modifyMessage k r _) _ m

/-- Assembly keeps the identity, however far it gets. -/
theorem sameIdentity_crossReference (m : Model) : SameIdentity m m.crossReference.model := by
  refine (sameIdentity_buildIndices m).trans ?_
  rw [crossReference]
  refine Outcome.andThen_relates (R := SameIdentity) .trans ?_ fun k => ?_
  · refine Outcome.andThen_relates (R := SameIdentity) .trans ?_ fun k => ?_
    · refine Outcome.andThen_relates (R := SameIdentity) .trans (sameIdentity_resolveFields _)
        fun k => ?_
      rw [model_checkMapEntries]
      exact .refl k
    · exact (sameIdentity_markAllMaps k).trans (sameIdentity_resolveMethods _)
  · exact ((sameIdentity_markAllRecursive k).trans (sameIdentity_findAllUniqueValues _)).trans
      (sameIdentity_markAllPages _)

end Model

/-! ## Skipping and documentation -/

open Model

/-- What a selection leaves has the identity of the model. -/
theorem Selection.sameIdentity_apply (s : Selection) (m : Model) : SameIdentity m (s.apply m) := by
  have hlists : SameIdentity m (s.prunedLists m) := ⟨rfl, rfl, rfl, rfl⟩
  rw [apply_eq]
  refine (hlists.trans ?_).trans (sameIdentity_buildIndices _)
  exact foldl_relates SameIdentity.refl SameIdentity.trans
    (fun k r => sameIdentity_modifyService k r _) _ _

namespace Model

variable {m other : Model}

/-- Skipping keeps the identity. -/
theorem sameIdentity_skipElements {options : SourceOptions}
    (h : m.skipElements options = .ok other) :
    SameIdentity m other := by
  rcases skipElements_eq_ok.1 h with ⟨-, rfl⟩ | ⟨-, -, rfl⟩
  · exact .refl _
  · exact (Selection.ofOptions options).sameIdentity_apply m

/-- Rules keep the identity. -/
theorem sameIdentity_applyRules (m : Model) (config : ServiceConfig) :
    SameIdentity m (m.applyRules config) := by
  unfold applyRules
  split
  · exact .refl m
  · refine SameIdentity.trans ?_ (foldl_relates SameIdentity.refl SameIdentity.trans
      (fun k r => sameIdentity_modifyMethod k r _) _ _)
    refine SameIdentity.trans ?_ (foldl_relates SameIdentity.refl SameIdentity.trans
      (fun k r => sameIdentity_modifyService k r _) _ _)
    refine SameIdentity.trans ?_ (foldl_relates SameIdentity.refl SameIdentity.trans
      (fun k r => sameIdentity_modifyEnum k r _) _ _)
    exact foldl_relates SameIdentity.refl SameIdentity.trans
      (fun k r => sameIdentity_modifyMessage k r _) _ m

/-- Setting the documentation of an element keeps the identity. -/
theorem sameIdentity_setDocumentation (m : Model) (text : String) (element : Documented) :
    SameIdentity m (m.setDocumentation text element) := by
  cases element with
  | message r => exact sameIdentity_modifyMessage m r _
  | enumeration r => exact sameIdentity_modifyEnum m r _
  | service r => exact sameIdentity_modifyService m r _
  | method r => exact sameIdentity_modifyMethod m r _
  | field r position => exact sameIdentity_modifyMessage m r _
  | oneOf r position => exact sameIdentity_modifyMessage m r _
  | enumValue r position => exact sameIdentity_modifyEnum m r _

/-- Overrides keep the identity, however far they get. -/
theorem sameIdentity_patchAll (m : Model) (overrides : List DocumentationOverride) :
    SameIdentity m (m.patchAll overrides).model := by
  refine Outcome.forEach_relates SameIdentity.refl SameIdentity.trans (fun k item y hy => ?_) _ m
  unfold patch at hy
  split at hy
  · cases hy
  · split at hy
    · cases hy
    · obtain rfl := Except.ok.inj hy
      exact sameIdentity_setDocumentation k _ _

/-- No call changes the identity of a model. -/
theorem sameIdentity_call (m : Model) (c : Call) : SameIdentity m (m.call c) := by
  cases c with
  | crossReference => exact sameIdentity_crossReference m
  | skip options =>
    rcases call_skip m options with hskip | hskip
    · exact sameIdentity_skipElements hskip
    · rw [hskip]
      exact .refl m
  | applyRules config => exact sameIdentity_applyRules m config
  | patch overrides => exact sameIdentity_patchAll m overrides

end Model

end ApiModel
