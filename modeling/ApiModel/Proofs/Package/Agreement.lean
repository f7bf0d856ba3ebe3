import ApiModel.Creation
import ApiModel.Proofs.Graph.Generated
import ApiModel.Proofs.Identity
import ApiModel.Proofs.Selection.Patterns
import ApiModel.Validate

/-!
# Agreement on one package

A model agrees on its package if the services and the elements at the top are in it, and what is
nested is in the package of the message around it. Then everything that is generated is in the
package of the model, so validation has nothing to tell. No call breaks the agreement: elements keep
their packages, and lists only get shorter. So a mismatch is not what keeps a model that agrees from
being created.
-/

namespace ApiModel.Model

open Relation

/-- Whether the listed elements of a model are in its package, and nested ones in that of the
message around them. -/
structure InPackage (m : Model) : Prop where
  /-- The services. -/
  services : ∀ r ∈ m.services, (m.service r).package = m.packageName
  /-- The generated messages at the top. -/
  messages : ∀ r ∈ m.messages, (m.message r).package = m.packageName
  /-- The generated enumerations at the top. -/
  enums : ∀ r ∈ m.enums, (m.enumeration r).package = m.packageName
  /-- The nested messages. -/
  nestedMessages : ∀ r, ∀ c ∈ (m.message r).messages, (m.message c).package =
    (m.message r).package
  /-- The nested enumerations. -/
  nestedEnums : ∀ r, ∀ c ∈ (m.message r).enums, (m.enumeration c).package =
    (m.message r).package

variable {m other : Model}

/-! ## Validation -/

/-- Validation succeeds if and only if everything that is generated is in the package of the
model. -/
theorem validate_eq_ok :
    m.validate = .ok () ↔ ∀ element ∈ m.packagedElements, element.package =
      m.packageName := by
  unfold validate
  cases hfind : m.packagedElements.find? fun element => element.package != m.packageName with
  | none =>
    rw [List.find?_eq_none] at hfind
    simp only [bne_iff_ne, ne_eq, not_not] at hfind
    exact iff_of_true rfl hfind
  | some element =>
    have hother := List.find?_some hfind
    rw [bne_iff_ne] at hother
    refine iff_of_false (fun h => by cases h) fun hall => hother ?_
    exact hall element (List.mem_of_find?_eq_some hfind)

namespace InPackage

variable (h : InPackage m)

include h

/-- Every generated message is in the package of the model. -/
theorem generated {r : MessageRef} (hr : m.Generated r) :
    (m.message r).package = m.packageName := by
  obtain ⟨root, hroot, hbelow⟩ := hr
  induction hbelow using ReflTransGen.head_induction_on with
  | refl => exact h.messages root hroot
  | head hnested _ ih => exact (h.nestedMessages _ _ hnested).trans ih

/-- Every generated enumeration is in the package of the model. -/
theorem enumeration {r : EnumRef} (hr : r ∈ m.allEnums) :
    (m.enumeration r).package = m.packageName := by
  rcases List.mem_append.1 hr with hr | hr
  · exact h.enums r hr
  · obtain ⟨p, hp, hr⟩ := List.mem_flatMap.1 hr
    exact (h.nestedEnums p r hr).trans (h.generated (generated_of_mem_allMessages hp))

/-- A model that agrees on its package is valid. -/
theorem validate : m.validate = .ok () := by
  refine validate_eq_ok.2 fun element helement => ?_
  rcases List.mem_append.1 helement with helement | helement
  · rcases List.mem_append.1 helement with helement | helement
    · obtain ⟨r, hr, rfl⟩ := List.mem_map.1 helement
      exact h.services r hr
    · obtain ⟨r, hr, rfl⟩ := List.mem_map.1 helement
      exact h.generated (generated_of_mem_allMessages hr)
  · obtain ⟨r, hr, rfl⟩ := List.mem_map.1 helement
    exact h.enumeration hr

/-! ## Calls -/

/-- A model that lists less, and whose elements have the same packages, agrees too. -/
theorem of_fewer (hname : other.packageName = m.packageName)
    (hservices : other.services ⊆ m.services) (hmessages : other.messages ⊆ m.messages)
    (henums : other.enums ⊆ m.enums)
    (hnested : ∀ r, (other.message r).messages ⊆ (m.message r).messages)
    (hnestedEnums : ∀ r, (other.message r).enums ⊆ (m.message r).enums)
    (hservice : ∀ r, (other.service r).package = (m.service r).package)
    (hmessage : ∀ r, (other.message r).package = (m.message r).package)
    (henum : ∀ r, (other.enumeration r).package = (m.enumeration r).package) :
    InPackage other where
  services r hr := by
    rw [hservice, hname]
    exact h.services r (hservices hr)
  messages r hr := by
    rw [hmessage, hname]
    exact h.messages r (hmessages hr)
  enums r hr := by
    rw [henum, hname]
    exact h.enums r (henums hr)
  nestedMessages r c hc := by
    rw [hmessage, hmessage]
    exact h.nestedMessages r c (hnested r hc)
  nestedEnums r c hc := by
    rw [henum, hmessage]
    exact h.nestedEnums r c (hnestedEnums r hc)

/-- Taking elements off the lists keeps the agreement. -/
theorem of_reduction (hname : other.packageName = m.packageName) (hfewer : Reduction m other) :
    InPackage other :=
  h.of_fewer hname hfewer.services.subset hfewer.messages.subset hfewer.enums.subset
    (fun r => (hfewer.nestedMessages r).subset) (fun r => (hfewer.nestedEnums r).subset)
    (fun r => by
      have hservice := congrArg Service.package (hfewer.service r)
      exact hservice)
    (fun r => by
      have hmessage := congrArg Message.package (hfewer.message r)
      exact hmessage)
    fun r => congrArg Enumeration.package (hfewer.enumeration r)

/-- Models of one listing agree alike if their elements have the same packages. -/
theorem of_sameListing (hname : other.packageName = m.packageName) (hsame : SameListing m other)
    (hservice : ∀ r, (other.service r).package = (m.service r).package)
    (hmessage : ∀ r, (other.message r).package = (m.message r).package)
    (henum : ∀ r, (other.enumeration r).package = (m.enumeration r).package) :
    InPackage other := by
  have hsubset : ∀ {ref : Type} {xs ys : List ref}, xs = ys → xs ⊆ ys := fun h =>
    h ▸ List.Subset.refl _
  exact h.of_fewer hname (hsubset hsame.services) (hsubset hsame.messages) (hsubset hsame.enums)
    (fun r => hsubset (hsame.nestedMessages r)) (fun r => hsubset (hsame.nestedEnums r)) hservice
    hmessage henum

/-- Deriving what is not in the source keeps the agreement. -/
theorem of_sameSource (hname : other.packageName = m.packageName) (hsame : SameSource m other) :
    InPackage other :=
  h.of_sameListing hname hsame.toSameListing
    (fun r => congrArg Service.package (hsame.serviceSource r))
    (fun r => by
      have hmessage := congrArg Message.package (hsame.messageSource r)
      exact hmessage)
    fun r => by
      have henum := congrArg Enumeration.package (hsame.enumSource r)
      exact henum

/-- Documenting keeps the agreement. -/
theorem of_sameButTexts (hname : other.packageName = m.packageName) (hsame : SameButTexts m other) :
    InPackage other :=
  h.of_sameListing hname hsame.toSameListing
    (fun r => by
      have hservice := congrArg Service.package (hsame.serviceText r)
      exact hservice)
    (fun r => by
      have hmessage := congrArg Message.package (hsame.messageText r)
      exact hmessage)
    fun r => by
      have henum := congrArg Enumeration.package (hsame.enumText r)
      exact henum

/-- Every call keeps the agreement. -/
theorem call (c : Call) : InPackage (m.call c) := by
  have hname := (sameIdentity_call m c).packageName
  cases c with
  | crossReference =>
    have hindexed : InPackage m.buildIndices :=
      h.of_reduction (sameIdentity_buildIndices m).packageName (reduction_buildIndices m)
    refine hindexed.of_sameSource ?_ (sameSource_crossReference m)
    exact hname.trans (sameIdentity_buildIndices m).packageName.symm
  | skip options =>
    rcases call_skip m options with hskip | hskip
    · exact h.of_reduction hname (reduction_skipElements hskip)
    · rw [hskip]
      exact h
  | applyRules config => exact h.of_sameButTexts hname (sameButTexts_applyRules m config)
  | patch overrides => exact h.of_sameButTexts hname (sameButTexts_patchAll m overrides)

/-- Every sequence of calls keeps the agreement. -/
theorem calls (calls : List Call) : InPackage (calls.foldl Model.call m) := by
  induction calls generalizing m with
  | nil => exact h
  | cons c rest ih => exact ih (h.call c)

/-- The rules of a service configuration, if there is one, keep the agreement. -/
theorem ruled (service : Option ServiceConfig) :
    InPackage (match service with
      | some service => m.applyRules service
      | none => m) := by
  cases service with
  | none => exact h
  | some service => exact h.call (.applyRules service)

end InPackage

/-! ## Creating models -/

/-- An override that cannot be applied is told as such. -/
theorem of_patchAll_error {overrides : List DocumentationOverride} {e : Error}
    (h : (m.patchAll overrides).error? = some e) :
    ∃ id reason, e = .documentationOverride id reason := by
  obtain ⟨k, item, -, hfail⟩ := Outcome.of_forEach_error h
  unfold patch at hfail
  split at hfail
  · exact ⟨_, _, (Except.error.inj hfail).symm⟩
  · split at hfail
    · exact ⟨_, _, (Except.error.inj hfail).symm⟩
    · cases hfail

/-- A selection that cannot be made is told as an error of the configuration. -/
theorem of_skipElements_error {options : SourceOptions} {e : Error}
    (h : m.skipElements options = .error e) : ∃ text, e = .config text := by
  unfold skipElements at h
  dsimp only at h
  split at h
  · cases h
  · split at h
    · rename_i fault hfault
      obtain rfl := Except.error.inj h
      obtain ⟨key, pattern, rfl, -⟩ := Selection.of_fault? hfault
      exact ⟨_, rfl⟩
    · cases h

/-- If a model agrees on its package, no mismatch is told on the way to its end. -/
theorem InPackage.finish_ne_mismatch (h : InPackage m) (config : ModelConfig)
    (service : Option ServiceConfig) (kind : ElementKind) (id actual expected : String) :
    config.finish service m ≠ .error (.packageMismatch kind id actual expected) := by
  intro hfinish
  have hrenamed : InPackage (config.rename m) :=
    h.of_fewer rfl (List.Subset.refl _) (List.Subset.refl _) (List.Subset.refl _)
      (fun _ => List.Subset.refl _) (fun _ => List.Subset.refl _) (fun _ => rfl) (fun _ => rfl)
      fun _ => rfl
  rcases Attempt.bind_eq_error.1 hfinish with hrefine | ⟨last, -, hlast⟩
  case inr => cases hlast
  rcases Attempt.bind_eq_error.1 hrefine with hassembly | ⟨a, ha, hrefine⟩
  · have hfault := Outcome.result_eq_error.1 hassembly
    rcases crossReference_cases (config.rename m) with ⟨-, hend⟩ | ⟨e, he, hblame⟩
    · rw [hend] at hfault
      cases hfault
    · obtain rfl := Option.some.inj (he.symm.trans hfault)
      cases hblame
  obtain ⟨-, rfl⟩ := Outcome.result_eq_ok.1 ha
  have hassembled : InPackage (config.rename m).crossReference.model :=
    hrenamed.call .crossReference
  rcases Attempt.bind_eq_error.1 hrefine with hskip | ⟨b, hb, hrefine⟩
  · obtain ⟨text, htext⟩ := of_skipElements_error hskip
    cases htext
  have hcall : (config.rename m).crossReference.model.call (.skip config.options) = b := by
    rw [Model.call, hb]
  have hreduced : InPackage b := hcall ▸ hassembled.call (.skip config.options)
  have hruled := hreduced.ruled service
  rcases Attempt.bind_eq_error.1 hrefine with hpatch | ⟨c, hc, hrefine⟩
  · obtain ⟨owner, reason, htext⟩ := of_patchAll_error (Outcome.result_eq_error.1 hpatch)
    cases htext
  obtain ⟨-, rfl⟩ := Outcome.result_eq_ok.1 hc
  rcases Attempt.bind_eq_error.1 hrefine with hinvalid | ⟨valid, -, hend⟩
  · have hvalid := (hruled.call (.patch config.overrides)).validate
    cases hinvalid.symm.trans hvalid
  · cases hend

end ApiModel.Model
