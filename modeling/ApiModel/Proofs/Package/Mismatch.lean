import ApiModel.Proofs.Attempt
import ApiModel.Proofs.First
import ApiModel.Proofs.Graph.Preorder
import ApiModel.Proofs.Package.Readers

/-!
# The first mismatch

Validation succeeds if and only if the listed services, the generated messages and the enumerations
listed at the top or nested in a generated message are in the package of the model. Otherwise it
tells the first that is not: services come first, then messages in preorder, then the enumerations
at the top and those nested in messages, in the order of the messages. External elements may be in
any package, and nested in any way.
-/

namespace ApiModel.Model

open Relation

/-- The elements to check, if the generated messages come in an order. -/
def packagedInOrder (m : Model) (order : List MessageRef) : List Packaged :=
  (m.services.map fun r => ⟨.service, (m.service r).id, (m.service r).package⟩)
    ++ (order.map fun r => ⟨.message, (m.message r).id, (m.message r).package⟩)
    ++ (m.enums ++ order.flatMap fun r => (m.message r).enums).map fun r =>
      ⟨.enumeration, (m.enumeration r).id, (m.enumeration r).package⟩

/-- Whether all that is generated is in the package of the model. -/
structure OnePackage (m : Model) : Prop where
  /-- The listed services. -/
  services : ∀ r ∈ m.services, (m.service r).package = m.packageName
  /-- The generated messages, at any depth. -/
  messages : ∀ r, m.Generated r → (m.message r).package = m.packageName
  /-- The enumerations at the top and in generated messages. -/
  enums : ∀ r, m.GeneratedEnum r → (m.enumeration r).package = m.packageName

variable {m : Model}

/-- Listed services, messages and enumerations are checked, each in its order. -/
theorem forall_mem_packagedInOrder {p : Packaged → Prop} {order : List MessageRef} :
    (∀ x ∈ m.packagedInOrder order, p x) ↔
      (∀ r ∈ m.services, p ⟨.service, (m.service r).id, (m.service r).package⟩) ∧
      (∀ r ∈ order, p ⟨.message, (m.message r).id, (m.message r).package⟩) ∧
      ∀ r ∈ m.enums ++ order.flatMap fun r => (m.message r).enums,
        p ⟨.enumeration, (m.enumeration r).id, (m.enumeration r).package⟩ := by
  simp only [packagedInOrder, List.forall_mem_append, List.forall_mem_map, and_assoc]

/-- An error is the mismatch of the first element that is not in the package of the model. -/
theorem validate_eq_error {e : Error} :
    m.validate = .error e ↔
      ∃ x, First (fun x : Packaged => x.package ≠ m.packageName) m.packagedElements x ∧
        e = .packageMismatch x.kind x.id x.package m.packageName := by
  have hother : ∀ x : Packaged, (x.package != m.packageName) = true ↔
      x.package ≠ m.packageName :=
    fun _ => bne_iff_ne
  simp only [← First.find?_eq_some hother]
  unfold validate
  cases hfind : m.packagedElements.find? fun x => x.package != m.packageName with
  | none =>
    refine iff_of_false (fun h => by cases h) ?_
    rintro ⟨x, hx, -⟩
    cases hx
  | some x =>
    constructor
    · intro h
      exact ⟨x, rfl, (Except.error.inj h).symm⟩
    · rintro ⟨y, hy, rfl⟩
      obtain rfl := Option.some.inj hy
      rfl

/-- External elements are not checked. -/
theorem validate_withExternal (messages : List MessageRef) (enums : List EnumRef) :
    (m.withExternal messages enums).validate = m.validate := by
  have hchecked : (m.withExternal messages enums).packagedElements = m.packagedElements := by
    unfold packagedElements allEnums
    rw [allMessages_withExternal]
    rfl
  unfold validate
  rw [hchecked]
  rfl

namespace FiniteGeneration

variable (h : FiniteGeneration m)

include h

/-- The enumerations of the messages to generate are those that are generated. -/
theorem mem_allEnums {r : EnumRef} : r ∈ m.allEnums ↔ m.GeneratedEnum r := by
  simp only [allEnums, GeneratedEnum, List.mem_append, List.mem_flatMap, h.mem_allMessages]

/-- All that is checked is in the package of the model if and only if all that is generated is. -/
theorem forall_packaged_iff :
    (∀ x ∈ m.packagedElements, x.package = m.packageName) ↔ OnePackage m := by
  change (∀ x ∈ m.packagedInOrder m.allMessages, x.package = m.packageName) ↔ _
  refine forall_mem_packagedInOrder.trans ⟨?_, ?_⟩
  · rintro ⟨hservices, hmessages, henums⟩
    exact ⟨hservices, fun r hr => hmessages r (h.mem_allMessages.2 hr),
      fun r hr => henums r (h.mem_allEnums.2 hr)⟩
  · intro hone
    exact ⟨hone.services, fun r hr => hone.messages r (h.mem_allMessages.1 hr),
      fun r hr => hone.enums r (h.mem_allEnums.1 hr)⟩

end FiniteGeneration

/-- If what is generated is nested finitely, validation succeeds if and only if all of it is in the
package of the model, whatever the external roots are; otherwise it tells the first of the services,
the messages in preorder, and the enumerations at the top and in the messages, that is not. -/
theorem validate_exact (h : FiniteGeneration m) :
    (m.validate = .ok () ↔ OnePackage m) ∧
      (∀ messages enums, (m.withExternal messages enums).validate = m.validate) ∧
      (∃ order, m.Walk m.messages order) ∧
      ∀ order, m.Walk m.messages order → ∀ e, m.validate = .error e ↔
        ∃ x, First (fun x : Packaged => x.package ≠ m.packageName)
          (m.packagedInOrder order) x ∧
          e = .packageMismatch x.kind x.id x.package m.packageName := by
  refine ⟨validate_eq_ok.trans h.forall_packaged_iff, validate_withExternal,
    ⟨_, h.walk_allMessages⟩, fun order hwalk e => ?_⟩
  obtain rfl := hwalk.unique h.walk_allMessages
  exact validate_eq_error

/-- If the files of two packages are generated, the package is that of the first, and the service of
the second is told. -/
theorem validate_exact_lending :
    ∃ m, lending.model none ["reader.proto", "shelves.proto"] = .ok m ∧ FiniteGeneration m ∧
      ¬OnePackage m ∧ ∃ order x, m.Walk m.messages order ∧
        First (fun x : Packaged => x.package ≠ m.packageName) (m.packagedInOrder order) x ∧
        x = ⟨.service, ".lib.Library", "lib"⟩ := by
  have hread : (lending.model none ["reader.proto", "shelves.proto"]).toOption.any (fun m =>
      m.validate == .error (.packageMismatch .service ".lib.Library" "lib" "people")) = true := by
    decide +kernel
  obtain ⟨m, hm, hvalidate⟩ := Attempt.exists_ok_of_any hread
  have hfinite : FiniteGeneration m := (Parsed.descriptor hm).finiteNesting.generation
  obtain ⟨hok, -, ⟨order, hwalk⟩, herror⟩ := validate_exact hfinite
  have hfault := eq_of_beq hvalidate
  refine ⟨m, hm, hfinite, fun hone => ?_, order, ?_⟩
  · cases hfault.symm.trans (hok.2 hone)
  · obtain ⟨⟨kind, id, package⟩, hfirst, htold⟩ := (herror order hwalk _).1 hfault
    obtain ⟨rfl, rfl, rfl, -⟩ := Error.packageMismatch.inj htold
    exact ⟨_, hwalk, hfirst, rfl⟩

end ApiModel.Model
