import ApiModel.Proofs.Graph.Generated
import ApiModel.Proofs.Graph.Precedence

/-!
# Generated elements before external ones

The generated messages are visited after the external ones, so that a full name which both have
leads to a generated one. Enumerations are put in before any message is visited, the generated ones
of the top before the external ones. So one of the top gives way to every external enumeration of
its name, while those nested in generated messages are put in last of all.
-/

namespace ApiModel.Model

open Relation

/-- Whether a message is an external root or nested in one, at any depth. -/
def External (m : Model) (r : MessageRef) : Prop :=
  ∃ root ∈ m.externalMessages, ReflTransGen m.NestedIn r root

/-- Whether an enumeration is nested in a generated message. -/
def NestedGeneratedEnum (m : Model) (r : EnumRef) : Prop :=
  ∃ p, m.Generated p ∧ r ∈ (m.message p).enums

/-- Whether an enumeration is an external one at the top or nested in an external message. -/
def ExternalEnum (m : Model) (r : EnumRef) : Prop :=
  r ∈ m.externalEnums ∨ ∃ p, m.External p ∧ r ∈ (m.message p).enums

/-- Whether the index of messages leads from the full name of every generated message to a generated
one. -/
def ShadowsMessages (m : Model) : Prop :=
  ∀ r, m.Generated r → ∃ s, m.buildIndices.messageRef? (m.message r).id = some s ∧
    m.Generated s ∧ (m.message s).id = (m.message r).id

/-- Whether the index of enumerations leads from a full name to a generated one. -/
def FindsGeneratedEnum (m : Model) (id : String) : Prop :=
  ∃ s, m.buildIndices.enumRef? id = some s ∧ m.GeneratedEnum s ∧ (m.enumeration s).id = id

/-- Whether the index of enumerations leads from the full name of every generated one to a generated
one. -/
def ShadowsEnums (m : Model) : Prop :=
  ∀ r, m.GeneratedEnum r → m.FindsGeneratedEnum (m.enumeration r).id

/-! ## What is put in behind what -/

section Index

variable {ref : Type} {id : ref → String} {key : String} {earlier later : List ref}

/-- A full name is found at the last place of the later list that has it, or else of the earlier
one. -/
theorem get?_indexBy_append : (indexBy id (earlier ++ later)).get? key =
    ((indexBy id later).get? key).or ((indexBy id earlier).get? key) := by
  simp only [get?_indexBy, List.reverse_append, List.find?_append]

/-- A full name that a later place has finds a later place. -/
theorem get?_indexBy_append_of_mem (id : ref → String) (earlier : List ref) {r : ref}
    (hr : r ∈ later) (hid : id r = key) :
    ∃ s ∈ later, id s = key ∧ (indexBy id (earlier ++ later)).get? key = some s := by
  obtain ⟨s, hs⟩ := Option.isSome_iff_exists.1 (isSome_get?_indexBy.2 ⟨r, hr, hid⟩)
  have hgiven := of_get?_indexBy hs
  refine ⟨s, hgiven.1, hgiven.2, ?_⟩
  rw [get?_indexBy_append, hs, Option.some_or]

/-- A full name that no later place has finds an earlier place. -/
theorem get?_indexBy_append_of_forall_ne (h : ∀ s ∈ later, id s ≠ key) :
    (indexBy id (earlier ++ later)).get? key = (indexBy id earlier).get? key := by
  have hnone : (indexBy id later).get? key = none := by
    simpa [get?_indexBy] using h
  rw [get?_indexBy_append, hnone, Option.none_or]

end Index

variable {m : Model} {key : String}

/-- The messages below some roots in the order in which they are indexed. -/
def visitsBelow (m : Model) (roots : List MessageRef) : List MessageRef :=
  roots.reverse.flatMap (m.visitMessage m.store.messages.size)

/-- The enumerations nested below some roots in the order in which they are indexed. -/
def enumsBelow (m : Model) (roots : List MessageRef) : List EnumRef :=
  (m.visitsBelow roots).flatMap fun r => (m.message r).enums

/-- The generated messages are visited after the external ones. -/
theorem visitedMessages_eq (m : Model) :
    m.visitedMessages = m.visitsBelow m.externalMessages ++ m.visitsBelow m.messages := by
  simp only [visitedMessages, visitsBelow, List.reverse_append, List.flatMap_append]

/-- The enumerations nested in generated messages are visited last, and the generated ones at the
top first. -/
theorem visitedEnums_eq (m : Model) :
    m.visitedEnums =
      m.enums ++ (m.externalEnums ++ m.enumsBelow m.externalMessages) ++
        m.enumsBelow m.messages := by
  simp only [visitedEnums, visitedMessages_eq, enumsBelow, List.flatMap_append, List.append_assoc]

/-- What an index of enumerations that is built finds is told by what is visited. -/
theorem enumRef?_buildIndices (m : Model) (key : String) :
    m.buildIndices.enumRef? key =
      (indexBy (fun r => (m.enumeration r).id) m.visitedEnums).get? key := by
  have hlisting : SameListing m m.buildIndices := sameListing_buildIndices m
  have hindex := (indexed_buildIndices m).enums
  have hnames : indexBy (fun r => (m.buildIndices.enumeration r).id) m.visitedEnums =
      indexBy (fun r => (m.enumeration r).id) m.visitedEnums :=
    indexBy_congr fun r _ => hlisting.enumeration r
  rw [enumRef?, hindex, hlisting.visitedEnums, hnames]

namespace FiniteNesting

variable (h : FiniteNesting m)

include h

/-- Exactly the generated messages are visited below the generated roots. -/
theorem mem_visitsBelow_messages {r : MessageRef} : r ∈ m.visitsBelow m.messages ↔
    m.Generated r :=
  h.mem_flatMap_visitMessage (List.subset_append_left _ _)

/-- Exactly the enumerations nested in generated messages are visited below the generated roots. -/
theorem mem_enumsBelow_messages {r : EnumRef} :
    r ∈ m.enumsBelow m.messages ↔ m.NestedGeneratedEnum r := by
  simp only [enumsBelow, List.mem_flatMap, h.mem_visitsBelow_messages, NestedGeneratedEnum]

/-- The enumerations visited between the others are exactly the external ones. -/
theorem mem_externalEnums {r : EnumRef} :
    r ∈ m.externalEnums ++ m.enumsBelow m.externalMessages ↔ m.ExternalEnum r := by
  have hmessages : ∀ p, p ∈ m.visitsBelow m.externalMessages ↔ m.External p := fun p =>
    h.mem_flatMap_visitMessage (List.subset_append_right _ _)
  simp only [enumsBelow, List.mem_append, List.mem_flatMap, hmessages, ExternalEnum]

/-- A full name that a generated message has leads to a generated message. -/
theorem shadowsMessages : m.ShadowsMessages := by
  intro r hr
  obtain ⟨s, hs, hid, hfound⟩ := get?_indexBy_append_of_mem (fun r => (m.message r).id)
    (m.visitsBelow m.externalMessages) (h.mem_visitsBelow_messages.2 hr) rfl
  refine ⟨s, ?_, h.mem_visitsBelow_messages.1 hs, hid⟩
  rw [messageRef?_buildIndices, visitedMessages_eq, hfound]

/-- A full name that an enumeration nested in a generated message has leads to such a one. -/
theorem findsGeneratedEnum_of_nested {r : EnumRef} (hr : m.NestedGeneratedEnum r) :
    m.FindsGeneratedEnum (m.enumeration r).id := by
  obtain ⟨s, hs, hid, hfound⟩ := get?_indexBy_append_of_mem (fun r => (m.enumeration r).id)
    (m.enums ++ (m.externalEnums ++ m.enumsBelow m.externalMessages))
    (h.mem_enumsBelow_messages.2 hr) rfl
  refine ⟨s, ?_, .inr (h.mem_enumsBelow_messages.1 hs), hid⟩
  rw [enumRef?_buildIndices, visitedEnums_eq, hfound]

/-- Where no enumeration nested in a generated message has a full name, only those of the top and
the external ones count. -/
theorem enumRef?_of_not_nested
    (hnested : ∀ r, m.NestedGeneratedEnum r → (m.enumeration r).id ≠ key) :
    m.buildIndices.enumRef? key = (indexBy (fun r => (m.enumeration r).id)
      (m.enums ++ (m.externalEnums ++ m.enumsBelow m.externalMessages))).get? key := by
  rw [enumRef?_buildIndices, visitedEnums_eq]
  exact get?_indexBy_append_of_forall_ne fun s hs => hnested s (h.mem_enumsBelow_messages.1 hs)

/-- There, a full name that an external enumeration has leads to an external one. -/
theorem enumRef?_of_external
    (hnested : ∀ r, m.NestedGeneratedEnum r → (m.enumeration r).id ≠ key) {e : EnumRef}
    (he : m.ExternalEnum e) (hid : (m.enumeration e).id = key) :
    ∃ s, m.buildIndices.enumRef? key = some s ∧ m.ExternalEnum s := by
  obtain ⟨s, hs, -, hfound⟩ := get?_indexBy_append_of_mem (fun r => (m.enumeration r).id)
    m.enums (h.mem_externalEnums.2 he) hid
  refine ⟨s, ?_, h.mem_externalEnums.1 hs⟩
  rw [h.enumRef?_of_not_nested hnested, hfound]

/-- A full name that neither a nested nor an external enumeration has leads to a generated one of
the top that has it. -/
theorem findsGeneratedEnum_of_top
    (hnested : ∀ r, m.NestedGeneratedEnum r → (m.enumeration r).id ≠ key)
    (hexternal : ∀ e, m.ExternalEnum e → (m.enumeration e).id ≠ key) {r : EnumRef}
    (hr : r ∈ m.enums) (hid : (m.enumeration r).id = key) : m.FindsGeneratedEnum key := by
  have hfound : m.buildIndices.enumRef? key =
      (indexBy (fun r => (m.enumeration r).id) m.enums).get? key := by
    rw [h.enumRef?_of_not_nested hnested]
    exact get?_indexBy_append_of_forall_ne fun s hs => hexternal s (h.mem_externalEnums.1 hs)
  have hsome : ((indexBy (fun r => (m.enumeration r).id) m.enums).get? key).isSome :=
    isSome_get?_indexBy.2 ⟨r, hr, hid⟩
  obtain ⟨s, hs⟩ := Option.isSome_iff_exists.1 hsome
  have hgiven := of_get?_indexBy hs
  exact ⟨s, hfound.trans hs, .inl hgiven.1, hgiven.2⟩

end FiniteNesting

/-- In a forest no generated enumeration of the top is external too. -/
theorem Forest.not_externalEnum (h : Forest m) {r : EnumRef} (hr : r ∈ m.enums) :
    ¬m.ExternalEnum r := by
  have hlists := (List.nodup_append.1 h.enums).1
  rintro (hexternal | ⟨p, -, hp⟩)
  · exact (List.nodup_append.1 hlists).2.2 r hr r hexternal rfl
  · have hroot := h.rootEnums r (List.mem_append_left _ hr)
    rw [h.nestedEnums p r hp] at hroot
    cases hroot

/-- A full name that a generated message has leads to a generated message. A full name that a
generated enumeration has leads to a generated one if and only if one that is nested in a generated
message has it too, or no external one has it. Nesting may be any that is finite, as long as no
generated enumeration of the top is external too. -/
theorem shadowsMessages_and_findsGeneratedEnum_iff (h : FiniteNesting m)
    (hapart : ∀ r ∈ m.enums, ¬m.ExternalEnum r) :
    m.ShadowsMessages ∧ ∀ r, m.GeneratedEnum r →
      (m.FindsGeneratedEnum (m.enumeration r).id ↔
        (∃ s, m.NestedGeneratedEnum s ∧ (m.enumeration s).id = (m.enumeration r).id) ∨
          ∀ e, m.ExternalEnum e → (m.enumeration e).id ≠ (m.enumeration r).id) := by
  refine ⟨h.shadowsMessages, fun r hr => ?_⟩
  by_cases hnested : ∃ s, m.NestedGeneratedEnum s ∧ (m.enumeration s).id = (m.enumeration r).id
  · obtain ⟨s, hs, hid⟩ := hnested
    have hfinds := h.findsGeneratedEnum_of_nested hs
    rw [hid] at hfinds
    exact iff_of_true hfinds (.inl ⟨s, hs, hid⟩)
  · have hothers : ∀ s, m.NestedGeneratedEnum s →
        (m.enumeration s).id ≠ (m.enumeration r).id :=
      fun s hs hid => hnested ⟨s, hs, hid⟩
    constructor
    · -- an external one of the name would be found, which is not generated
      rintro ⟨s, hs, hgenerated, hname⟩
      refine .inr fun e he hid => ?_
      obtain ⟨t, ht, hexternal⟩ := h.enumRef?_of_external hothers he hid
      have hsame : s = t := Option.some.inj (hs.symm.trans ht)
      rcases hgenerated with htop | hbelow
      · exact hapart s htop (hsame ▸ hexternal)
      · exact hothers s hbelow hname
    · intro hcondition
      have hexternal := hcondition.resolve_left hnested
      have htop : r ∈ m.enums := hr.resolve_right fun hbelow => hothers r hbelow rfl
      exact h.findsGeneratedEnum_of_top hothers hexternal htop rfl

/-! ## Two enumerations of one full name -/

/-- A file with an enumeration and a message that holds a value of it, and a file of the same
package that declares an enumeration of the same name. -/
def rivalKinds : Descriptor.FileSet :=
  ⟨[{ name := some "old.proto"
      package := some "shop"
      enums := [{ name := some "Kind", values := [{ name := some "TOY", number := some 0 }] }] },
    { name := some "item.proto"
      package := some "shop"
      messages :=
        [.mk (some "Item") [{ name := some "kind", type := some 14, typeName := some ".shop.Kind" }]
          [] [] none []]
      enums :=
        [{ name := some "Kind", values := [{ name := some "BOOK", number := some 0 }] }] }]⟩

/-- The model of files is a forest with finite nesting. -/
theorem forest_of_descriptor {set : Descriptor.FileSet} {config : Option ServiceConfig}
    {included : List String} (h : set.model config included = .ok m) :
    Forest m ∧ FiniteNesting m := by
  have hparsed : Parsed m := .descriptor h
  obtain ⟨⟨before, hbuilt⟩, rank, hrank, -⟩ := hparsed.built
  exact ⟨hbuilt.toSound.forest hrank, hparsed.finiteNesting⟩

/-- The model of the rival kinds, of which the second file is to be generated, has finite nesting,
its generated enumeration is not external, and the name leads to it if and only if the external one
has another name. -/
theorem findsGeneratedEnum_iff_rivalKinds :
    ∃ m, rivalKinds.model none ["item.proto"] = .ok m ∧ FiniteNesting m ∧
      (∀ r ∈ m.enums, ¬m.ExternalEnum r) ∧ m.ShadowsMessages ∧ m.GeneratedEnum ⟨1⟩ ∧
      (m.FindsGeneratedEnum (m.enumeration ⟨1⟩).id ↔
        (∃ s, m.NestedGeneratedEnum s ∧ (m.enumeration s).id = (m.enumeration ⟨1⟩).id) ∨
          ∀ e, m.ExternalEnum e → (m.enumeration e).id ≠ (m.enumeration ⟨1⟩).id) := by
  have hread : (rivalKinds.model none ["item.proto"]).toOption.any
      (fun m => decide (⟨1⟩ ∈ m.enums)) = true := by decide +kernel
  obtain ⟨m, hm, htop⟩ := Attempt.exists_ok_of_any hread
  obtain ⟨hforest, hnesting⟩ := forest_of_descriptor hm
  have hapart : ∀ r ∈ m.enums, ¬m.ExternalEnum r := fun r => hforest.not_externalEnum
  have hgenerated : m.GeneratedEnum ⟨1⟩ := .inl (of_decide_eq_true htop)
  have hexact := shadowsMessages_and_findsGeneratedEnum_iff hnesting hapart
  exact ⟨m, hm, hnesting, hapart, hexact.1, hgenerated, hexact.2 _ hgenerated⟩

/-- In the model of the rival kinds, a forest with finite nesting, the full name of the enumeration
to generate leads to the external one. -/
theorem not_shadowsEnums_rivalKinds :
    ∃ m, rivalKinds.model none ["item.proto"] = .ok m ∧ FiniteNesting m ∧ Forest m ∧
      ¬m.ShadowsEnums := by
  have hread : (rivalKinds.model none ["item.proto"]).toOption.any (fun m => decide
      (⟨1⟩ ∈ m.enums ∧ ⟨0⟩ ∉ m.enums ∧ (m.enumeration ⟨0⟩).parent = none ∧
        m.buildIndices.enumRef? (m.enumeration ⟨1⟩).id = some ⟨0⟩)) = true := by
          decide +kernel
  obtain ⟨m, hm, hplaces⟩ := Attempt.exists_ok_of_any hread
  obtain ⟨htop, hother, hparent, hfound⟩ := of_decide_eq_true hplaces
  obtain ⟨hforest, hnesting⟩ := forest_of_descriptor hm
  refine ⟨m, hm, hnesting, hforest, fun hshadows => ?_⟩
  obtain ⟨s, hs, hgenerated, -⟩ := hshadows ⟨1⟩ (.inl htop)
  have hsame : s = ⟨0⟩ := Option.some.inj (hs.symm.trans hfound)
  subst hsame
  rcases hgenerated with htop | ⟨p, -, hnested⟩
  · exact hother htop
  · have howner := hforest.nestedEnums p ⟨0⟩ hnested
    rw [hparent] at howner
    cases howner

end ApiModel.Model
