import ApiModel.Proofs.Documentation.Members
import ApiModel.Proofs.First
import ApiModel.Proofs.Text.Occurrences

/-!
# Overrides of members

An override names an element by its full name, but the elements of a model are found in other ways:
messages, enumerations, services and methods by their indices, and a field or a value by what is
before and behind the last dot of its full name. So an override finds a field if its name has no
dot, no index has its full name, and it is the first of its name in its message; and then it
rewrites that very field. A value is found if moreover no message has the full name of its
enumeration. Rules, which compare full names, have no such exceptions.
-/

namespace ApiModel

namespace Model

variable {m a : Model} {id name text : String} {element other : Documented}

/-! ## Setting documentation -/

section Parts

variable {ref whole part : Type} (arena : Arena ref whole) (parts : whole → List part)
  {change : whole → whole} {edit : part → part} {p q : Nat} {r s : ref}

/-- Editing one part of an element leaves the parts at other positions and of other elements. -/
theorem getElem?_modify_part_of_ne (hchange : ∀ x, parts (change x) = (parts x).modify q edit)
    (h : s = r → q ≠ p) :
    (parts (arena.get (arena.modify m s change) r))[p]? = (parts (arena.get m r))[p]? := by
  by_cases hs : s = r
  · subst hs
    refine arena.get_modify_keeps (fun x => (parts x)[p]?) m s s ?_
    simp only [hchange, List.getElem?_modify, if_neg (h rfl), Option.map_eq_map, Option.map_id']
  · rw [arena.get_modify_of_ne m (Ne.symm hs)]

/-- A change of an element that edits one of its parts gives the edited part. -/
theorem getElem?_modify_part_self (hchange : ∀ x, parts (change x) = (parts x).modify p edit)
    (hblank : parts arena.blank = []) {y : part} (hy : y ∈ (parts (arena.get m r))[p]?) :
    (parts (arena.get (arena.modify m r change) r))[p]? = some (edit y) := by
  have hheld : arena.Holds m r := by
    by_contra hmissing
    rw [arena.get_of_not_holds hmissing, hblank] at hy
    cases hy
  rw [arena.get_modify_self hheld, hchange, List.getElem?_modify_eq, Option.mem_def.1 hy]
  rfl

end Parts

/-- The documentation of a field is that of the item at its position in its message. -/
theorem documentation_field (m : Model) (r : MessageRef) (p : Nat) :
    m.documentation (.field r p) = ((m.message r).fields[p]?.getD default).documentation := by
  rw [documentation, List.getD_eq_getElem?_getD]

/-- The documentation of a value is that of the item at its position in its enumeration. -/
theorem documentation_enumValue (m : Model) (r : EnumRef) (p : Nat) :
    m.documentation (.enumValue r p) =
      ((m.enumeration r).values[p]?.getD default).documentation := by
  rw [documentation, List.getD_eq_getElem?_getD]

/-- Setting the documentation of another element leaves that of a field. -/
theorem documentation_setDocumentation_field {r : MessageRef} {p : Nat} (h : other ≠ .field r p) :
    (m.setDocumentation text other).documentation (.field r p) = m.documentation (.field r p) := by
  rw [documentation_field, documentation_field]
  refine congrArg (fun f? : Option Field => (f?.getD default).documentation) ?_
  cases other with
  | message s => exact messageArena.get_modify_keeps (fun x : Message => x.fields[p]?) m s r rfl
  | oneOf s q => exact messageArena.get_modify_keeps (fun x : Message => x.fields[p]?) m s r rfl
  | field s q =>
    exact getElem?_modify_part_of_ne messageArena Message.fields (fun _ => rfl) fun hs hq =>
      h (by rw [hs, hq])
  | enumeration s => rfl
  | service s => rfl
  | method s => rfl
  | enumValue s q => rfl

/-- Setting the documentation of another element leaves that of a value. -/
theorem documentation_setDocumentation_enumValue {r : EnumRef} {p : Nat}
    (h : other ≠ .enumValue r p) :
    (m.setDocumentation text other).documentation (.enumValue r p) =
      m.documentation (.enumValue r p) := by
  rw [documentation_enumValue, documentation_enumValue]
  refine congrArg (fun v? : Option EnumValue => (v?.getD default).documentation) ?_
  cases other with
  | enumeration s =>
      exact enumArena.get_modify_keeps (fun x : Enumeration => x.values[p]?) m s r rfl
  | enumValue s q =>
    exact getElem?_modify_part_of_ne enumArena Enumeration.values (fun _ => rfl) fun hs hq =>
      h (by rw [hs, hq])
  | message s => rfl
  | service s => rfl
  | method s => rfl
  | field s q => rfl
  | oneOf s q => rfl

/-- The documentation that is set for a field is its documentation. -/
theorem documentation_setDocumentation_field_self {r : MessageRef} {p : Nat} {f : Field}
    (hf : f ∈ (m.message r).fields[p]?) :
    (m.setDocumentation text (.field r p)).documentation (.field r p) = text := by
  have hedit : ∀ x : Message,
      ({ x with fields := x.fields.modify p fun f =>
        { f with documentation := text } } : Message).fields =
        x.fields.modify p fun f => { f with documentation := text } := fun _ => rfl
  have hset : ((m.setDocumentation text (.field r p)).message r).fields[p]? =
      some { f with documentation := text } :=
    getElem?_modify_part_self messageArena Message.fields hedit rfl hf
  rw [documentation_field, hset, Option.getD_some]

/-- The documentation that is set for a value is its documentation. -/
theorem documentation_setDocumentation_enumValue_self {r : EnumRef} {p : Nat} {v : EnumValue}
    (hv : v ∈ (m.enumeration r).values[p]?) :
    (m.setDocumentation text (.enumValue r p)).documentation (.enumValue r p) = text := by
  have hedit : ∀ x : Enumeration,
      ({ x with values := x.values.modify p fun v => { v with documentation := text } } :
        Enumeration).values = x.values.modify p fun v => { v with documentation := text } :=
          fun _ => rfl
  have hset : ((m.setDocumentation text (.enumValue r p)).enumeration r).values[p]? =
      some { v with documentation := text } :=
    getElem?_modify_part_self enumArena Enumeration.values hedit rfl hv
  rw [documentation_enumValue, hset, Option.getD_some]

/-! ## One override -/

/-- Whether every override of a full name whose pattern occurs in the documentation of an element
succeeds, replaces the first occurrence there, and does nothing else. -/
def Overridable (m : Model) (id : String) (element : Documented) : Prop :=
  ∀ pattern replacement,
    (∃ before after, m.documentation element = before ++ pattern ++ after) →
    ∃ before after, Text.FirstOccurrence pattern (m.documentation element) before after ∧
      m.patchAll [⟨id, pattern, replacement⟩] =
        ⟨m.setDocumentation (before ++ replacement ++ after) element, none⟩

/-- Applying a list of one override is the step of that override. -/
theorem patchAll_singleton (m : Model) (item : DocumentationOverride) :
    m.patchAll [item] = Outcome.ofStep m (m.patch item) := by
  rw [patchAll, Outcome.forEach]
  cases m.patch item <;> rfl

/-- An override that succeeds found an element, and set its documentation. -/
theorem of_patch_eq_ok {item : DocumentationOverride} (h : m.patch item = .ok a) :
    ∃ element text, m.documentedById? item.id = some element ∧
    a = m.setDocumentation text element := by
  unfold patch at h
  split at h
  · cases h
  · rename_i element helement
    split at h
    · cases h
    · exact ⟨element, _, helement, (Except.ok.inj h).symm⟩

/-- Overrides of a full name are those of an element if and only if the full name finds it. -/
theorem overridable_iff
    (hself : ∀ text, (m.setDocumentation text element).documentation element = text)
    (hothers : ∀ other text, other ≠ element →
      (m.setDocumentation text other).documentation element = m.documentation element) :
    m.Overridable id element ↔ m.documentedById? id = some element := by
  constructor
  · intro h
    -- an override that puts something in front shows which element it is about
    obtain ⟨before, after, hfirst, hpatched⟩ :=
      h "" "-" ⟨"", m.documentation element, by simp⟩
    rw [patchAll_singleton] at hpatched
    cases hstep : m.patch ⟨id, "", "-"⟩ with
    | error e =>
      rw [hstep] at hpatched
      have herror := congrArg Outcome.error? hpatched
      cases herror
    | ok k =>
      obtain ⟨found, text, hfound, rfl⟩ := of_patch_eq_ok hstep
      rw [hstep] at hpatched
      have hsame := congrArg (fun o : Outcome => o.model.documentation element) hpatched
      change (m.setDocumentation text found).documentation element =
        (m.setDocumentation (before ++ "-" ++ after) element).documentation element at hsame
      rw [hself] at hsame
      by_cases helement : found = element
      · rw [← helement]
        exact hfound
      · rw [hothers found text helement, hfirst.split] at hsame
        have hlength := congrArg String.length hsame
        simp only [String.length_append] at hlength
        exact absurd hlength (by simp)
  · intro h pattern replacement hoccurs
    obtain ⟨before, after, hfirst, hreplaced⟩ := Text.exists_firstOccurrence replacement hoccurs
    refine ⟨before, after, hfirst, ?_⟩
    have hstep : m.patch ⟨id, pattern, replacement⟩ =
        .ok (m.setDocumentation (before ++ replacement ++ after) element) := by
      simp only [patch, h, hreplaced, String.ofList_toList]
    rw [patchAll_singleton, hstep]
    rfl

/-! ## Finding members -/

/-- Whether no index has a full name. -/
structure Unindexed (m : Model) (id : String) : Prop where
  /-- No message is found. -/
  messages : m.messageRef? id = none
  /-- No enumeration is found. -/
  enums : m.enumRef? id = none
  /-- No service is found. -/
  services : m.serviceRef? id = none
  /-- No method is found. -/
  methods : m.methodRef? id = none

/-- A full name finds a member only if no index has it. -/
theorem documentedById?_eq_some_member (hmessage : ∀ r, element ≠ .message r)
    (henum : ∀ r, element ≠ .enumeration r) (hservice : ∀ r, element ≠ .service r)
    (hmethod : ∀ r, element ≠ .method r) :
    m.documentedById? id = some element ↔ m.Unindexed id ∧ m.memberById? id = some element := by
  unfold documentedById?
  constructor
  · intro h
    cases hmessages : m.messageRef? id with
    | some r =>
      rw [hmessages] at h
      exact absurd (Option.some.inj h).symm (hmessage r)
    | none =>
    cases henums : m.enumRef? id with
    | some r =>
      rw [hmessages, henums] at h
      exact absurd (Option.some.inj h).symm (henum r)
    | none =>
    cases hservices : m.serviceRef? id with
    | some r =>
      rw [hmessages, henums, hservices] at h
      exact absurd (Option.some.inj h).symm (hservice r)
    | none =>
    cases hmethods : m.methodRef? id with
    | some r =>
      rw [hmessages, henums, hservices, hmethods] at h
      exact absurd (Option.some.inj h).symm (hmethod r)
    | none =>
      rw [hmessages, henums, hservices, hmethods] at h
      exact ⟨⟨hmessages, henums, hservices, hmethods⟩, h⟩
  · rintro ⟨⟨hmessages, henums, hservices, hmethods⟩, hmember⟩
    rw [hmessages, henums, hservices, hmethods, hmember]
    rfl

/-- The full name of a member is made of its owner's, a dot, and its name. -/
theorem toList_member (owner name : String) :
    (owner ++ "." ++ name).toList = owner.toList ++ '.' :: name.toList := by
  simp [String.toList_append]

/-- The full name of a member is split before its name exactly if the name has no dot. -/
theorem splitLast?_member {owner name : String} {before after : List Char}
    (h : Text.splitLast? '.' (owner ++ "." ++ name).toList = some (before, after))
    (howner : String.ofList before = owner) : after = name.toList ∧ '.' ∉ name.toList := by
  obtain ⟨hsplit, hafter⟩ := Text.splitLast?_eq_some.1 h
  rw [toList_member, ← howner, String.toList_ofList] at hsplit
  have hname := (List.cons.inj (List.append_cancel_left hsplit)).2
  exact ⟨hname.symm, hname ▸ hafter⟩

section Lookup

variable (h : Indexed m)

include h

/-- A field is found below its message if its name has no dot, and it is the first of its name. -/
theorem memberById?_eq_field {r : MessageRef} {p : Nat} (hr : r ∈ m.indexedMessages) :
    m.memberById? ((m.message r).id ++ "." ++ name) = some (.field r p) ↔
      '.' ∉ name.toList ∧ FirstAt (fun f => f.name = name) (m.message r).fields p := by
  have hfirst : (m.message r).fields.findIdx? (fun f => f.name == name) = some p ↔
      FirstAt (fun f => f.name = name) (m.message r).fields p :=
    findIdx?_eq_some_iff_firstAt fun _ => beq_iff_eq
  rw [← hfirst, memberById?]
  constructor
  · intro hfound
    split at hfound
    · cases hfound
    · rename_i before after hsplit
      split at hfound
      · rename_i s hs
        unfold memberOf? at hfound
        split at hfound
        · rename_i position hposition
          obtain ⟨rfl, rfl⟩ := Documented.field.inj (Option.some.inj hfound)
          obtain ⟨hname, hdot⟩ := splitLast?_member hsplit (h.of_messageRef? hs).2.symm
          rw [hname, String.ofList_toList] at hposition
          exact ⟨hdot, hposition⟩
        · obtain ⟨position, -, hother⟩ := Option.map_eq_some_iff.1 hfound
          cases hother
      · obtain ⟨s, -, hvalue⟩ := Option.bind_eq_some_iff.1 hfound
        obtain ⟨position, -, hother⟩ := Option.map_eq_some_iff.1 hvalue
        cases hother
  · rintro ⟨hdot, hposition⟩
    rw [Text.splitLast?_eq_some.2 ⟨toList_member _ _, hdot⟩]
    simp only [String.ofList_toList, h.mem_indexedMessages.1 hr, memberOf?, hposition]

/-- A value is found below its enumeration if its name has no dot, no message has the full name of
the enumeration, and it is the first of its name. -/
theorem memberById?_eq_enumValue {r : EnumRef} {p : Nat} (hr : r ∈ m.indexedEnums) :
    m.memberById? ((m.enumeration r).id ++ "." ++ name) = some (.enumValue r p) ↔
      '.' ∉ name.toList ∧ m.messageRef? (m.enumeration r).id = none ∧
        FirstAt (fun v => v.name = name) (m.enumeration r).values p := by
  have hfirst : (m.enumeration r).values.findIdx? (fun v => v.name == name) = some p ↔
      FirstAt (fun v => v.name = name) (m.enumeration r).values p :=
    findIdx?_eq_some_iff_firstAt fun _ => beq_iff_eq
  rw [← hfirst, memberById?]
  constructor
  · intro hfound
    split at hfound
    · cases hfound
    · rename_i before after hsplit
      split at hfound
      · unfold memberOf? at hfound
        split at hfound
        · cases hfound
        · obtain ⟨position, -, hother⟩ := Option.map_eq_some_iff.1 hfound
          cases hother
      · rename_i hnone
        obtain ⟨s, hs, hvalue⟩ := Option.bind_eq_some_iff.1 hfound
        obtain ⟨position, hposition, heq⟩ := Option.map_eq_some_iff.1 hvalue
        obtain ⟨rfl, rfl⟩ := Documented.enumValue.inj heq
        have howner := (h.of_enumRef? hs).2
        obtain ⟨hname, hdot⟩ := splitLast?_member hsplit howner.symm
        rw [hname, String.ofList_toList] at hposition
        rw [← howner] at hnone
        exact ⟨hdot, hnone, hposition⟩
  · rintro ⟨hdot, hnone, hposition⟩
    rw [Text.splitLast?_eq_some.2 ⟨toList_member _ _, hdot⟩]
    simp only [String.ofList_toList, hnone, h.mem_indexedEnums.1 hr, Option.bind_some,
      valueOf?, hposition, Option.map_some]

end Lookup

/-! ## Models that were read -/

/-- In a model that was read and assembled, overrides of the full name of a field are those of the
field if and only if no index has the full name, the name has no dot, and the field is the first of
its name in its message. The same holds for a value, if moreover no message has the full name of its
enumeration. -/
theorem overridable_crossReference_iff (hread : Parsed m)
    (hassembled : m.crossReference.result = .ok a) :
    (∀ r ∈ a.indexedMessages, ∀ p, ∀ f ∈ (a.message r).fields[p]?,
      a.Overridable f.id (.field r p) ↔
        a.Unindexed f.id ∧ '.' ∉ f.name.toList ∧
          FirstAt (fun g => g.name = f.name) (a.message r).fields p) ∧
    ∀ r ∈ a.indexedEnums, ∀ p, ∀ v ∈ (a.enumeration r).values[p]?,
      a.Overridable v.id (.enumValue r p) ↔
        a.Unindexed v.id ∧ '.' ∉ v.name.toList ∧ a.messageRef? (a.enumeration r).id = none ∧
          FirstAt (fun w => w.name = v.name) (a.enumeration r).values p := by
  obtain ⟨herror, rfl⟩ := Outcome.result_eq_ok.1 hassembled
  have hindexed : Indexed m.crossReference.model :=
    (settled_crossReference herror).indices ▸ indexed_buildIndices m.crossReference.model
  refine ⟨fun r hr p f hf => ?_, fun r hr p v hv => ?_⟩
  · have hid := hread.namesMembers.message_crossReference r f (List.mem_of_getElem? hf)
    rw [overridable_iff (fun text => documentation_setDocumentation_field_self hf)
      (fun other text => documentation_setDocumentation_field),
      documentedById?_eq_some_member (by simp) (by simp) (by simp) (by simp)]
    refine and_congr_right fun _ => ?_
    rw [hid]
    exact memberById?_eq_field hindexed hr
  · have hid := hread.namesMembers.enumeration_crossReference r v (List.mem_of_getElem? hv)
    rw [overridable_iff (fun text => documentation_setDocumentation_enumValue_self hv)
      (fun other text => documentation_setDocumentation_enumValue),
      documentedById?_eq_some_member (by simp) (by simp) (by simp) (by simp)]
    refine and_congr_right fun _ => ?_
    rw [hid]
    exact memberById?_eq_enumValue hindexed hr

/-- A document with one schema, of whose two properties one has a dot in its name. -/
def labels : Discovery.Document :=
  { name := "library"
    schemas := [
      ("Shelf",
        { Discovery.Schema.blank with
          kind := "object"
          properties := [
            ("label",
              { Discovery.Schema.blank with kind := "string", description := "The colour." }),
            ("label.color",
              { Discovery.Schema.blank with kind := "string", description := "The colour." })] })] }

/-- In the model of the labels, the property without a dot in its name can be overridden by its full
name. -/
theorem overridable_crossReference_iff_labels :
    ∃ m a, Parsed m ∧ m.crossReference.result = .ok a ∧ ⟨0⟩ ∈ a.indexedMessages ∧
      a.Overridable ".Shelf.label" (.field ⟨0⟩ 0) := by
  have hread :
    (labels.model none).toOption.any (fun m => m.crossReference.result.toOption.any fun a =>
      decide (⟨0⟩ ∈ a.indexedMessages ∧
        (a.message ⟨0⟩).fields.head?.map Field.naming = some (".Shelf.label", "label") ∧
        a.messageRef? ".Shelf.label" = none ∧ a.enumRef? ".Shelf.label" = none ∧
        a.serviceRef? ".Shelf.label" = none ∧ a.methodRef? ".Shelf.label" = none)) = true := by
    decide +kernel
  obtain ⟨m, hm, hread⟩ := Attempt.exists_ok_of_any hread
  obtain ⟨a, ha, hread⟩ := Attempt.exists_ok_of_any hread
  obtain ⟨hr, hnaming, hmessages, henums, hservices, hmethods⟩ := of_decide_eq_true hread
  obtain ⟨f, hf, hnaming⟩ := Option.map_eq_some_iff.1 hnaming
  obtain ⟨hid, hname⟩ := Prod.mk.inj hnaming
  have hplace : (a.message ⟨0⟩).fields[0]? = some f := List.head?_eq_getElem?.symm.trans hf
  have hparsed : Parsed m := .discovery hm
  refine ⟨m, a, hparsed, ha, hr, ?_⟩
  rw [← hid]
  refine ((overridable_crossReference_iff hparsed ha).1 ⟨0⟩ hr 0 f hplace).2 ⟨?_, ?_, ?_⟩
  · rw [hid]
    exact ⟨hmessages, henums, hservices, hmethods⟩
  · rw [hname]
    decide
  · exact ⟨⟨f, hplace, rfl⟩, fun j hj => absurd hj (Nat.not_lt_zero j)⟩

/-- Overrides do not find the property with the dot, though the pattern occurs in its
documentation. -/
theorem not_overridable_labels :
    ∃ m a, Parsed m ∧ m.crossReference.result = .ok a ∧ ⟨0⟩ ∈ a.indexedMessages ∧
      (∃ f ∈ (a.message ⟨0⟩).fields[1]?, f.id = ".Shelf.label.color" ∧
        f.documentation = "The colour.") ∧
      (a.patchAll [⟨".Shelf.label.color", "colour", "color"⟩]).error? =
        some (.documentationOverride ".Shelf.label.color" "no element has this ID") ∧
      ¬a.Overridable ".Shelf.label.color" (.field ⟨0⟩ 1) := by
  have hread :
    (labels.model none).toOption.any (fun m => m.crossReference.result.toOption.any fun a =>
      decide (⟨0⟩ ∈ a.indexedMessages ∧
        (a.message ⟨0⟩).fields[1]?.map (fun f => (f.id, f.documentation)) =
          some (".Shelf.label.color", "The colour.") ∧
        a.documentation (.field ⟨0⟩ 1) = "The colour." ∧
        (a.patchAll [⟨".Shelf.label.color", "colour", "color"⟩]).error? =
          some (.documentationOverride ".Shelf.label.color" "no element has this ID"))) = true := by
    decide +kernel
  obtain ⟨m, hm, hread⟩ := Attempt.exists_ok_of_any hread
  obtain ⟨a, ha, hread⟩ := Attempt.exists_ok_of_any hread
  obtain ⟨hr, hfield, htext, herror⟩ := of_decide_eq_true hread
  obtain ⟨f, hf, hfacts⟩ := Option.map_eq_some_iff.1 hfield
  obtain ⟨hid, hdocumented⟩ := Prod.mk.inj hfacts
  refine ⟨m, a, .discovery hm, ha, hr, ⟨f, hf, hid, hdocumented⟩, herror, fun h => ?_⟩
  obtain ⟨before, after, -, hpatched⟩ := h "colour" "color" ⟨"The ", ".", htext⟩
  rw [hpatched] at herror
  cases herror

end Model

end ApiModel
