import ApiModel.Proofs.Attempt
import ApiModel.Proofs.Discovery.Walk
import Mathlib.Logic.Relation

/-!
# What the check of a document covers

The check of a schema goes on to its properties and its items, and to its additional properties if
it is an object. It accepts a document if and only if all the schemas that it comes to have a shape
and no reference that the document has no schema for. So of the references in an accepted document
only those below the additional properties of something else than an object may lead nowhere.
-/

namespace ApiModel.Discovery

open Relation

/-- Whether a schema stands directly in another. -/
inductive Inside : Schema → Schema → Prop
  /-- It is a property. -/
  | property {s inner : Schema} {name : String}
      (h : (name, inner) ∈ s.properties) : Inside inner s
  /-- It is that of the items. -/
  | items {s inner : Schema} (h : s.items = some inner) : Inside inner s
  /-- It is that of the additional properties. -/
  | values {s inner : Schema} (h : s.additionalProperties = some inner) : Inside inner s

/-- Whether the check of a schema goes on to one in it. -/
inductive GoesOn : Schema → Schema → Prop
  /-- It goes on to every property. -/
  | property {s inner : Schema} {name : String}
      (h : (name, inner) ∈ s.properties) : GoesOn inner s
  /-- It goes on to the items. -/
  | items {s inner : Schema} (h : s.items = some inner) : GoesOn inner s
  /-- It goes on to the additional properties of an object. -/
  | values {s inner : Schema} (hkind : s.kind = "object")
      (h : s.additionalProperties = some inner) :
    GoesOn inner s

/-- Whether a schema is one of the document's or the request or response of a method at any
depth. -/
inductive Document.Starts (d : Document) : Schema → Prop
  /-- It is one of the document's. -/
  | schema {name : String} {s : Schema} (h : (name, s) ∈ d.schemas) : Starts d s
  /-- It is the request of a method. -/
  | request {entry : String × Method} {s : Schema} (h : d.Offers entry)
      (hs : entry.2.request = some s) :
    Starts d s
  /-- It is the response of a method. -/
  | response {entry : String × Method} {s : Schema} (h : d.Offers entry)
      (hs : entry.2.response = some s) :
    Starts d s

/-- Whether a schema stands anywhere in a document. -/
def Document.Mentions (d : Document) (s : Schema) : Prop :=
  ∃ start, d.Starts start ∧ ReflTransGen Inside s start

/-- Whether the check of a document comes to a schema. -/
def Document.Covers (d : Document) (s : Schema) : Prop :=
  ∃ start, d.Starts start ∧ ReflTransGen GoesOn s start

/-- Whether a document has a schema for the reference of a schema, if there is one. -/
def Document.Resolves (d : Document) (s : Schema) : Prop :=
  s.reference ≠ "" → s.reference ∈ d.schemas.map Prod.fst

/-- Whether a schema has one shape, wherever it stands. -/
def Schema.Shaped (s : Schema) : Prop :=
  ∃ shape, ∀ id, s.shape id = .ok shape

/-! ## One schema -/

/-- Which members a schema of a shape has. -/
structure Shape.Fits (shape : Shape) (s : Schema) : Prop where
  /-- Only references have a reference. -/
  reference : shape = .reference ↔ s.reference ≠ ""
  /-- Only arrays have items. -/
  items : shape = .array ∨ s.items = none
  /-- Only maps are objects with additional properties. -/
  values : shape = .map ↔ s.kind = "object" ∧ s.additionalProperties.isSome

/-- A schema has the members of its shape. -/
theorem fits_of_shape {s : Schema} {id : String} {shape : Shape} (h : s.shape id = .ok shape) :
    shape.Fits s := by
  unfold Schema.shape at h
  split_ifs at h
  all_goals cases h
  all_goals constructor <;> simp_all

/-- The shape of a schema does not depend on where it stands. -/
theorem shape_eq_ok_iff {s : Schema} {id other : String} {shape : Shape} :
    s.shape id = .ok shape ↔ s.shape other = .ok shape := by
  unfold Schema.shape
  split_ifs <;> simp

section Check

variable {known : String → Bool} {id : String}

/-- Whether a schema has a shape and its reference, if there is one, is known. -/
structure Schema.Accepted (known : String → Bool) (s : Schema) : Prop where
  /-- It has a shape. -/
  shaped : s.Shaped
  /-- Its reference is known. -/
  reference : s.reference ≠ "" → known s.reference

/-- Properties are accepted if and only if each is. -/
theorem checkProperties_eq_ok_iff {properties : List (String × Schema)} :
    Schema.checkProperties known id properties = .ok () ↔
      ∀ property ∈ properties, property.2.check known (id ++ "." ++ property.1) = .ok () := by
  induction properties with
  | nil => exact iff_of_true rfl fun property hproperty => absurd hproperty List.not_mem_nil
  | cons first rest ih =>
    rw [Schema.checkProperties, List.forall_mem_cons, ← ih]
    exact Attempt.check_then_eq_ok

/-- A schema inside another is accepted if and only if it is, if there is one. -/
theorem checkInner_eq_ok_iff {inner : Option Schema} :
    Schema.checkInner known id inner = .ok () ↔ ∀ s, inner = some s →
    s.check known id = .ok () := by
  cases inner with
  | none => simp [Schema.checkInner]
  | some s => simp [Schema.checkInner]

/-- A schema is checked by its own members, then by what the check goes on to. -/
theorem check_eq_ok_iff_parts {s : Schema} :
    s.check known id = .ok () ↔ s.Accepted known ∧
      (∀ property ∈ s.properties, property.2.check known (id ++ "." ++ property.1) = .ok ()) ∧
      (∀ inner, s.items = some inner → inner.check known (id ++ "[]") = .ok ()) ∧
      (s.kind = "object" → ∀ inner, s.additionalProperties = some inner →
        inner.check known (id ++ "\x7b\x7d") = .ok ()) := by
  obtain ⟨kind, format, description, reference, properties, items, additionalProperties,
    deprecated⟩ := s
  rw [Schema.check]
  dsimp only
  rw [← checkProperties_eq_ok_iff, ← checkInner_eq_ok_iff, ← checkInner_eq_ok_iff]
  cases hshape : Schema.shape ⟨kind, format, description, reference, properties, items,
      additionalProperties, deprecated⟩ id with
  | error e =>
    refine iff_of_false (fun h => by cases h) ?_
    rintro ⟨⟨⟨shape, hshaped⟩, -⟩, -⟩
    rw [hshaped] at hshape
    cases hshape
  | ok shape =>
    have hshaped : Schema.Shaped ⟨kind, format, description, reference, properties, items,
        additionalProperties, deprecated⟩ := ⟨shape, fun _ => shape_eq_ok_iff.1 hshape⟩
    obtain ⟨hreference, hitems, hvalues⟩ := fits_of_shape hshape
    -- each of the three members that the check looks at counts for one shape only
    have haccepted :
      Schema.Accepted known ⟨kind, format, description, reference, properties, items,
        additionalProperties, deprecated⟩ ↔ (shape = .reference → known reference) :=
      ⟨fun h hshape => h.reference (hreference.1 hshape),
        fun h => ⟨hshaped, fun href => h (hreference.2 href)⟩⟩
    have hinner : Schema.checkInner known (id ++ "[]") items = .ok () ↔
        (shape = .array → Schema.checkInner known (id ++ "[]") items = .ok ()) := by
      refine ⟨fun h _ => h, fun h => hitems.elim h ?_⟩
      rintro rfl
      rfl
    have hadditional : (kind = "object" →
        Schema.checkInner known (id ++ "\x7b\x7d") additionalProperties = .ok ()) ↔
          (shape = .map → Schema.checkInner known (id ++ "\x7b\x7d") additionalProperties =
            .ok ()) := by
      refine ⟨fun h hmap => h (hvalues.1 hmap).1, fun h hkind => ?_⟩
      cases additionalProperties with
      | none => rfl
      | some values => exact h (hvalues.2 ⟨hkind, rfl⟩)
    rw [haccepted, hinner, hadditional, Attempt.bind_eq_ok]
    simp only [Except.ok.injEq, exists_eq_left']
    cases shape with
    | reference =>
      cases hknown : known reference with
      | false => exact iff_of_false (fun h => by cases h) fun h => Bool.noConfusion (h.1 rfl)
      | true => simp
    | array => simp [Attempt.check_then_eq_ok, and_comm]
    | map => simp [Attempt.check_then_eq_ok, and_comm]
    | simple => simp
    | struct => simp
    | anyStruct => simp

/-- What the check goes on to stands in the schema. -/
theorem GoesOn.inside {s inner : Schema} (h : GoesOn inner s) : Inside inner s := by
  cases h with
  | property h => exact .property h
  | items h => exact .items h
  | values _ h => exact .values h

/-- A schema inside another is smaller. -/
theorem Inside.sizeOf_lt {s inner : Schema} (h : Inside inner s) : sizeOf inner < sizeOf s := by
  obtain ⟨kind, format, description, reference, properties, items, additionalProperties,
    deprecated⟩ := s
  cases h with
  | property h =>
    have hlt := List.sizeOf_lt_of_mem h
    simp only [Prod.mk.sizeOf_spec, Schema.mk.sizeOf_spec] at hlt ⊢
    omega
  | items h =>
    obtain rfl : items = some inner := h
    simp only [Option.some.sizeOf_spec, Schema.mk.sizeOf_spec]
    omega
  | values h =>
    obtain rfl : additionalProperties = some inner := h
    simp only [Option.some.sizeOf_spec, Schema.mk.sizeOf_spec]
    omega

/-- A schema is checked if and only if everything that the check comes to from it is accepted. -/
theorem check_eq_ok_iff (s : Schema) (id : String) :
    s.check known id = .ok () ↔ ∀ t, ReflTransGen GoesOn t s → t.Accepted known := by
  have hstep : ∀ inner, GoesOn inner s → ∀ place, inner.check known place = .ok () ↔
      ∀ t, ReflTransGen GoesOn t inner → t.Accepted known :=
    fun inner hinner place => check_eq_ok_iff inner place
  rw [check_eq_ok_iff_parts]
  constructor
  · rintro ⟨hself, hproperties, hitems, hvalues⟩ t ht
    rcases ReflTransGen.cases_tail ht with rfl | ⟨inner, hbelow, hinner⟩
    · exact hself
    · have haccepted := fun place hchecked => (hstep inner hinner place).1 hchecked t hbelow
      cases hinner with
      | property h => exact haccepted _ (hproperties _ h)
      | items h => exact haccepted _ (hitems inner h)
      | values hkind h => exact haccepted _ (hvalues hkind inner h)
  · intro h
    have hinner : ∀ inner, GoesOn inner s → ∀ place, inner.check known place = .ok () :=
      fun inner hinner place => (hstep inner hinner place).2 fun t ht => h t (ht.tail hinner)
    exact ⟨h s .refl, fun property hproperty => hinner _ (.property hproperty) _,
      fun inner hitems => hinner _ (.items hitems) _,
      fun hkind inner hvalues => hinner _ (.values hkind hvalues) _⟩
termination_by sizeOf s
decreasing_by exact hinner.inside.sizeOf_lt

/-! ## The document -/

/-- Schemas are checked if and only if each is. -/
theorem checkSchemas_eq_ok_iff {schemas : List (String × Schema)} :
    checkSchemas known schemas = .ok () ↔ ∀ entry ∈ schemas, entry.2.check known entry.1 =
      .ok () := by
  induction schemas with
  | nil => exact iff_of_true rfl fun entry hentry => absurd hentry List.not_mem_nil
  | cons first rest ih =>
    rw [checkSchemas, List.forall_mem_cons, ← ih]
    exact Attempt.check_then_eq_ok

/-- Methods are checked if and only if each is. -/
theorem checkMethods_eq_ok_iff {methods : List (String × Method)} :
    checkMethods known methods = .ok () ↔ ∀ entry ∈ methods, entry.2.check known entry.1 =
      .ok () := by
  induction methods with
  | nil => exact iff_of_true rfl fun entry hentry => absurd hentry List.not_mem_nil
  | cons first rest ih =>
    rw [checkMethods, List.forall_mem_cons, ← ih]
    exact Attempt.check_then_eq_ok

/-- A method is checked if and only if its request and its response are. -/
theorem methodCheck_eq_ok_iff {name : String} {x : Method} :
    x.check known name = .ok () ↔ ∀ s, x.request = some s ∨ x.response = some s →
      ∀ t, ReflTransGen GoesOn t s → t.Accepted known := by
  rw [Method.check, Attempt.check_then_eq_ok, checkInner_eq_ok_iff, checkInner_eq_ok_iff]
  simp only [check_eq_ok_iff, or_imp, forall_and]

/-- Resources are checked if and only if the methods of all that lie among them are. -/
theorem checkAll_eq_ok_iff (resources : List (String × Resource)) :
    Resource.checkAll known resources = .ok () ↔
      ∀ path resource, LiesAt resources path resource →
      checkMethods known resource.methods = .ok () := by
  match resources with
  | [] => exact iff_of_true rfl fun _ _ h => absurd h not_liesAt_nil
  | (name, ⟨methods, inner⟩) :: rest =>
    rw [Resource.checkAll, Attempt.check_then_eq_ok, Resource.check, Attempt.check_then_eq_ok,
      checkAll_eq_ok_iff inner, checkAll_eq_ok_iff rest]
    constructor
    · rintro ⟨⟨hmethods, hinner⟩, hrest⟩ path resource h
      rcases liesAt_cons.1 h with ⟨-, rfl⟩ | ⟨below, -, h⟩ | h
      · exact hmethods
      · exact hinner below resource h
      · exact hrest path resource h
    · intro h
      have hinner : ∀ below resource, LiesAt inner below resource →
          checkMethods known resource.methods = .ok () := fun below resource hlies =>
        h (name :: below) resource (liesAt_cons.2 (.inr (.inl ⟨below, rfl, hlies⟩)))
      exact ⟨⟨h [name] _ (liesAt_cons.2 (.inl ⟨rfl, rfl⟩)), hinner⟩,
        fun path resource hlies => h path resource (liesAt_cons.2 (.inr (.inr hlies)))⟩

end Check

/-- A document has a schema of a name if and only if the name is one of its keys. -/
theorem Document.knows_iff {d : Document} {name : String} :
    d.knows name ↔ name ∈ d.schemas.map Prod.fst := by
  simp [Document.knows]

/-- A document is accepted if and only if everything that the check comes to from where it starts
is. -/
theorem Document.check_eq_ok_iff_starts {d : Document} :
    d.check = .ok () ↔
      ∀ start, d.Starts start → ∀ t, ReflTransGen GoesOn t start → t.Accepted d.knows := by
  rw [Document.check, Attempt.check_then_eq_ok, Attempt.check_then_eq_ok, checkSchemas_eq_ok_iff,
    checkMethods_eq_ok_iff, checkAll_eq_ok_iff]
  simp only [check_eq_ok_iff, checkMethods_eq_ok_iff, methodCheck_eq_ok_iff]
  constructor
  · rintro ⟨hschemas, hmethods, hresources⟩
    have hoffers : ∀ entry, d.Offers entry → ∀ s, entry.2.request = some s ∨
      entry.2.response = some s →
        ∀ t, ReflTransGen GoesOn t s → t.Accepted d.knows := by
      rintro entry (hentry | ⟨path, resource, hlies, hentry⟩)
      · exact hmethods entry hentry
      · exact hresources path resource hlies entry hentry
    intro start hstart
    cases hstart with
    | schema h => exact hschemas _ h
    | request h hs => exact hoffers _ h start (.inl hs)
    | response h hs => exact hoffers _ h start (.inr hs)
  · intro h
    have hoffers : ∀ entry, d.Offers entry → ∀ s, entry.2.request = some s ∨
      entry.2.response = some s →
        ∀ t, ReflTransGen GoesOn t s → t.Accepted d.knows := by
      rintro entry hentry s (hs | hs)
      · exact h s (.request hentry hs)
      · exact h s (.response hentry hs)
    exact ⟨fun entry hentry => h entry.2 (.schema hentry),
      fun entry hentry => hoffers entry (.inl hentry), fun path resource hlies entry hentry =>
      hoffers entry (.inr ⟨path, resource, hlies, hentry⟩)⟩

/-- A document is accepted if and only if everything that the check comes to has a shape and its
reference, if there is one, is resolved. -/
theorem Document.check_eq_ok_iff {d : Document} :
    d.check = .ok () ↔ ∀ t, d.Covers t → t.Shaped ∧ d.Resolves t := by
  have haccepted : ∀ t : Schema, t.Accepted d.knows ↔ t.Shaped ∧ d.Resolves t := fun t =>
    ⟨fun h => ⟨h.shaped, fun href => d.knows_iff.1 (h.reference href)⟩,
      fun h => ⟨h.1, fun href => d.knows_iff.2 (h.2 href)⟩⟩
  rw [Document.check_eq_ok_iff_starts]
  simp only [haccepted]
  exact ⟨fun h t ⟨start, hstart, hbelow⟩ => h start hstart t hbelow,
    fun h start hstart t hbelow => h t ⟨start, hstart, hbelow⟩⟩

/-- What the check goes on to from something covered is covered. -/
theorem Document.Covers.step {d : Document} {s inner : Schema} (h : d.Covers s)
    (hinner : GoesOn inner s) :
    d.Covers inner := by
  obtain ⟨start, hstart, hbelow⟩ := h
  exact ⟨start, hstart, .head hinner hbelow⟩

/-- What is covered stands in the document, and so does all that stands in it. -/
theorem Document.Covers.mentions {d : Document} {s t : Schema} (h : d.Covers s)
    (ht : ReflTransGen Inside t s) : d.Mentions t := by
  obtain ⟨start, hstart, hbelow⟩ := h
  exact ⟨start, hstart, ht.trans (ReflTransGen.mono (fun _ _ => GoesOn.inside) _ _ hbelow)⟩

/-- What stands in a document is covered, or stands in the additional properties of something
covered that is no object. -/
theorem Document.Mentions.covered_or {d : Document} {t : Schema} (h : d.Mentions t) :
    d.Covers t ∨ ∃ s values, d.Covers s ∧ s.kind ≠ "object" ∧
      s.additionalProperties = some values ∧
      ReflTransGen Inside t values := by
  obtain ⟨start, hstart, hbelow⟩ := h
  -- going down from the start, the first step that the check does not take is one to additional
  -- properties
  induction hbelow using ReflTransGen.head_induction_on with
  | refl => exact .inl ⟨start, hstart, .refl⟩
  | @head inner s hinside _ ih =>
    rcases ih with hcovers | ⟨outer, values, hcovers, hkind, hvalues, hbelow⟩
    · cases hinside with
      | property h => exact .inl (hcovers.step (.property h))
      | items h => exact .inl (hcovers.step (.items h))
      | values h =>
        by_cases hkind : s.kind = "object"
        · exact .inl (hcovers.step (.values hkind h))
        · exact .inr ⟨s, inner, hcovers, hkind, h, .refl⟩
    · exact .inr ⟨outer, values, hcovers, hkind, hvalues, .head hinside hbelow⟩

/-- In an accepted document every reference that the check comes to is resolved, and all references
are if and only if those in the additional properties of schemas that the check comes to are, where
these are no objects. -/
theorem Document.resolves_of_check_iff {d : Document} (h : d.check = .ok ()) :
    (∀ t, d.Covers t → d.Resolves t) ∧
      ((∀ t, d.Mentions t → d.Resolves t) ↔
        ∀ s values, d.Covers s → s.kind ≠ "object" →
          s.additionalProperties = some values →
          ∀ t, ReflTransGen Inside t values → d.Resolves t) := by
  have hcovered : ∀ t, d.Covers t → d.Resolves t := fun t ht => (d.check_eq_ok_iff.1 h t ht).2
  refine ⟨hcovered, fun hall s values hs _ hvalues t ht => ?_, fun hvalues t ht => ?_⟩
  · exact hall t (hs.mentions (ht.tail (.values hvalues)))
  · rcases ht.covered_or with hcovers | ⟨s, values, hs, hkind, hinner, hbelow⟩
    · exact hcovered t hcovers
    · exact hvalues s values hs hkind hinner t hbelow

/-! ## A reference that leads nowhere -/

/-- A document with one schema that has a text property with additional properties. -/
def labelledShelf : Json.Value :=
  .object [(some "name", .text "library"),
    (some "schemas", .object [(some "Shelf", .object
      [(some "type", .text "object"),
        (some "properties", .object [(some "label", .object
          [(some "type", .text "string"),
            (some "additionalProperties", .object [(some "$ref", .text "Missing")])])])])])]

/-- The check accepts the labelled shelf, and all that it comes to there is resolved. -/
theorem resolves_of_check_iff_labelledShelf :
    ∃ d, Document.read Json.maxLevels labelledShelf = some d ∧ d.check = .ok () ∧
      (∀ t, d.Covers t → d.Resolves t) ∧
        ((∀ t, d.Mentions t → d.Resolves t) ↔
          ∀ s values, d.Covers s → s.kind ≠ "object" →
            s.additionalProperties = some values →
            ∀ t, ReflTransGen Inside t values → d.Resolves t) := by
  have hread :
    ((Document.read Json.maxLevels labelledShelf).any fun d => decide (d.check = .ok ())) =
      true := by decide +kernel
  obtain ⟨d, hread, hchecked⟩ := (Option.any_eq_true _ _).1 hread
  have hcheck : d.check = .ok () := of_decide_eq_true hchecked
  exact ⟨d, hread, hcheck, d.resolves_of_check_iff hcheck⟩

/-- The check accepts the labelled shelf although it mentions a schema that the document does not
have. -/
theorem not_resolves_labelledShelf :
    ∃ d, Document.read Json.maxLevels labelledShelf = some d ∧ d.check = .ok () ∧
      ¬∀ t, d.Mentions t → d.Resolves t := by
  have hread : ((Document.read Json.maxLevels labelledShelf).any fun d =>
      decide (d.check = .ok ()) && d.schemas.any fun entry => entry.2.properties.any fun property =>
        property.2.additionalProperties.any fun values =>
          decide (values.reference ≠ "" ∧ values.reference ∉ d.schemas.map Prod.fst)) =
            true := by
    decide +kernel
  obtain ⟨d, hread, hplaces⟩ := (Option.any_eq_true _ _).1 hread
  simp only [Bool.and_eq_true, decide_eq_true_eq, List.any_eq_true, Option.any_eq_true] at hplaces
  obtain ⟨hcheck, entry, hentry, property, hproperty, values, hvalues, href, hmissing⟩ :=
    hplaces
  refine ⟨d, hread, hcheck, fun hall => hmissing (hall values ?_ href)⟩
  have hinside : ReflTransGen Inside values entry.2 :=
    .head (.values hvalues) (.single (.property hproperty))
  exact ⟨entry.2, .schema hentry, hinside⟩

end ApiModel.Discovery
