import ApiModel.Proofs.Graph.Traversal

/-!
# Deprecation

Whether anything to generate is deprecated is asked of the roots, and each message asks what is
nested in it. If what is generated is nested finitely, this comes to the same as asking all messages
and enumerations that are listed for generation, and the listed services. Elements that are
external, or listed no more, do not count.
-/

namespace ApiModel

open Relation

/-- Whether an enumeration or one of its values is deprecated. -/
theorem Enumeration.hasDeprecated_iff {e : Enumeration} :
    e.hasDeprecated = true ↔ e.deprecated = true ∨ ∃ v ∈ e.values, v.deprecated = true := by
  rw [Enumeration.hasDeprecated, Bool.or_eq_true, List.any_eq_true]

namespace Model

variable {m other : Model} {r : MessageRef}

/-- Whether a service or one of its methods is deprecated. -/
theorem serviceHasDeprecated_iff {s : Service} :
    m.serviceHasDeprecated s = true ↔
      s.deprecated = true ∨ ∃ k ∈ s.methods, (m.method k).deprecated = true := by
  rw [serviceHasDeprecated, Bool.or_eq_true, List.any_eq_true]

/-- Whether a message, a field of it or an enumeration nested in it is deprecated, whatever messages
are nested in it. -/
def declaresDeprecated (m : Model) (message : Message) : Bool :=
  message.deprecated || message.fields.any Field.deprecated
    || message.enums.any fun e => (m.enumeration e).hasDeprecated

/-- What a message declares as deprecated is itself, a field or an enumeration. -/
theorem declaresDeprecated_iff {x : Message} :
    m.declaresDeprecated x = true ↔
      (x.deprecated = true ∨ ∃ f ∈ x.fields, f.deprecated = true) ∨
      ∃ e ∈ x.enums, (m.enumeration e).hasDeprecated = true := by
  simp only [declaresDeprecated, Bool.or_eq_true, List.any_eq_true]

/-! ## Below a message -/

/-- Asking what is nested in a message is asking all that is listed below it, to the same depth. -/
theorem messageDeprecated_eq_any (depth : Nat) (r : MessageRef) :
    m.messageDeprecated depth (m.message r) =
      (m.subtree depth r).any fun s => m.declaresDeprecated (m.message s) := by
  induction depth generalizing r with
  | zero => rfl
  | succ depth ih =>
    rw [messageDeprecated, subtree, List.any_cons, List.any_flatMap]
    simp only [ih, declaresDeprecated]

namespace FiniteGeneration

variable (h : FiniteGeneration m)

include h

/-- Listing as deep as there are messages, or deeper, walks a generated message. -/
theorem walk_subtree (hr : m.Generated r) {depth : Nat} (hdepth : m.depthBound ≤ depth) :
    m.Walk [r] (m.subtree depth r) := by
  obtain ⟨root, hroot, hbelow⟩ := hr
  have hlive : (m.withExternal [] []).LiveMessage r :=
    ⟨root, List.mem_append_left _ hroot, hbelow⟩
  have hcard := Nat.lt_of_lt_of_le (h.finiteNesting.card_below_lt_size hlive) hdepth
  have hwalk := h.finiteNesting.walk_subtree hlive hcard
  rw [subtree_withExternal] at hwalk
  exact hwalk.of_nested fun _ => rfl

/-- Something in a generated message is deprecated if it is declared so there or in what is nested
in it. -/
theorem messageHasDeprecated_iff (hr : m.Generated r) :
    m.messageHasDeprecated (m.message r) = true ↔
      ∃ s, ReflTransGen m.NestedIn s r ∧ m.declaresDeprecated (m.message s) = true := by
  have hwalk := h.walk_subtree hr (Nat.le_succ m.depthBound)
  rw [messageHasDeprecated, messageDeprecated_eq_any, List.any_eq_true]
  simp only [hwalk.mem_iff, List.mem_singleton, exists_eq_left]

/-- A generated message asks for what it declares itself, and then the messages nested in it. -/
theorem messageHasDeprecated_eq (hr : m.Generated r) :
    m.messageHasDeprecated (m.message r) =
      (m.declaresDeprecated (m.message r)
        || (m.message r).messages.any fun c => m.messageHasDeprecated (m.message c)) := by
  rw [Bool.eq_iff_iff, Bool.or_eq_true, List.any_eq_true, h.messageHasDeprecated_iff hr]
  constructor
  · rintro ⟨s, hs, hdeclares⟩
    rcases ReflTransGen.cases_tail hs with rfl | ⟨c, hs, hc⟩
    · exact .inl hdeclares
    · exact .inr
        ⟨c, hc, (h.messageHasDeprecated_iff (hr.below (.single hc))).2 ⟨s, hs, hdeclares⟩⟩
  · rintro (hdeclares | ⟨c, hc, hinner⟩)
    · exact ⟨r, .refl, hdeclares⟩
    · obtain ⟨s, hs, hdeclares⟩ :=
        (h.messageHasDeprecated_iff (hr.below (.single hc))).1 hinner
      exact ⟨s, hs.tail hc, hdeclares⟩

/-! ## In all that is generated -/

/-- Something to generate is deprecated if a generated message declares it, or it is in an
enumeration at the top or in a listed service. -/
theorem hasDeprecated_iff :
    m.hasDeprecated = true ↔
      (∃ r, m.Generated r ∧ m.declaresDeprecated (m.message r) = true) ∨
      (∃ e ∈ m.enums, (m.enumeration e).hasDeprecated = true) ∨
      ∃ s ∈ m.services, m.serviceHasDeprecated (m.service s) = true := by
  rw [hasDeprecated, Bool.or_eq_true, Bool.or_eq_true, List.any_eq_true, List.any_eq_true,
    List.any_eq_true, or_assoc]
  refine or_congr_left ⟨?_, ?_⟩
  · rintro ⟨root, hroot, hdeprecated⟩
    obtain ⟨s, hs, hdeclares⟩ :=
      (h.messageHasDeprecated_iff (generated_of_mem hroot)).1 hdeprecated
    exact ⟨s, ⟨root, hroot, hs⟩, hdeclares⟩
  · rintro ⟨s, ⟨root, hroot, hs⟩, hdeclares⟩
    exact ⟨root, hroot,
      (h.messageHasDeprecated_iff (generated_of_mem hroot)).2 ⟨s, hs, hdeclares⟩⟩

omit h in
/-- An enumeration that is listed for generation is at the top or nested in a listed message. -/
theorem exists_mem_allEnums_iff {P : EnumRef → Prop} :
    (∃ e ∈ m.allEnums, P e) ↔
      (∃ e ∈ m.enums, P e) ∨ ∃ r ∈ m.allMessages, ∃ e ∈ (m.message r).enums, P e := by
  simp only [allEnums, List.mem_append, List.mem_flatMap, or_and_right, exists_or]
  refine or_congr_right ⟨?_, ?_⟩
  · rintro ⟨e, ⟨r, hr, he⟩, hP⟩
    exact ⟨r, hr, e, he, hP⟩
  · rintro ⟨r, hr, e, he, hP⟩
    exact ⟨e, ⟨r, hr, he⟩, hP⟩

/-- Something to generate is deprecated if it is a listed message, enumeration or service or a
member of one. -/
theorem hasDeprecated_iff_listed :
    m.hasDeprecated = true ↔
      (∃ r ∈ m.allMessages, (m.message r).deprecated = true ∨
        ∃ f ∈ (m.message r).fields, f.deprecated = true) ∨
      (∃ e ∈ m.allEnums, (m.enumeration e).deprecated = true ∨
        ∃ v ∈ (m.enumeration e).values, v.deprecated = true) ∨
      ∃ s ∈ m.services, (m.service s).deprecated = true ∨
        ∃ k ∈ (m.service s).methods, (m.method k).deprecated = true := by
  have hmessages : (∃ r, m.Generated r ∧ m.declaresDeprecated (m.message r) = true) ↔
      (∃ r ∈ m.allMessages, (m.message r).deprecated = true ∨
        ∃ f ∈ (m.message r).fields, f.deprecated = true) ∨
      ∃ r ∈ m.allMessages, ∃ e ∈ (m.message r).enums,
        (m.enumeration e).hasDeprecated = true := by
    simp only [← h.mem_allMessages, declaresDeprecated_iff, and_or_left, exists_or]
  simp only [← Enumeration.hasDeprecated_iff, ← serviceHasDeprecated_iff]
  rw [h.hasDeprecated_iff, hmessages, exists_mem_allEnums_iff, or_assoc, or_assoc]
  exact or_congr_right or_left_comm

end FiniteGeneration

/-! ## What does not count -/

/-- Whether a model has the same elements to generate as another. Its external elements, and
elements that no list of what is generated leads to, may be any others. -/
structure SameGenerated (m other : Model) : Prop where
  /-- The same roots. -/
  messages : other.messages = m.messages
  /-- The same enumerations at the top. -/
  enums : other.enums = m.enums
  /-- The same listed services. -/
  services : other.services = m.services
  /-- Generated messages exist there too. -/
  held : ∀ r, m.Generated r → messageArena.Holds other r
  /-- The same generated messages. -/
  message : ∀ r, m.Generated r → other.message r = m.message r
  /-- The same generated enumerations. -/
  enumeration : ∀ e, m.GeneratedEnum e → other.enumeration e = m.enumeration e
  /-- The same services. -/
  service : ∀ s ∈ m.services, other.service s = m.service s
  /-- The same methods of listed services. -/
  method : ∀ s ∈ m.services, ∀ k ∈ (m.service s).methods, other.method k = m.method k

namespace SameGenerated

variable (h : SameGenerated m other)

include h

/-- Models of one generation nest the same messages in generated ones. -/
theorem nestedIn_iff {p : MessageRef} (hp : m.Generated p) : other.NestedIn r p ↔
    m.NestedIn r p := by
  rw [NestedIn, NestedIn, h.message p hp]

/-- Models of one generation nest the same messages in generated ones, at every depth. -/
theorem below_iff {p : MessageRef} (hp : m.Generated p) :
    ReflTransGen other.NestedIn r p ↔ ReflTransGen m.NestedIn r p := by
  constructor
  · intro hr
    induction hr using ReflTransGen.head_induction_on with
    | refl => exact .refl
    | head hsc _ ih => exact .head ((h.nestedIn_iff (hp.below ih)).1 hsc) ih
  · intro hr
    induction hr using ReflTransGen.head_induction_on with
    | refl => exact .refl
    | head hsc hcp ih => exact .head ((h.nestedIn_iff (hp.below hcp)).2 hsc) ih

/-- Models of one generation have the same generated messages. -/
theorem generated_iff : other.Generated r ↔ m.Generated r := by
  rw [Generated, Generated, h.messages]
  exact exists_congr fun root => and_congr_right fun hroot => h.below_iff (generated_of_mem hroot)

/-- Where nesting ends below a generated message of a model, it ends there in every model of its
generation. -/
theorem acc {p : MessageRef} (hp : m.Generated p) (hends : Acc m.NestedIn p) :
    Acc other.NestedIn p := by
  induction hends with
  | intro p _ ih =>
    refine .intro p fun c hc => ?_
    have hnested := (h.nestedIn_iff hp).1 hc
    exact ih c hnested (hp.below (.single hnested))

/-- Generated messages that are nested finitely in a model are so in every model of its generation.
-/
theorem finiteGeneration (hfinite : FiniteGeneration m) : FiniteGeneration other where
  held r hr := h.held r (h.generated_iff.1 hr)
  ends root hroot := by
    rw [h.messages] at hroot
    exact h.acc (generated_of_mem hroot) (hfinite.ends root hroot)

/-- In models of one generation a generated message declares the same as deprecated. -/
theorem declaresDeprecated_eq (hr : m.Generated r) :
    other.declaresDeprecated (other.message r) = m.declaresDeprecated (m.message r) := by
  rw [Bool.eq_iff_iff, declaresDeprecated_iff, declaresDeprecated_iff, h.message r hr]
  refine or_congr_right (exists_congr fun e => and_congr_right fun he => ?_)
  rw [h.enumeration e (.inr ⟨r, hr, he⟩)]

/-- In models of one generation a listed service has the same deprecated in it. -/
theorem serviceHasDeprecated_eq {s : ServiceRef} (hs : s ∈ m.services) :
    other.serviceHasDeprecated (other.service s) = m.serviceHasDeprecated (m.service s) := by
  rw [Bool.eq_iff_iff, serviceHasDeprecated_iff, serviceHasDeprecated_iff, h.service s hs]
  refine or_congr_right (exists_congr fun k => and_congr_right fun hk => ?_)
  rw [h.method s hs k hk]

/-- With the same elements to generate, the same is deprecated. -/
theorem hasDeprecated_eq (hfinite : FiniteGeneration m) :
    other.hasDeprecated = m.hasDeprecated := by
  rw [Bool.eq_iff_iff, (h.finiteGeneration hfinite).hasDeprecated_iff,
    hfinite.hasDeprecated_iff, h.enums, h.services]
  refine or_congr ?_ (or_congr ?_ ?_)
  · refine exists_congr fun r => ?_
    rw [h.generated_iff]
    refine and_congr_right fun hr => ?_
    rw [h.declaresDeprecated_eq hr]
  · refine exists_congr fun e => and_congr_right fun he => ?_
    rw [h.enumeration e (.inl he)]
  · refine exists_congr fun s => and_congr_right fun hs => ?_
    rw [h.serviceHasDeprecated_eq hs]

end SameGenerated

/-- If what is generated is nested finitely, something to generate is deprecated if and only if a
message listed for generation or a field of it is, or a listed enumeration or a value of it, or a
listed service or a method of it. Each generated message asks for its own members and then the
messages nested in it. Elements that are not generated do not count. -/
theorem FiniteGeneration.deprecation_exact (h : FiniteGeneration m) :
    (m.hasDeprecated = true ↔
      (∃ r ∈ m.allMessages, (m.message r).deprecated = true ∨
        ∃ f ∈ (m.message r).fields, f.deprecated = true) ∨
      (∃ e ∈ m.allEnums, (m.enumeration e).deprecated = true ∨
        ∃ v ∈ (m.enumeration e).values, v.deprecated = true) ∨
      ∃ s ∈ m.services, (m.service s).deprecated = true ∨
        ∃ k ∈ (m.service s).methods, (m.method k).deprecated = true) ∧
    (∀ r, m.Generated r → m.messageHasDeprecated (m.message r) =
      (m.declaresDeprecated (m.message r)
        || (m.message r).messages.any fun c => m.messageHasDeprecated (m.message c))) ∧
    ∀ other, SameGenerated m other → other.hasDeprecated = m.hasDeprecated :=
  ⟨h.hasDeprecated_iff_listed, fun _ => h.messageHasDeprecated_eq,
    fun _ hsame => hsame.hasDeprecated_eq h⟩

/-- Something in the atlas is deprecated, a value of the inner enumeration, whatever is external. -/
theorem deprecation_exact_atlas :
    ∃ m, atlas.model none [] = .ok m ∧ FiniteGeneration m ∧ m.hasDeprecated = true ∧
      SameGenerated m (m.withExternal [⟨2⟩] []) ∧
      (m.withExternal [⟨2⟩] []).hasDeprecated = true := by
  have hread : (atlas.model none []).toOption.any (fun m => decide
      ((⟨0⟩ : EnumRef) ∈ m.allEnums ∧ ∃ v ∈ (m.enumeration ⟨0⟩).values,
        v.deprecated = true)) = true := by
    decide +kernel
  obtain ⟨m, hm, hread⟩ := Attempt.exists_ok_of_any hread
  obtain ⟨hlisted, hvalue⟩ := of_decide_eq_true hread
  have hfinite : FiniteGeneration m := (Parsed.descriptor hm).finiteNesting.generation
  have hsame : SameGenerated m (m.withExternal [⟨2⟩] []) :=
    ⟨rfl, rfl, rfl, hfinite.held, fun _ _ => rfl, fun _ _ => rfl, fun _ _ => rfl,
      fun _ _ _ _ => rfl⟩
  obtain ⟨hdeprecated, -, hother⟩ := hfinite.deprecation_exact
  have hsome : m.hasDeprecated = true :=
    hdeprecated.2 (.inr (.inl ⟨⟨0⟩, hlisted, .inr hvalue⟩))
  exact ⟨m, hm, hfinite, hsome, hsame, (hother _ hsame).trans hsome⟩

/-- Once the inner enumeration is skipped, nothing in the atlas is deprecated. -/
example :
    ((atlas.model none []).bind fun m => m.crossReference.model.skipElements
      (Index.empty.insert SourceOptions.skippedIds ".geo.Map.Region.Kind")).map hasDeprecated =
        .ok false := by
  decide +kernel

end Model

end ApiModel
