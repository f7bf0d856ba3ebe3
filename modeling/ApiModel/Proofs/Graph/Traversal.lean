import ApiModel.Proofs.Attempt
import ApiModel.Proofs.Graph.Preorder
import Mathlib.Computability.StateTransition

/-!
# Listing generated elements with a stack

The messages to generate are listed with a stack: the message on top is listed, and what is nested
in it takes its place. If the generated messages are a finite forest, this comes to an end. Then
each of them is listed once, before all that is nested in it, messages beside each other come in the
order of their lists, and a message stands together with all that is nested in it. The enumerations
at the top are listed before those nested in generated messages, each as often as it is listed
there.
-/

namespace ApiModel

open Relation

/-- How far a listing has come. -/
structure Listing where
  /-- The messages that were listed. -/
  listed : List MessageRef
  /-- The messages on the stack, with the top at the end. -/
  stack : List MessageRef

namespace Model

variable {m : Model} {r p : MessageRef} {roots order : List MessageRef}

/-- The next step of a listing: the message on top is listed and replaced by what is nested in it,
of which the first is on top. An empty stack ends the listing. -/
def listNext? (m : Model) (l : Listing) : Option Listing :=
  l.stack.getLast?.map fun r =>
    ⟨l.listed ++ [r], l.stack.dropLast ++ (m.message r).messages.reverse⟩

/-- A step takes the message from the top of the stack. -/
theorem listNext?_top (listed below : List MessageRef) (r : MessageRef) :
    m.listNext? ⟨listed, below ++ [r]⟩ =
      some ⟨listed ++ [r], below ++ (m.message r).messages.reverse⟩ := by
  simp only [listNext?, List.getLast?_concat, List.dropLast_concat, Option.map_some]

namespace Walk

/-- What a walk comes to is where it starts and all that is nested there. -/
theorem mem_iff (h : m.Walk roots order) :
    r ∈ order ↔ ∃ root ∈ roots, ReflTransGen m.NestedIn r root := by
  induction h with
  | nil => simp only [List.not_mem_nil, false_and, exists_false]
  | @cons top rest inner others _ _ ihinner ihothers =>
    rw [List.mem_cons, List.mem_append, ihinner, ihothers, List.exists_mem_cons_iff,
      ReflTransGen.cases_tail_iff m.NestedIn r top, ← or_assoc]
    exact or_congr_left (or_congr eq_comm
      ⟨fun ⟨c, hc, hr⟩ => ⟨c, hr, hc⟩, fun ⟨c, hr, hc⟩ => ⟨c, hc, hr⟩⟩)

/-- A walk comes to what is nested in a message, at any depth. -/
theorem mem_nested_iff (h : m.Walk (m.message p).messages order) : r ∈ order ↔
    TransGen m.NestedIn r p := by
  rw [h.mem_iff, TransGen.tail'_iff]
  exact exists_congr fun c => and_comm

/-- A walk keeps the order of its start. -/
theorem sublist (h : m.Walk roots order) : roots.Sublist order := by
  induction h with
  | nil => exact List.Sublist.refl _
  | cons _ _ _ ihothers => exact (ihothers.trans (List.sublist_append_right _ _)).cons_cons _

/-- A walk goes through a message and all that is nested in it without a break. -/
theorem exists_segment (h : m.Walk roots order) (hr : r ∈ order) :
    ∃ inside, m.Walk (m.message r).messages inside ∧ (r :: inside) <:+: order := by
  induction h with
  | nil => cases hr
  | @cons top rest inner others hinner _ ihinner ihothers =>
    rcases List.mem_cons.1 hr with rfl | hr
    · exact ⟨inner, hinner, (List.prefix_append (r :: inner) others).isInfix⟩
    · rcases List.mem_append.1 hr with hr | hr
      · obtain ⟨inside, hwalk, hsegment⟩ := ihinner hr
        exact ⟨inside, hwalk,
          (hsegment.trans (List.prefix_append _ _).isInfix).trans (List.suffix_cons _ _).isInfix⟩
      · obtain ⟨inside, hwalk, hsegment⟩ := ihothers hr
        exact ⟨inside, hwalk,
          (hsegment.trans (List.suffix_append _ _).isInfix).trans (List.suffix_cons _ _).isInfix⟩

/-- What is walked is listed from the stack, and the stack below stays. -/
theorem reaches (h : m.Walk roots order) (listed below : List MessageRef) :
    StateTransition.Reaches m.listNext? ⟨listed, below ++ roots.reverse⟩
      ⟨listed ++ order, below⟩ := by
  induction h generalizing listed below with
  | nil =>
    rw [List.reverse_nil, List.append_nil, List.append_nil]
    exact .refl
  | @cons top rest inner others _ _ ihinner ihothers =>
    have htop :
      (⟨listed ++ [top],
          below ++ rest.reverse ++ (m.message top).messages.reverse⟩ : Listing) ∈
        m.listNext? ⟨listed, below ++ rest.reverse ++ [top]⟩ := listNext?_top listed _ top
    have hinner := ihinner (listed ++ [top]) (below ++ rest.reverse)
    have hothers := ihothers (listed ++ [top] ++ inner) below
    rw [List.append_assoc, List.append_assoc, List.singleton_append] at hothers
    rw [List.reverse_cons, ← List.append_assoc]
    refine .head htop (hinner.trans ?_)
    rwa [List.append_assoc]

/-- The listing ends with the walk of the messages that were on the stack. -/
theorem mem_eval (h : m.Walk roots order) :
    (⟨order, []⟩ : Listing) ∈ StateTransition.eval m.listNext? ⟨[], roots.reverse⟩ :=
  StateTransition.mem_eval.2 ⟨h.reaches [] [], rfl⟩

end Walk

/-! ## Forests of generated messages -/

/-- Whether the generated messages are a finite forest, in which each is listed once. -/
structure FiniteForest (m : Model) : Prop extends FiniteGeneration m where
  /-- No root is listed twice. -/
  rootsOnce : m.messages.Nodup
  /-- No message is nested twice in a generated one. -/
  nestedOnce : ∀ p, m.Generated p → (m.message p).messages.Nodup
  /-- No root is nested in a generated message. -/
  rootsApart : ∀ p, m.Generated p → ∀ r ∈ (m.message p).messages, r ∉ m.messages
  /-- No message is nested in two generated ones. -/
  oneParent : ∀ p q r, m.Generated p → m.Generated q → m.NestedIn r p →
    m.NestedIn r q → p = q

/-- Nothing generated is nested in itself, at any depth. -/
theorem FiniteGeneration.not_nestedIn_self (h : FiniteGeneration m) (hr : m.Generated r) :
    ¬TransGen m.NestedIn r r := by
  obtain ⟨root, hroot, hbelow⟩ := hr
  have hends : Acc m.NestedIn r := by
    rcases reflTransGen_iff_eq_or_transGen.1 hbelow with rfl | hbelow
    · exact h.ends _ hroot
    · exact (h.ends root hroot).inv_of_transGen hbelow
  exact FiniteNesting.not_self_of_acc hends.transGen

namespace FiniteForest

variable (h : FiniteForest m)

include h

/-- Of two generated messages with something below both, one is below the other. -/
theorem comparable {a b s : MessageRef} (ha : m.Generated a) (hb : m.Generated b)
    (hsa : ReflTransGen m.NestedIn s a) (hsb : ReflTransGen m.NestedIn s b) :
    ReflTransGen m.NestedIn a b ∨ ReflTransGen m.NestedIn b a := by
  induction hsa using ReflTransGen.head_induction_on with
  | refl => exact .inl hsb
  | @head s c hsc hca ih =>
    rcases ReflTransGen.cases_head hsb with rfl | ⟨d, hsd, hdb⟩
    · exact .inr (.head hsc hca)
    · obtain rfl : c = d := h.oneParent c d s (ha.below hca) (hb.below hdb) hsc hsd
      exact ih hdb

/-- No root is below another. -/
theorem not_nestedIn_root {a b : MessageRef} (ha : a ∈ m.messages) (hb : b ∈ m.messages) :
    ¬TransGen m.NestedIn a b := by
  intro hab
  obtain ⟨c, hac, hcb⟩ := TransGen.head'_iff.1 hab
  exact h.rootsApart c ((generated_of_mem hb).below hcb) a hac ha

/-- No message is below another that is nested beside it. -/
theorem not_nestedIn_sibling {a b : MessageRef} (hp : m.Generated p) (ha : m.NestedIn a p)
    (hb : m.NestedIn b p) : ¬TransGen m.NestedIn a b := by
  intro hab
  obtain ⟨c, hac, hcb⟩ := TransGen.head'_iff.1 hab
  have hbelow : ReflTransGen m.NestedIn c p := hcb.tail hb
  obtain rfl : c = p := h.oneParent c p a (hp.below hbelow) hp hac ha
  exact h.not_nestedIn_self hp (TransGen.tail' hcb hb)

/-- A walk of generated messages of which none is below another comes to no message twice. -/
theorem nodup_walk (hwalk : m.Walk roots order) (hroots : ∀ r ∈ roots, m.Generated r)
    (honce : roots.Nodup) (hapart : ∀ a ∈ roots, ∀ b ∈ roots, ¬TransGen m.NestedIn a b) :
    order.Nodup := by
  induction hwalk with
  | nil => exact List.nodup_nil
  | @cons r rest inner others hinner hothers ihinner ihothers =>
    obtain ⟨hr, hrest⟩ := List.forall_mem_cons.1 hroots
    obtain ⟨hnew, hrestOnce⟩ := List.nodup_cons.1 honce
    have hinnerOnce : inner.Nodup := ihinner (fun c hc => hr.below (.single hc)) (h.nestedOnce r hr)
      fun a ha b hb => h.not_nestedIn_sibling hr ha hb
    have hothersOnce : others.Nodup := ihothers hrest hrestOnce fun a ha b hb =>
      hapart a (List.mem_cons_of_mem r ha) b (List.mem_cons_of_mem r hb)
    -- something below the first message and one of the others would put one of the two below the
    -- other
    have hseparate : ∀ s, ReflTransGen m.NestedIn s r → s ∉ others := by
      intro s hsr hs
      obtain ⟨b, hb, hsb⟩ := hothers.mem_iff.1 hs
      have hne : r ≠ b := fun hsame => hnew (hsame ▸ hb)
      have hmem := List.mem_cons_of_mem r hb
      rcases h.comparable hr (hrest b hb) hsr hsb with hrb | hbr
      · exact hapart r List.mem_cons_self b hmem
          ((reflTransGen_iff_eq_or_transGen.1 hrb).resolve_left hne.symm)
      · exact hapart b hmem r List.mem_cons_self
          ((reflTransGen_iff_eq_or_transGen.1 hbr).resolve_left hne)
    refine List.nodup_cons.2
      ⟨fun hmem => ?_, List.nodup_append.2 ⟨hinnerOnce, hothersOnce, ?_⟩⟩
    · rcases List.mem_append.1 hmem with hmem | hmem
      · exact h.not_nestedIn_self hr (hinner.mem_nested_iff.1 hmem)
      · exact hseparate r .refl hmem
    · rintro s hs t ht rfl
      exact hseparate s (hinner.mem_nested_iff.1 hs).to_reflTransGen ht

/-- No message is listed twice for generation. -/
theorem nodup_allMessages : m.allMessages.Nodup :=
  h.nodup_walk h.walk_allMessages (fun _ => generated_of_mem) h.rootsOnce
    fun _ ha _ hb => h.not_nestedIn_root ha hb

end FiniteForest

/-! ## The order of messages -/

/-- Whether a list has the generated messages in preorder. -/
structure Preordered (m : Model) (order : List MessageRef) : Prop where
  /-- It has exactly the generated messages. -/
  complete : ∀ r, r ∈ order ↔ m.Generated r
  /-- It has each of them once. -/
  once : order.Nodup
  /-- A message comes before all that is nested in it, at any depth. -/
  parentsFirst : ∀ p, m.Generated p → ∀ r, TransGen m.NestedIn r p → [p, r].Sublist order
  /-- The roots come in the order of their list. -/
  roots : m.messages.Sublist order
  /-- The messages nested in one come in the order of their list. -/
  siblings : ∀ p, m.Generated p → (m.message p).messages.Sublist order
  /-- A message and all that is nested in it, at any depth, stand together. -/
  together : ∀ p, m.Generated p →
    ∃ inside, (p :: inside) <:+: order ∧ ∀ r, r ∈ inside ↔ TransGen m.NestedIn r p

/-- The messages of a finite forest are listed in preorder. -/
theorem FiniteForest.preordered (h : FiniteForest m) : Preordered m m.allMessages := by
  have hwalk := h.walk_allMessages
  have hsegments : ∀ p, m.Generated p →
      ∃ inside, m.Walk (m.message p).messages inside ∧ (p :: inside) <:+: m.allMessages :=
    fun p hp => hwalk.exists_segment (h.mem_allMessages.2 hp)
  constructor
  case complete => exact fun _ => h.mem_allMessages
  case once => exact h.nodup_allMessages
  case parentsFirst =>
    intro p hp r hr
    obtain ⟨inside, hinside, hsegment⟩ := hsegments p hp
    have hsingle : [r].Sublist inside := List.singleton_sublist.2 (hinside.mem_nested_iff.2 hr)
    exact (hsingle.cons_cons p).trans hsegment.sublist
  case roots => exact hwalk.sublist
  case siblings =>
    intro p hp
    obtain ⟨inside, hinside, hsegment⟩ := hsegments p hp
    exact (hinside.sublist.trans (List.sublist_cons_self p inside)).trans hsegment.sublist
  case together =>
    intro p hp
    obtain ⟨inside, hinside, hsegment⟩ := hsegments p hp
    exact ⟨inside, hsegment, fun _ => hinside.mem_nested_iff⟩

/-! ## The order of enumerations -/

/-- Whether no enumeration is listed twice, at the top or in generated messages. -/
structure EnumsListedOnce (m : Model) : Prop where
  /-- No enumeration is listed twice at the top. -/
  topOnce : m.enums.Nodup
  /-- No enumeration is nested twice in a generated message. -/
  nestedOnce : ∀ p, m.Generated p → (m.message p).enums.Nodup
  /-- No enumeration at the top is nested in a generated message. -/
  topApart : ∀ p, m.Generated p → ∀ e ∈ (m.message p).enums, e ∉ m.enums
  /-- No enumeration is nested in two generated messages. -/
  oneParent : ∀ p q e, m.Generated p → m.Generated q → e ∈ (m.message p).enums →
    e ∈ (m.message q).enums →
    p = q

/-- Whether a list has the generated enumerations as they are listed, those at the top first. -/
structure EnumsInOrder (m : Model) (order : List EnumRef) : Prop where
  /-- It has exactly the generated enumerations. -/
  complete : ∀ e, e ∈ order ↔ m.GeneratedEnum e
  /-- Those at the top come first, in the order of their list, then those nested in generated
  messages. -/
  topFirst : ∃ inner, order = m.enums ++ inner ∧ ∀ e, e ∈ inner ↔
    ∃ p, m.Generated p ∧ e ∈ (m.message p).enums
  /-- It has one place for each place at the top or in a generated message. -/
  asListed : ∀ ps : List MessageRef, ps.Nodup → (∀ p, p ∈ ps ↔ m.Generated p) →
    order.Perm (m.enums ++ ps.flatMap fun p => (m.message p).enums)
  /-- It has each of them once if and only if each is listed once. -/
  once : order.Nodup ↔ m.EnumsListedOnce

namespace FiniteForest

variable (h : FiniteForest m)

include h

/-- The enumerations nested in listed messages are those nested in generated ones. -/
theorem mem_nestedEnums {e : EnumRef} :
    (e ∈ m.allMessages.flatMap fun p => (m.message p).enums) ↔
    ∃ p, m.Generated p ∧ e ∈ (m.message p).enums := by
  simp only [List.mem_flatMap, h.mem_allMessages]

/-- No enumeration is listed twice for generation if and only if none is at the top or in generated
messages. -/
theorem nodup_allEnums_iff : m.allEnums.Nodup ↔ m.EnumsListedOnce := by
  rw [allEnums, List.nodup_append, List.nodup_flatMap]
  constructor
  · rintro ⟨htop, ⟨hnested, hpairs⟩, happart⟩
    have hsymm : Std.Symm (Function.onFun List.Disjoint fun p => (m.message p).enums) :=
      ⟨fun _ _ hdisjoint => hdisjoint.symm⟩
    have hpair := hpairs.forall
    constructor
    case topOnce => exact htop
    case nestedOnce => exact fun p hp => hnested p (h.mem_allMessages.2 hp)
    case topApart =>
      exact fun p hp e he hmem => happart e hmem e (h.mem_nestedEnums.2 ⟨p, hp, he⟩) rfl
    case oneParent =>
      intro p q e hp hq hep heq
      by_contra hne
      exact hpair (h.mem_allMessages.2 hp) (h.mem_allMessages.2 hq) hne hep heq
  · intro honce
    refine ⟨honce.topOnce, ⟨fun p hp => honce.nestedOnce p (h.mem_allMessages.1 hp), ?_⟩,
      ?_⟩
    · refine h.nodup_allMessages.pairwise_of_forall_ne fun p hp q hq hne e hep heq => hne ?_
      exact honce.oneParent p q e (h.mem_allMessages.1 hp) (h.mem_allMessages.1 hq) hep heq
    · rintro e he f hf rfl
      obtain ⟨p, hp, hep⟩ := h.mem_nestedEnums.1 hf
      exact honce.topApart p hp e hep he

/-- The enumerations of a finite forest are listed as they are listed at the top and in its
messages. -/
theorem enumsInOrder : EnumsInOrder m m.allEnums := by
  constructor
  case complete =>
    intro e
    rw [allEnums, List.mem_append, h.mem_nestedEnums]
    rfl
  case topFirst => exact ⟨_, rfl, fun _ => h.mem_nestedEnums⟩
  case asListed =>
    intro ps honce hall
    have hperm : m.allMessages.Perm ps :=
      (List.perm_ext_iff_of_nodup h.nodup_allMessages honce).2 fun p =>
        h.mem_allMessages.trans (hall p).symm
    exact (hperm.flatMap_right _).append_left _
  case once => exact h.nodup_allEnums_iff

end FiniteForest

/-! ## Models that were read -/

/-- The generated messages of a sound model are a finite forest if messages are nested by descending
rank. -/
theorem Sound.finiteForest (h : Sound m) {rank : MessageRef → Nat} (hrank : Ranked rank m) :
    FiniteForest m := by
  have hforest := h.forest hrank
  refine { (h.finiteNesting hrank).generation with
    rootsOnce := (List.nodup_append.1 h.roster.messagesOnce).1
    nestedOnce := fun p _ => (h.messageSound p).messagesOnce
    rootsApart := fun p _ r hr hroot => ?_
    oneParent := fun p q r _ _ hp hq => ?_ }
  · have hparent := hforest.nestedMessages p r hr
    rw [hforest.rootMessages r (List.mem_append_left _ hroot)] at hparent
    cases hparent
  · exact Option.some.inj
      ((hforest.nestedMessages p r hp).symm.trans (hforest.nestedMessages q r hq))

/-- A sound model whose messages are nested by descending rank lists no enumeration twice. -/
theorem Sound.enumsListedOnce (h : Sound m) {rank : MessageRef → Nat} (hrank : Ranked rank m) :
    EnumsListedOnce m := by
  have hforest := h.forest hrank
  constructor
  case topOnce => exact (List.nodup_append.1 h.roster.enumsOnce).1
  case nestedOnce => exact fun p _ => (h.messageSound p).enumsOnce
  case topApart =>
    intro p _ e he htop
    have hparent := hforest.nestedEnums p e he
    rw [hforest.rootEnums e (List.mem_append_left _ htop)] at hparent
    cases hparent
  case oneParent =>
    exact fun p q e _ _ hp hq =>
      Option.some.inj ((hforest.nestedEnums p e hp).symm.trans (hforest.nestedEnums q e hq))

/-- A schema file with messages on three levels and enumerations on two, of which the inner one has
a value that is deprecated. -/
def atlas : Descriptor.FileSet :=
  ⟨[{ name := some "atlas.proto"
      package := some "geo"
      messages :=
        [.mk (some "Map") []
          [.mk (some "Region") [] [.mk (some "Place") [] [] [] none []]
            [{ name := some "Kind",
               values :=
                 [{ name := some "PARISH", options := some { deprecated := some true } }] }] none
                 [],
            .mk (some "Legend") [] [] [] none []] [] none [],
          .mk (some "Index") [] [] [] none []]
      enums := [{ name := some "Scale", values := [{ name := some "LARGE" }] }] }]⟩

end Model

end ApiModel
