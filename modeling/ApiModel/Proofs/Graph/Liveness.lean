import ApiModel.Proofs.Graph.Runs
import ApiModel.Proofs.Graph.Visits
import Mathlib.Computability.StateTransition
import Mathlib.Data.Finset.Card
import Mathlib.Data.Finset.Range

/-!
# Live elements and their indices

An element is live if the lists of a model lead to it: from the generated and external roots down
through nested lists, or through the listed services. The descent that finds them is a loop over a
stack, which comes to an end if nesting is finite. From the first assembly on, whatever calls follow
and however far they get, the indices hold the full names of the live elements and nothing else. It
is only supposed that nesting is finite below the roots; elements that no list leads to may be
nested in any way.
-/

namespace ApiModel

open Relation

/-! ## What an index lists -/

namespace Index

/-- Whether an index lists exactly the elements of one kind that are live, under their full
names. -/
structure Lists {ref : Type} (index : Index ref) (Live : ref → Prop)
    (id : ref → String) : Prop where
  /-- The keys are the full names of live elements. -/
  keys : ∀ name, name ∈ index.keys ↔ ∃ r, Live r ∧ id r = name
  /-- Under a name stands a live element of that name. -/
  places : ∀ name r, index.get? name = some r → Live r ∧ id r = name
  /-- If no two live elements have one name, names and live elements correspond. -/
  correspond : (∀ r s, Live r → Live s → id r = id s → r = s) →
    ∀ name r, index.get? name = some r ↔ Live r ∧ id r = name

/-- A key is a text under which something stands. -/
theorem mem_keys {α : Type} {index : Index α} {key : String} :
    key ∈ index.keys ↔ (index.get? key).isSome := by
  simp [keys, Option.isSome_iff_exists, get?_eq_some_iff]

end Index

namespace Model

variable {m other : Model}

/-- The index of places lists what is live if those are the places of live elements. -/
theorem lists_indexBy {ref : Type} {refs : List ref} {Live : ref → Prop} (id : ref → String)
    (hlive : ∀ r, r ∈ refs ↔ Live r) : (indexBy id refs).Lists Live id where
  keys name := by
    rw [Index.mem_keys, isSome_get?_indexBy]
    simp only [hlive]
  places name r hr := by
    have hgiven := of_get?_indexBy hr
    exact ⟨(hlive r).1 hgiven.1, hgiven.2⟩
  correspond hid name r := by
    constructor
    · intro hr
      have hgiven := of_get?_indexBy hr
      exact ⟨(hlive r).1 hgiven.1, hgiven.2⟩
    · rintro ⟨hr, rfl⟩
      exact get?_indexBy_of_injective
        (fun s hs t ht => hid s t ((hlive s).1 hs) ((hlive t).1 ht)) ((hlive r).2 hr)

/-! ## Live elements -/

/-- Whether a message is a generated or external root or nested in one, at any depth. -/
def LiveMessage (m : Model) (r : MessageRef) : Prop :=
  ∃ root ∈ m.messages ++ m.externalMessages, ReflTransGen m.NestedIn r root

/-- Whether an enumeration is a generated or external one or nested in a live message. -/
def LiveEnum (m : Model) (r : EnumRef) : Prop :=
  r ∈ m.enums ++ m.externalEnums ∨ ∃ p, m.LiveMessage p ∧ r ∈ (m.message p).enums

/-- Whether a method is one of a listed service. -/
def LiveMethod (m : Model) (r : MethodRef) : Prop :=
  ∃ s ∈ m.services, r ∈ (m.service s).methods

/-- Whether the indices of a model list what is live in it. -/
structure IndexesLive (m : Model) : Prop where
  /-- The messages. -/
  messages : m.store.messageById.Lists m.LiveMessage fun r => (m.message r).id
  /-- The enumerations. -/
  enums : m.store.enumById.Lists m.LiveEnum fun r => (m.enumeration r).id
  /-- The services. -/
  services : m.store.serviceById.Lists (· ∈ m.services) fun r => (m.service r).id
  /-- The methods. -/
  methods : m.store.methodById.Lists m.LiveMethod fun r => (m.method r).id

/-- Whether live messages exist and each has finitely many levels of messages nested in it. -/
structure FiniteNesting (m : Model) : Prop where
  /-- Live messages exist. -/
  held : ∀ r, m.LiveMessage r → messageArena.Holds m r
  /-- Nesting ends below the roots. -/
  ends : ∀ r ∈ m.messages ++ m.externalMessages, Acc m.NestedIn r

/-- What is nested in a live message is live. -/
theorem LiveMessage.nested {p r : MessageRef} (hp : m.LiveMessage p) (hr : m.NestedIn r p) :
    m.LiveMessage r := by
  obtain ⟨root, hroot, hnested⟩ := hp
  exact ⟨root, hroot, .head hr hnested⟩

/-! ## The descent comes to all live messages -/

namespace FiniteNesting

variable (h : FiniteNesting m)

include h

omit h in
/-- Where a descent ends, it does not come back to its start. -/
theorem not_self_of_acc {α : Type} {R : α → α → Prop} {a : α} (ha : Acc R a) : ¬R a a := by
  induction ha with
  | intro a _ ih => exact fun hself => ih a hself hself

/-- No live message is nested in itself, at any depth. -/
theorem not_nestedIn_self {r : MessageRef} (hr : m.LiveMessage r) : ¬TransGen m.NestedIn r r := by
  obtain ⟨root, hroot, hnested⟩ := hr
  have hends : Acc m.NestedIn r := by
    rcases reflTransGen_iff_eq_or_transGen.1 hnested with rfl | hbelow
    · exact h.ends _ hroot
    · exact (h.ends root hroot).inv_of_transGen hbelow
  exact not_self_of_acc hends.transGen

open Classical in
/-- The messages of the store that are nested in a message, at any depth. -/
noncomputable def below (m : Model) (r : MessageRef) : Finset Nat :=
  (Finset.range m.store.messages.size).filter fun i => TransGen m.NestedIn ⟨i⟩ r

omit h in
/-- A position is one of a nested message. -/
theorem mem_below {r : MessageRef} {i : Nat} :
    i ∈ below m r ↔ i < m.store.messages.size ∧ TransGen m.NestedIn ⟨i⟩ r := by
  simp only [below, Finset.mem_filter, Finset.mem_range]

/-- Fewer messages are nested in a nested message than in the one around it. -/
theorem card_below_lt {r c : MessageRef} (hr : m.LiveMessage r) (hc : m.NestedIn c r) :
    (below m c).card < (below m r).card := by
  have hlive := hr.nested hc
  have hheld : c.index < m.store.messages.size := h.held c hlive
  have hinside : c.index ∈ below m r := mem_below.2 ⟨hheld, .single hc⟩
  have houtside : c.index ∉ below m c := fun hself =>
    h.not_nestedIn_self hlive (mem_below.1 hself).2
  refine Finset.card_lt_card ((Finset.ssubset_iff_of_subset fun i hi => ?_).2
    ⟨c.index, hinside, houtside⟩)
  have hbelow := mem_below.1 hi
  exact mem_below.2 ⟨hbelow.1, hbelow.2.tail hc⟩

/-- Fewer messages are nested in a live message than there are. -/
theorem card_below_lt_size {r : MessageRef} (hr : m.LiveMessage r) :
    (below m r).card < m.store.messages.size := by
  have hheld : r.index < m.store.messages.size := h.held r hr
  have hsubset : below m r ⊆ Finset.range m.store.messages.size := fun i hi =>
    Finset.mem_range.2 (mem_below.1 hi).1
  have houtside : r.index ∉ below m r := fun hself => h.not_nestedIn_self hr (mem_below.1 hself).2
  have hlt := Finset.card_lt_card ((Finset.ssubset_iff_of_subset hsubset).2
    ⟨r.index, Finset.mem_range.2 hheld, houtside⟩)
  simpa only [Finset.card_range] using hlt

/-- A descent that is deep enough comes to everything nested in its start. -/
theorem mem_visitMessage {depth : Nat} {r s : MessageRef} (hr : m.LiveMessage r)
    (hdepth : (below m r).card < depth) (hs : ReflTransGen m.NestedIn s r) :
    s ∈ m.visitMessage depth r := by
  induction depth generalizing r with
  | zero => omega
  | succ depth ih =>
    rcases ReflTransGen.cases_tail hs with rfl | ⟨c, hs, hc⟩
    · exact List.mem_cons_self
    · have hfewer := h.card_below_lt hr hc
      have hvisit : s ∈ m.visitMessage depth c := ih (hr.nested hc) (by omega) hs
      exact List.mem_cons_of_mem r (List.mem_flatMap.2 ⟨c, List.mem_reverse.2 hc, hvisit⟩)

/-- The descent from a live message comes to exactly what is nested in it. -/
theorem mem_visitMessage_iff {r s : MessageRef} (hr : m.LiveMessage r) :
    s ∈ m.visitMessage m.store.messages.size r ↔ ReflTransGen m.NestedIn s r :=
  ⟨nestedIn_of_mem_visitMessage, h.mem_visitMessage hr (h.card_below_lt_size hr)⟩

/-- The descents from roots come to exactly what is nested in them. -/
theorem mem_flatMap_visitMessage {roots : List MessageRef}
    (hroots : roots ⊆ m.messages ++ m.externalMessages) {s : MessageRef} :
    s ∈ roots.reverse.flatMap (m.visitMessage m.store.messages.size) ↔
      ∃ root ∈ roots, ReflTransGen m.NestedIn s root := by
  have hlive : ∀ root ∈ roots, m.LiveMessage root :=
    fun root hroot => ⟨root, hroots hroot, .refl⟩
  simp only [List.mem_flatMap, List.mem_reverse]
  exact exists_congr fun root => and_congr_right fun hroot =>
    h.mem_visitMessage_iff (hlive root hroot)

/-- Exactly the live messages are visited. -/
theorem mem_visitedMessages {r : MessageRef} : r ∈ m.visitedMessages ↔ m.LiveMessage r :=
  h.mem_flatMap_visitMessage (List.Subset.refl _)

/-- Exactly the live enumerations are visited. -/
theorem mem_visitedEnums {r : EnumRef} : r ∈ m.visitedEnums ↔ m.LiveEnum r := by
  simp only [visitedEnums, List.mem_append, List.mem_flatMap, h.mem_visitedMessages, LiveEnum]

end FiniteNesting

/-! ## The descent is a loop over a stack -/

/-- How far the messages and enumerations of a model are collected. -/
structure Collecting where
  /-- The index of the messages that were visited. -/
  messageById : Index MessageRef
  /-- The enumerations that were found. -/
  enums : List EnumRef
  /-- The messages on the stack, with the top at the end. -/
  stack : List MessageRef

/-- What is collected once given messages are visited, with given ones left on the stack. -/
def Collecting.visit (m : Model) (c : Collecting) (visited stack : List MessageRef) :
    Collecting where
  messageById := visited.foldl (fun index r => index.insert (m.message r).id r) c.messageById
  enums := c.enums ++ visited.flatMap fun r => (m.message r).enums
  stack := stack

/-- The next step of the loop: the message on top is indexed, the enumerations nested in it are
noted, and the messages nested in it take its place. An empty stack ends the loop. -/
def collectNext? (m : Model) (c : Collecting) : Option Collecting :=
  c.stack.getLast?.map fun r => c.visit m [r] (c.stack.dropLast ++ (m.message r).messages)

/-- Visiting messages and then others is visiting all of them. -/
theorem Collecting.visit_visit (c : Collecting) (xs ys stack stack' : List MessageRef) :
    (c.visit m xs stack).visit m ys stack' = c.visit m (xs ++ ys) stack' := by
  simp only [Collecting.visit, List.foldl_append, List.flatMap_append, List.append_assoc]

/-- If each of the messages on top is visited in a way of its own, they are visited from the last to
the first. -/
theorem reaches_collectNext?_flatMap {roots : List MessageRef} {f : MessageRef → List MessageRef}
    (h : ∀ r ∈ roots, ∀ (c : Collecting) (below : List MessageRef), c.stack = below ++ [r] →
      StateTransition.Reaches m.collectNext? c (c.visit m (f r) below))
    (c : Collecting) (below : List MessageRef) (hstack : c.stack = below ++ roots) :
    StateTransition.Reaches m.collectNext? c (c.visit m (roots.reverse.flatMap f) below) := by
  induction roots using List.reverseRecOn generalizing c with
  | nil =>
    have hsame : c.visit m [] below = c := by
      rw [Collecting.visit, List.flatMap_nil, List.append_nil, List.foldl_nil]
      rw [List.append_nil] at hstack
      rw [← hstack]
    rw [List.reverse_nil, List.flatMap_nil, hsame]
    exact .refl
  | append_singleton roots r ih =>
    rw [← List.append_assoc] at hstack
    have htop := h r (List.mem_append_right roots List.mem_cons_self) c _ hstack
    have hrest := ih (fun s hs => h s (List.mem_append_left _ hs))
      (c.visit m (f r) (below ++ roots)) rfl
    rw [Collecting.visit_visit] at hrest
    rw [List.reverse_append, List.reverse_singleton, List.singleton_append, List.flatMap_cons]
    exact htop.trans hrest

namespace FiniteNesting

variable (h : FiniteNesting m)

include h

/-- The loop visits a live message and all that is nested in it, and leaves the stack below. -/
theorem reaches_visitMessage {depth : Nat} {r : MessageRef} (hr : m.LiveMessage r)
    (hdepth : (below m r).card < depth) (c : Collecting) (rest : List MessageRef)
    (hstack : c.stack = rest ++ [r]) :
    StateTransition.Reaches m.collectNext? c (c.visit m (m.visitMessage depth r) rest) := by
  induction depth generalizing r c rest with
  | zero => exact absurd hdepth (Nat.not_lt_zero _)
  | succ depth ih =>
    have htop : c.visit m [r] (rest ++ (m.message r).messages) ∈ m.collectNext? c := by
      rw [collectNext?, hstack, List.getLast?_concat, List.dropLast_concat]
      rfl
    have hinside := reaches_collectNext?_flatMap (f := m.visitMessage depth)
      (fun s hs => ih (hr.nested hs) (by have := h.card_below_lt hr hs; omega))
      (c.visit m [r] (rest ++ (m.message r).messages)) rest rfl
    rw [Collecting.visit_visit] at hinside
    exact .head htop hinside

/-- The loop over the stack of all roots comes to an end. It has indexed the messages in the order
in which they are visited, and has found the enumerations at the top and those nested in what it has
visited. -/
theorem mem_eval_collectNext? :
    (⟨indexBy (fun r => (m.message r).id) m.visitedMessages, m.visitedEnums,
      []⟩ : Collecting) ∈
      StateTransition.eval m.collectNext?
        ⟨Index.empty, m.enums ++ m.externalEnums, m.messages ++ m.externalMessages⟩ := by
  refine StateTransition.mem_eval.2 ⟨?_, rfl⟩
  exact reaches_collectNext?_flatMap (f := m.visitMessage m.store.messages.size)
    (fun r hr =>
      h.reaches_visitMessage ⟨r, hr, .refl⟩ (h.card_below_lt_size ⟨r, hr, .refl⟩))
    _ [] rfl

end FiniteNesting

/-- Exactly the live methods are listed. -/
theorem mem_listedMethods {r : MethodRef} : r ∈ m.listedMethods.map Prod.snd ↔
    m.LiveMethod r := by
  simp [listedMethods, LiveMethod]

/-- The indices of a listing list what is live in it. -/
theorem Indexed.indexesLive (h : Indexed m) (hnesting : FiniteNesting m) : IndexesLive m where
  messages := h.messages ▸ lists_indexBy _ fun _ => hnesting.mem_visitedMessages
  enums := h.enums ▸ lists_indexBy _ fun _ => hnesting.mem_visitedEnums
  services := h.services ▸ lists_indexBy _ fun _ => Iff.rfl
  methods := h.methods ▸ lists_indexBy _ fun _ => mem_listedMethods

/-- If nesting is finite, the full name of a live message is found. -/
theorem FiniteNesting.isSome_messageRef? (h : FiniteNesting m) {r : MessageRef}
    (hr : m.LiveMessage r) :
    (m.buildIndices.messageRef? (m.message r).id).isSome := by
  have hsame := sameListing_buildIndices m
  rw [messageRef?, (indexed_buildIndices m).messages, isSome_get?_indexBy, hsame.visitedMessages]
  exact ⟨r, h.mem_visitedMessages.2 hr, hsame.messageId r⟩

/-! ## Calls -/

namespace FiniteNesting

/-- Nesting stays finite where lists only get shorter. -/
theorem of_subset (h : FiniteNesting m)
    (hroots : other.messages ++ other.externalMessages ⊆ m.messages ++ m.externalMessages)
    (hnested : ∀ r, (other.message r).messages ⊆ (m.message r).messages)
    (hcount : other.store.messages.size = m.store.messages.size) : FiniteNesting other := by
  have hstep : ∀ c p, other.NestedIn c p → m.NestedIn c p := fun c p hc => hnested p hc
  refine ⟨?_, fun r hr => Subrelation.accessible (hstep _ _) (h.ends r (hroots hr))⟩
  rintro r ⟨root, hroot, hbelow⟩
  have hheld := h.held r ⟨root, hroots hroot, ReflTransGen.mono hstep _ _ hbelow⟩
  exact (holds_message_iff hcount).2 hheld

/-- Nesting depends on the listing only. -/
theorem of_sameListing (h : FiniteNesting m) (hsame : SameListing m other) :
    FiniteNesting other := by
  refine h.of_subset ?_ (fun r => ?_) hsame.count
  · rw [hsame.messages, hsame.externalMessages]
    exact List.Subset.refl _
  · rw [hsame.nestedMessages r]
    exact List.Subset.refl _

/-- Nesting stays finite where elements are taken off the lists. -/
theorem of_reduction (h : FiniteNesting m) (hfewer : Reduction m other) : FiniteNesting other := by
  refine h.of_subset ?_ (fun r => (hfewer.nestedMessages r).subset) hfewer.messageCount
  rw [hfewer.externalMessages]
  exact (hfewer.messages.append (List.Sublist.refl _)).subset

/-- Every call keeps nesting finite. -/
theorem call (h : FiniteNesting m) (c : Call) : FiniteNesting (m.call c) := by
  cases c with
  | crossReference =>
    exact h.of_sameListing
      ((sameListing_buildIndices m).trans (sameSource_crossReference m).toSameListing)
  | skip options =>
    rcases call_skip m options with hskip | hskip
    · exact h.of_reduction (reduction_skipElements hskip)
    · rw [hskip]
      exact h
  | applyRules config => exact h.of_sameListing (sameButTexts_applyRules m config).toSameListing
  | patch overrides => exact h.of_sameListing (sameButTexts_patchAll m overrides).toSameListing

end FiniteNesting

/-- The indices after assembly are those of the listing, however far it gets. -/
theorem indexed_crossReference (m : Model) : Indexed m.crossReference.model :=
  (indexed_buildIndices m).of_sameOutline (sameSource_crossReference m).toSameOutline

/-- Every call leaves an indexed model indexed. -/
theorem Indexed.call (h : Indexed m) (c : Call) : Indexed (m.call c) := by
  cases c with
  | crossReference => exact indexed_crossReference m
  | skip options =>
    cases hskip : m.skipElements options with
    | error e =>
      rw [Model.call, hskip]
      exact h
    | ok other =>
      rw [Model.call, hskip]
      rcases skipElements_eq_ok.1 hskip with ⟨-, rfl⟩ | ⟨-, -, rfl⟩
      · exact h
      · exact indexed_buildIndices _
  | applyRules config => exact h.of_sameOutline (sameButTexts_applyRules m config).toSameOutline
  | patch overrides => exact h.of_sameOutline (sameButTexts_patchAll m overrides).toSameOutline

/-- From the first assembly on, every sequence of calls leaves the model indexed. -/
theorem indexed_calls {calls : List Call}
    (hassembled : Indexed m ∨ Call.crossReference ∈ calls) :
    Indexed (calls.foldl call m) := by
  induction calls generalizing m with
  | nil => exact hassembled.resolve_right List.not_mem_nil
  | cons c rest ih =>
    refine ih ?_
    rcases hassembled with hindexed | hmem
    · exact .inl (hindexed.call c)
    · rcases List.mem_cons.1 hmem with rfl | hmem
      · exact .inl (indexed_crossReference m)
      · exact .inr hmem

/-- Every sequence of calls keeps nesting finite. -/
theorem FiniteNesting.calls (h : FiniteNesting m) (calls : List Call) :
    FiniteNesting (calls.foldl Model.call m) := by
  induction calls generalizing m with
  | nil => exact h
  | cons c rest ih => exact ih (h.call c)

/-- From the first assembly on, the indices list what is live, after every sequence of calls, also
of failing ones: their keys are the full names of the live elements, under each stands a live
element of that name, and if names differ they correspond to the live elements. -/
theorem indexesLive_calls (h : FiniteNesting m) {calls : List Call}
    (hassembled : Call.crossReference ∈ calls) : IndexesLive (calls.foldl call m) :=
  (indexed_calls (.inr hassembled)).indexesLive (h.calls calls)

/-- A sound model whose messages are nested by descending rank has finite nesting. -/
theorem Sound.finiteNesting (h : Sound m) {rank : MessageRef → Nat} (hrank : Ranked rank m) :
    FiniteNesting m := by
  refine ⟨?_, fun r _ => hrank.wellFounded.apply r⟩
  rintro r ⟨root, hroot, hbelow⟩
  rcases ReflTransGen.cases_head hbelow with rfl | ⟨p, hnested, -⟩
  · obtain ⟨n, hslot⟩ := h.roster.messages _ hroot
    exact hasMessage_iff_holds.1 ⟨_, hslot⟩
  · obtain ⟨n, hslot⟩ := (h.messageSound p).messages r hnested
    exact hasMessage_iff_holds.1 ⟨_, hslot⟩

/-- A model that was read has finite nesting. -/
theorem Parsed.finiteNesting (h : Parsed m) : FiniteNesting m := by
  obtain ⟨⟨before, hbuilt⟩, rank, hrank, -⟩ := h.built
  exact hbuilt.toSound.finiteNesting hrank

/-- The model of the shelves has finite nesting, and after the calls on it its indices list what is
live. -/
theorem indexesLive_calls_shelves :
    ∃ m, Descriptor.FileSet.model ⟨[shelves]⟩ none [] = .ok m ∧ FiniteNesting m ∧
      Call.crossReference ∈ shelfCalls ∧ IndexesLive (shelfCalls.foldl call m) := by
  have hok : (Descriptor.FileSet.model ⟨[shelves]⟩ none []).isOk = true := by decide +kernel
  cases hm : Descriptor.FileSet.model ⟨[shelves]⟩ none [] with
  | error e =>
    rw [hm] at hok
    cases hok
  | ok m =>
    have hnesting := (Parsed.descriptor hm).finiteNesting
    have hassembled : Call.crossReference ∈ shelfCalls := List.mem_cons_self
    exact ⟨m, rfl, hnesting, hassembled, indexesLive_calls hnesting hassembled⟩

end Model

end ApiModel
