import ApiModel.Proofs.Graph.Generated
import ApiModel.Proofs.Graph.Retention
import ApiModel.Proofs.Identity
import ApiModel.Proofs.Selection.Patterns

/-!
# What a selection leaves

A selection whose patterns are all full names leaves exactly this of a model: the generated messages
that are not skipped, in no skipped message and below an included root, in their order; the
enumerations at the top that are kept and the ones nested in those messages that are not skipped;
and of the services the ones that are included or have an included method, with the methods that are
not skipped. Everything else stays as it was but for the indices and the services of methods. A
pattern that is no full name is an error, which leaves the model untouched.
-/

namespace ApiModel

open Model Relation IdFilter

namespace Model

/-- Whether nesting is finite and the generated messages are a forest. -/
structure GeneratedForest (m : Model) : Prop extends FiniteNesting m where
  /-- A root is nested in no generated message. -/
  roots : ∀ r ∈ m.messages, ∀ p, m.Generated p → ¬m.NestedIn r p
  /-- No message is nested directly in two generated ones. -/
  owners : ∀ c p q, m.Generated p → m.Generated q → m.NestedIn c p →
    m.NestedIn c q → p = q

variable {m : Model}

namespace GeneratedForest

variable (h : GeneratedForest m)

include h

/-- A root lies below no generated message but itself. -/
theorem eq_of_root {r p : MessageRef} (hr : r ∈ m.messages) (hp : m.Generated p)
    (hrp : ReflTransGen m.NestedIn r p) : p = r := by
  rcases ReflTransGen.cases_head hrp with rfl | ⟨q, hq, hqp⟩
  · rfl
  · exact absurd hq (h.roots r hr q (hp.below hqp))

/-- What is generated around a nested message is the message itself or around the one it is nested
in. -/
theorem around_nested {c r p : MessageRef} (hr : m.Generated r) (hc : m.NestedIn c r)
    (hp : m.Generated p) (hcp : ReflTransGen m.NestedIn c p) :
    p = c ∨ ReflTransGen m.NestedIn r p := by
  rcases ReflTransGen.cases_head hcp with rfl | ⟨q, hq, hqp⟩
  · exact .inl rfl
  · rw [h.owners c r q hr (hp.below hqp) hc hq]
    exact .inr hqp

end GeneratedForest

end Model

namespace Selection

/-! ## What stays -/

/-- Whether a generated message stays: it and what is around it is not skipped, and its root is
included. -/
def StaysMessage (s : Selection) (m : Model) (r : MessageRef) : Prop :=
  (∀ p, m.Generated p → ReflTransGen m.NestedIn r p →
    ¬s.skipped.Matches (m.message p).id) ∧
    ∀ root ∈ m.messages, ReflTransGen m.NestedIn r root → s.Includes (m.message root).id

/-- Whether a method stays in a service that stays: it is not skipped, and the service or the method
itself is included. -/
def StaysMethod (s : Selection) (m : Model) (service : ServiceRef) (r : MethodRef) : Prop :=
  ¬s.skipped.Matches (m.method r).id ∧
    (s.Includes (m.service service).id ∨ s.included.Matches (m.method r).id)

instance (s : Selection) (m : Model) (service : ServiceRef) (r : MethodRef) :
    Decidable (s.StaysMethod m service r) :=
  inferInstanceAs (Decidable (_ ∧ _))

/-- Whether a service stays: it is not skipped, and it or a method of it that is not skipped is
included. -/
def StaysService (s : Selection) (m : Model) (r : ServiceRef) : Prop :=
  ¬s.skipped.Matches (m.service r).id ∧
    (s.Includes (m.service r).id ∨ ∃ c ∈ (m.service r).methods,
      ¬s.skipped.Matches (m.method c).id ∧ s.included.Matches (m.method c).id)

instance (s : Selection) (m : Model) (r : ServiceRef) : Decidable (s.StaysService m r) :=
  inferInstanceAs (Decidable (_ ∧ _))

open Classical in
/-- Whether a model is what a selection leaves of another. -/
structure LeavesExactly (s : Selection) (m other : Model) : Prop where
  /-- The same identity. -/
  identity : SameIdentity m other
  /-- The generated messages that stay, in their order. -/
  allMessages : other.allMessages = m.allMessages.filter fun r => s.StaysMessage m r
  /-- These are all that are generated. -/
  generated : ∀ r, r ∈ other.allMessages ↔ other.Generated r
  /-- The roots of them. -/
  messages : other.messages = m.messages.filter fun r =>
    ¬s.skipped.Matches (m.message r).id ∧ s.Includes (m.message r).id
  /-- The enumerations at the top that are included and not skipped. -/
  enums : other.enums = m.enums.filter fun r =>
    ¬s.skipped.Matches (m.enumeration r).id ∧ s.Includes (m.enumeration r).id
  /-- Those, and in the messages that stay the ones that are not skipped. -/
  allEnums : other.allEnums = other.enums ++
    (m.allMessages.filter fun r => s.StaysMessage m r).flatMap fun r =>
      (m.message r).enums.filter fun c => ¬s.skipped.Matches (m.enumeration c).id
  /-- The services that stay. -/
  services : other.services = m.services.filter fun r => s.StaysService m r
  /-- The same external messages. -/
  externalMessages : other.externalMessages = m.externalMessages
  /-- The same external enumerations. -/
  externalEnums : other.externalEnums = m.externalEnums
  /-- As many elements in the store. -/
  counts : other.store.messages.size = m.store.messages.size ∧
    other.store.enums.size = m.store.enums.size ∧
    other.store.services.size = m.store.services.size ∧
    other.store.methods.size = m.store.methods.size
  /-- Every message, without what is skipped among what is nested in it. -/
  message : ∀ r, other.message r =
    { m.message r with
      messages := (m.message r).messages.filter fun c => ¬s.skipped.Matches (m.message c).id
      enums := (m.message r).enums.filter fun c => ¬s.skipped.Matches (m.enumeration c).id }
  /-- Every enumeration. -/
  enumeration : ∀ r, other.enumeration r = m.enumeration r
  /-- Every service, with the methods that stay if it stays itself. -/
  service : ∀ r, other.service r =
    if r ∈ other.services then
      { m.service r with methods := (m.service r).methods.filter fun c => s.StaysMethod m r c }
    else m.service r
  /-- Every method, with the service that lists it last, if one does. -/
  method : ∀ r, methodArena.Holds m r → other.method r =
    owned other.listedMethods r (m.method r)
  /-- The indices list what is live. -/
  indices : IndexesLive other

variable {s : Selection} {m other : Model}

/-! ## Services -/

/-- The methods that stay in a service are those that the selection keeps. -/
theorem keptMethods_eq (s : Selection) (m : Model) (r : ServiceRef) :
    s.keptMethods m (m.service r) = (m.service r).methods.filter fun c => s.StaysMethod m r c := by
  refine List.filter_congr fun c _ => Bool.eq_iff_iff.2 ?_
  rw [Bool.and_eq_true, Bool.or_eq_true, Bool.not_eq_true', covers_eq_false_iff, includes_iff,
    covers_iff, decide_eq_true_iff, StaysMethod]

/-- The services that stay are those that the selection keeps. -/
theorem keepsService_iff {r : ServiceRef} :
    s.keepsService m (m.service r) = true ↔ s.StaysService m r := by
  rw [keepsService, Bool.and_eq_true, Bool.not_eq_true', covers_eq_false_iff, Bool.or_eq_true,
    includes_iff, StaysService]
  refine and_congr_right fun _ => or_congr_right' fun hout => ?_
  rw [Bool.not_eq_true', List.isEmpty_eq_false_iff_exists_mem]
  refine exists_congr fun c => ?_
  rw [keptMethods_eq, List.mem_filter, decide_eq_true_iff, StaysMethod, or_iff_right hout]

/-- The methods of a service that are kept are all kept again. -/
theorem keptMethods_keptMethods (s : Selection) (m : Model) (x : Service) :
    s.keptMethods m { x with methods := s.keptMethods m x } = s.keptMethods m x := by
  rw [keptMethods, keptMethods, List.filter_filter]
  exact List.filter_congr fun c _ => Bool.and_self _

/-- Pruning a service changes that service. -/
theorem service_pruneService (s : Selection) (m : Model) (r t : ServiceRef) :
    (s.pruneService m t).service r =
      if r = t then { m.service r with methods := s.keptMethods m (m.service r) }
        else m.service r := by
  split
  case isTrue hr =>
    subst hr
    by_cases hheld : serviceArena.Holds m r
    · exact serviceArena.get_modify_self hheld _
    · have hblank : m.service r = default := serviceArena.get_of_not_holds hheld
      have hlast : ¬serviceArena.Holds (s.pruneService m r) r :=
        (serviceArena.holds_modify m r r _).not.2 hheld
      have hstays : (s.pruneService m r).service r = default := serviceArena.get_of_not_holds hlast
      rw [hstays, hblank]
      rfl
  case isFalse hr => exact serviceArena.get_modify_of_ne m hr _

/-- Pruning services one after the other prunes each of them. -/
theorem service_foldl_pruneService (s : Selection) (services : List ServiceRef) (m : Model)
    (r : ServiceRef) :
    (services.foldl s.pruneService m).service r =
      if r ∈ services then { m.service r with methods := s.keptMethods m (m.service r) }
      else m.service r := by
  induction services generalizing m with
  | nil => rw [List.foldl_nil, if_neg List.not_mem_nil]
  | cons t rest ih =>
    have hkept : ∀ x, s.keptMethods (s.pruneService m t) x = s.keptMethods m x := fun _ => rfl
    rw [List.foldl_cons, ih, hkept, service_pruneService]
    by_cases hr : r = t
    · rw [if_pos hr, keptMethods_keptMethods, ite_self, if_pos (List.mem_cons.2 (.inl hr))]
    · rw [if_neg hr]
      simp only [List.mem_cons, hr, false_or]

/-- Pruning services puts other services into the store and changes nothing else. -/
theorem exists_foldl_pruneService (s : Selection) (services : List ServiceRef) (m : Model) :
    ∃ xs, services.foldl s.pruneService m = serviceArena.replace m xs := by
  induction services generalizing m with
  | nil => exact ⟨m.store.services, rfl⟩
  | cons t rest ih =>
    obtain ⟨xs, hxs⟩ := ih (s.pruneService m t)
    exact ⟨xs, hxs⟩

/-! ## Lists and elements -/

/-- The lists and elements that a selection leaves, before the indices are built. -/
def pruned (s : Selection) (m : Model) : Model :=
  (s.prunedLists m).services.foldl s.pruneService (s.prunedLists m)

/-- Pruning the services of a model changes nothing else. -/
theorem exists_pruned (s : Selection) (m : Model) :
    ∃ xs, s.pruned m = serviceArena.replace (s.prunedLists m) xs :=
  s.exists_foldl_pruneService _ _

/-- What is left has the listing of the pruned model. -/
theorem sameListing_pruned (s : Selection) (m : Model) : SameListing (s.pruned m) (s.apply m) :=
  sameListing_buildIndices (s.pruned m)

/-- The services that are listed before they are pruned are listed after it. -/
theorem services_prunedLists (s : Selection) (m : Model) :
    (s.apply m).services = (s.prunedLists m).services := by
  obtain ⟨xs, hpruned⟩ := s.exists_pruned m
  rw [(s.sameListing_pruned m).services, hpruned]
  rfl

/-- The services that are left are those that stay. -/
theorem services_apply (s : Selection) (m : Model) :
    (s.apply m).services = m.services.filter fun r => s.StaysService m r := by
  rw [services_prunedLists]
  refine List.filter_congr fun r _ => ?_
  exact Bool.eq_iff_iff.2 (keepsService_iff.trans decide_eq_true_iff.symm)

/-- A service that stays has the methods that stay, and another one all its methods. -/
theorem service_apply (s : Selection) (m : Model) (r : ServiceRef) :
    (s.apply m).service r =
      if r ∈ (s.apply m).services then
        { m.service r with methods := (m.service r).methods.filter fun c => s.StaysMethod m r c }
      else m.service r := by
  have happly : s.apply m = (s.pruned m).buildIndices := rfl
  have hservice : (s.apply m).service r = (s.pruned m).service r := by
    rw [happly, buildIndices_eq]
    rfl
  rw [hservice, services_prunedLists, ← keptMethods_eq]
  exact s.service_foldl_pruneService _ _ r

/-- A method has the service that is the last to list it. -/
theorem method_apply (s : Selection) {m : Model} {r : MethodRef} (hr : methodArena.Holds m r) :
    (s.apply m).method r = owned (s.apply m).listedMethods r (m.method r) := by
  obtain ⟨xs, hpruned⟩ := s.exists_pruned m
  have happly : s.apply m = (s.pruned m).buildIndices := rfl
  have hmethods : (s.pruned m).withIndices.store.methods = m.store.methods := by
    rw [hpruned]
    rfl
  have hheld : methodArena.Holds (s.pruned m).withIndices r :=
    (holds_method_iff (congrArg Array.size hmethods)).2 hr
  have hmethod : methodArena.get (s.pruned m).withIndices r = m.method r :=
    congrArg (fun methods : Array Method => methods.getD r.index default) hmethods
  rw [(s.sameListing_pruned m).listedMethods, happly, buildIndices_eq, ← hmethod]
  exact methodArena.get_map hheld _

/-- A message without its nested elements that are skipped. -/
theorem message_apply (s : Selection) (m : Model) (r : MessageRef) :
    (s.apply m).message r =
      { m.message r with
        messages := (m.message r).messages.filter fun c => ¬s.skipped.Matches (m.message c).id
        enums := (m.message r).enums.filter fun c =>
          ¬s.skipped.Matches (m.enumeration c).id } := by
  obtain ⟨xs, hpruned⟩ := s.exists_pruned m
  have hcovers : ∀ id, (!s.skipped.covers id) = decide (¬s.skipped.Matches id) := fun id =>
    Bool.eq_iff_iff.2 (by rw [Bool.not_eq_true', covers_eq_false_iff, decide_eq_true_iff])
  have happly : s.apply m = (s.pruned m).buildIndices := rfl
  have hmessage : (s.apply m).message r = (s.prunedLists m).message r := by
    rw [happly, buildIndices_eq, hpruned]
    rfl
  rw [hmessage, message_prunedLists, pruneMessage]
  simp only [hcovers]

/-- The elements at the top are those that are included and not skipped. -/
theorem filter_keeps {ref : Type} (s : Selection) (id : ref → String) (refs : List ref) :
    (refs.filter fun r => s.keeps (id r)) =
      refs.filter fun r => ¬s.skipped.Matches (id r) ∧ s.Includes (id r) :=
  List.filter_congr fun _ _ => Bool.eq_iff_iff.2 (keeps_iff.trans decide_eq_true_iff.symm)

/-! ## Generated messages -/

/-- What is around a message that stays, stays. -/
theorem StaysMessage.above {r p : MessageRef} (h : s.StaysMessage m r)
    (hr : ReflTransGen m.NestedIn r p) : s.StaysMessage m p :=
  ⟨fun q hq hpq => h.1 q hq (hr.trans hpq), fun root hroot hp => h.2 root hroot (hr.trans hp)⟩

section Forest

variable (h : GeneratedForest m)

include h

/-- A root stays if it is included and not skipped. -/
theorem staysMessage_root {r : MessageRef} (hr : r ∈ m.messages) :
    s.StaysMessage m r ↔ ¬s.skipped.Matches (m.message r).id ∧
    s.Includes (m.message r).id := by
  constructor
  · intro hstays
    exact ⟨hstays.1 r (generated_of_mem hr) .refl, hstays.2 r hr .refl⟩
  · rintro ⟨hskipped, hincluded⟩
    refine ⟨fun p hp hrp => ?_, fun root hroot hrp => ?_⟩
    · rw [h.eq_of_root hr hp hrp]
      exact hskipped
    · rw [h.eq_of_root hr (generated_of_mem hroot) hrp]
      exact hincluded

/-- A message that is nested in one that stays stays if it is not skipped. -/
theorem staysMessage_nested {r c : MessageRef} (hr : m.Generated r) (hstays : s.StaysMessage m r)
    (hc : m.NestedIn c r) : s.StaysMessage m c ↔ ¬s.skipped.Matches (m.message c).id := by
  have hgenerated := hr.below (.single hc)
  constructor
  · intro hnested
    exact hnested.1 c hgenerated .refl
  · intro hskipped
    refine ⟨fun p hp hcp => ?_, fun root hroot hcp => ?_⟩
    · rcases h.around_nested hr hc hp hcp with rfl | hrp
      · exact hskipped
      · exact hstays.1 p hp hrp
    · rcases h.around_nested hr hc (generated_of_mem hroot) hcp with rfl | hrp
      · exact absurd hc (h.roots root hroot r hr)
      · exact hstays.2 root hroot hrp

omit h in
open Classical in
/-- Nothing stays below a message that does not stay. -/
theorem filter_subtree_eq_nil {r : MessageRef} (hr : ¬s.StaysMessage m r) (depth : Nat) :
    ((m.subtree depth r).filter fun x => s.StaysMessage m x) = [] := by
  refine List.filter_eq_nil_iff.2 fun x hx hstays => hr ?_
  exact (of_decide_eq_true hstays).above (nestedIn_of_mem_subtree hx)

omit h in
/-- Going on from the starts that stay comes to the same as going on from all and dropping what does
not stay, if nothing stays below the others. -/
theorem flatMap_filter_of_eq_nil {α β : Type} {starts : List α} {stays : α → Bool}
    {after before : α → List β}
    (hstays : ∀ x ∈ starts, stays x = true → after x = before x)
    (hleft : ∀ x ∈ starts, stays x = false → before x = []) :
    (starts.filter stays).flatMap after = starts.flatMap before := by
  induction starts with
  | nil => rfl
  | cons x rest ih =>
    have htail := ih (fun y hy => hstays y (List.mem_cons_of_mem x hy))
      fun y hy => hleft y (List.mem_cons_of_mem x hy)
    cases hx : stays x with
    | true =>
      rw [List.filter_cons_of_pos hx, List.flatMap_cons, List.flatMap_cons, htail,
        hstays x List.mem_cons_self hx]
    | false =>
      rw [List.filter_cons_of_neg (Bool.not_eq_true _ ▸ hx), List.flatMap_cons, htail,
        hleft x List.mem_cons_self hx, List.nil_append]

open Classical in
/-- A selection leaves below a message that stays all that stays. -/
theorem subtree_apply {r : MessageRef} (hr : m.Generated r) (hstays : s.StaysMessage m r)
    (depth : Nat) :
    (s.apply m).subtree depth r = (m.subtree depth r).filter fun x => s.StaysMessage m x := by
  induction depth generalizing r with
  | zero => rfl
  | succ depth ih =>
    have hself : decide (s.StaysMessage m r) = true := decide_eq_true hstays
    rw [subtree, subtree, List.filter_cons, if_pos hself, List.filter_flatMap, message_apply]
    refine congrArg (r :: ·)
      (flatMap_filter_of_eq_nil (fun c hc hskipped => ?_) fun c hc hskipped => ?_)
    · have hnested := (staysMessage_nested h hr hstays hc).2 (of_decide_eq_true hskipped)
      exact ih (hr.below (.single hc)) hnested
    · refine filter_subtree_eq_nil (fun hnested => ?_) depth
      exact of_decide_eq_false hskipped ((staysMessage_nested h hr hstays hc).1 hnested)

open Classical in
/-- A selection leaves of the generated messages those that stay. -/
theorem allMessages_apply :
    (s.apply m).allMessages = m.allMessages.filter fun r => s.StaysMessage m r := by
  have hdepth : (s.apply m).depthBound = m.depthBound := (s.reduction_apply m).messageCount
  rw [allMessages, allMessages, List.filter_flatMap, hdepth, (filtered_apply s m).messages]
  refine flatMap_filter_of_eq_nil (fun r hr hkept => ?_) fun r hr hkept => ?_
  · have hstays := (staysMessage_root h hr).2 (keeps_iff.1 hkept)
    exact subtree_apply h (generated_of_mem hr) hstays _
  · refine filter_subtree_eq_nil (fun hstays => ?_) _
    exact Bool.eq_false_iff.1 hkept (keeps_iff.2 ((staysMessage_root h hr).1 hstays))

/-- A selection leaves what stays. -/
theorem leavesExactly_apply : s.LeavesExactly m (s.apply m) where
  identity := s.sameIdentity_apply m
  allMessages := allMessages_apply h
  generated _ := (h.toFiniteNesting.of_reduction (s.reduction_apply m)).mem_allMessages
  messages := (filtered_apply s m).messages.trans (s.filter_keeps _ _)
  enums := (filtered_apply s m).enums.trans (s.filter_keeps _ _)
  allEnums := by
    rw [allEnums, allMessages_apply h]
    refine congrArg (_ ++ ·) (List.flatMap_congr fun r _ => ?_)
    rw [message_apply]
  services := s.services_apply m
  externalMessages := (filtered_apply s m).externalMessages
  externalEnums := (filtered_apply s m).externalEnums
  counts := by
    have hfewer := s.reduction_apply m
    exact ⟨hfewer.messageCount, hfewer.enumCount, hfewer.serviceCount, hfewer.methodCount⟩
  message := s.message_apply m
  enumeration := (s.reduction_apply m).enumeration
  service := s.service_apply m
  method _ hr := s.method_apply hr
  indices := by
    have hfinite := h.toFiniteNesting.of_reduction (s.reduction_apply m)
    exact (indexed_buildIndices (s.pruned m)).indexesLive hfinite

end Forest

end Selection

namespace Model

open Selection

variable {m : Model}

/-- The generated messages of a model that was read are a forest, whatever calls follow. -/
theorem Parsed.generatedForest (h : Parsed m) (calls : List Call) :
    GeneratedForest (calls.foldl call m) := by
  obtain ⟨⟨before, hbuilt⟩, rank, hrank, -⟩ := h.built
  have hsound := (sound_calls hbuilt.toSound hrank calls).1
  exact {
    h.finiteNesting.calls calls with
    roots := fun r hr p _ => hsound.not_nestedIn_of_root (List.mem_append_left _ hr)
    owners := fun c p q _ _ hp hq => hsound.nestedIn_unique hp hq }

/-- If the options skip or include anything, skipping fails on a pattern that is no full name, tells
it and the option, and leaves the model as it is; and if all patterns are full names it succeeds,
and leaves exactly what the selection leaves. -/
theorem skipElements_exact (h : GeneratedForest m) (options : SourceOptions)
    (hasked : (ofOptions options).skipped.patterns ≠ [] ∨
      (ofOptions options).included.patterns ≠ []) :
    let s := ofOptions options
    ((∃ pattern ∈ s.skipped.patterns ++ s.included.patterns, ¬Qualified pattern) →
      ∃ key pattern, ¬Qualified pattern ∧
        (key = SourceOptions.skippedIds ∧ pattern ∈ s.skipped.patterns ∨
          key = SourceOptions.includedIds ∧ pattern ∈ s.included.patterns) ∧
        m.skipElements options =
          .error
            (.config (key ++ ": " ++ Text.quoted pattern ++ " is not a fully-qualified ID")) ∧
        m.call (.skip options) = m) ∧
    ((∀ pattern ∈ s.skipped.patterns ++ s.included.patterns, Qualified pattern) →
      ∃ other, m.skipElements options = .ok other ∧ m.call (.skip options) = other ∧
        s.LeavesExactly m other) := by
  intro s
  have hsome : s.isEmpty = false := by
    rw [Selection.isEmpty, Bool.and_eq_false_iff, ← Bool.not_eq_true, ← Bool.not_eq_true,
      isEmpty_iff_patterns, isEmpty_iff_patterns]
    exact hasked
  constructor
  · rintro ⟨pattern, hmem, hbad⟩
    cases hfault : s.fault? with
    | none => exact absurd (fault?_eq_none.1 hfault pattern hmem) hbad
    | some e =>
      obtain ⟨key, pattern, rfl, hbad, hlisted⟩ := of_fault? hfault
      have herror : m.skipElements options = .error (unqualified key pattern) := by
        change (if s.isEmpty then _ else _) = _
        rw [hsome, hfault]
        rfl
      refine ⟨key, pattern, hbad, hlisted, herror, ?_⟩
      rw [call, herror]
  · intro hqualified
    have hok : m.skipElements options = .ok (s.apply m) :=
      skipElements_eq_ok.2 (.inr ⟨hsome, fault?_eq_none.2 hqualified, rfl⟩)
    refine ⟨s.apply m, hok, ?_, leavesExactly_apply h⟩
    rw [call, hok]

/-- Options that skip the texts of one list and include those of another. -/
def selecting (skipped included : String) : SourceOptions :=
  (Index.empty.insert SourceOptions.skippedIds skipped).insert SourceOptions.includedIds included

/-- Selecting from the shelves leaves them without what is nested in them, and with their method; a
pattern without the dot at its beginning is an error. -/
theorem skipElements_exact_shelves :
    ∃ m, Descriptor.FileSet.model ⟨[shelves]⟩ none [] = .ok m ∧ GeneratedForest m ∧
      (∃ other, m.skipElements (selecting ".lib.Shelf.*" ".lib.Shelf,.lib.Library.Read") =
        .ok other ∧
        (ofOptions (selecting ".lib.Shelf.*" ".lib.Shelf,.lib.Library.Read")).LeavesExactly m
          other) ∧
      ∃ text, m.skipElements (selecting ".lib.Shelf.*" "lib.Shelf") = .error (.config text) ∧
        m.call (.skip (selecting ".lib.Shelf.*" "lib.Shelf")) = m := by
  have hread : (Descriptor.FileSet.model ⟨[shelves]⟩ none []).toOption.any
      (fun _ => true) = true := by
    decide +kernel
  obtain ⟨m, hm, -⟩ := Attempt.exists_ok_of_any hread
  have hforest : GeneratedForest m := (Parsed.descriptor hm).generatedForest []
  have hnames :
    (ofOptions (selecting ".lib.Shelf.*" ".lib.Shelf,.lib.Library.Read")).skipped.patterns ++
      (ofOptions (selecting ".lib.Shelf.*" ".lib.Shelf,.lib.Library.Read")).included.patterns =
        [".lib.Shelf.*", ".lib.Shelf", ".lib.Library.Read"] := by decide +kernel
  have hgood : ∀ pattern ∈ [".lib.Shelf.*", ".lib.Shelf", ".lib.Library.Read"],
      Qualified pattern := by
    simp only [List.forall_mem_cons, Qualified]
    exact ⟨⟨"lib.Shelf.*", rfl⟩, ⟨"lib.Shelf", rfl⟩,
      ⟨"lib.Library.Read", rfl⟩, by simp⟩
  obtain ⟨other, hother, -, hleaves⟩ := (skipElements_exact hforest
    (selecting ".lib.Shelf.*" ".lib.Shelf,.lib.Library.Read") (.inl (by decide +kernel))).2
      (hnames ▸ hgood)
  have hbad : ¬Qualified "lib.Shelf" := fun h =>
    absurd (Text.beginsWith_iff.2 h) (by decide +kernel)
  obtain ⟨key, pattern, -, -, herror, hstays⟩ := (skipElements_exact hforest
    (selecting ".lib.Shelf.*" "lib.Shelf") (.inl (by decide +kernel))).1
      ⟨"lib.Shelf", by decide +kernel, hbad⟩
  exact ⟨m, hm, hforest, ⟨other, hother, hleaves⟩, _, herror, hstays⟩

end Model

end ApiModel
