import ApiModel.Proofs.Graph.Ownership
import ApiModel.Proofs.Selection.Resolution

/-!
# Skipping twice

Skipping some names and then others comes to skipping all of them at once, but for one thing: a
service that the first pass keeps loses the methods that it skips, and keeps this shorter list where
the second pass takes the service itself off the lists. A pass over all names leaves such a service
in the store as it was. Nothing that is listed can tell the difference, so skipping the same names
again changes nothing.
-/

namespace ApiModel

open Model IdFilter

/-! ## Models with the same contents -/

namespace Model

/-- Whether two models have one identity, the same lists and the same elements. -/
structure SameContents (m other : Model) : Prop where
  /-- The same identity. -/
  identity : SameIdentity m other
  /-- The same generated messages. -/
  messages : other.messages = m.messages
  /-- The same generated enumerations. -/
  enums : other.enums = m.enums
  /-- The same services. -/
  services : other.services = m.services
  /-- The same external messages. -/
  externalMessages : other.externalMessages = m.externalMessages
  /-- The same external enumerations. -/
  externalEnums : other.externalEnums = m.externalEnums
  /-- The same messages in the store. -/
  storedMessages : other.store.messages = m.store.messages
  /-- The same enumerations in the store. -/
  storedEnums : other.store.enums = m.store.enums
  /-- The same services in the store. -/
  storedServices : other.store.services = m.store.services
  /-- The same methods in the store. -/
  storedMethods : other.store.methods = m.store.methods

variable {m other : Model}

/-- Models of the same contents have the same listing. -/
theorem SameContents.sameListing (h : SameContents m other) : SameListing m other where
  messages := h.messages
  enums := h.enums
  services := h.services
  externalMessages := h.externalMessages
  externalEnums := h.externalEnums
  count := congrArg Array.size h.storedMessages
  message r := by rw [message, message, h.storedMessages]
  enumeration r := by rw [enumeration, enumeration, h.storedEnums]
  service r := by rw [service, service, h.storedServices]
  method r := by rw [method, method, h.storedMethods]

/-- Indices that are those of the listing are told by it. -/
theorem SameListing.sameOutline (h : SameListing m other) (hm : Indexed m)
    (hother : Indexed other) :
    SameOutline m other where
  toSameListing := h
  messageById := by
    rw [hother.messages, hm.messages, h.visitedMessages]
    exact indexBy_congr fun r _ => h.messageId r
  enumById := by
    rw [hother.enums, hm.enums, h.visitedEnums]
    exact indexBy_congr fun r _ => h.enumeration r
  serviceById := by
    rw [hother.services, hm.services, h.services]
    exact indexBy_congr fun r _ => h.serviceId r
  methodById := by
    rw [hother.methods, hm.methods, h.listedMethods]
    exact indexBy_congr fun r _ => h.method r

/-- Indexed models with the same contents are the same. -/
theorem SameContents.eq (h : SameContents m other) (hm : Indexed m) (hother : Indexed other) :
    other = m := by
  obtain ⟨hlisting, hmessages, henums, hservices, hmethods⟩ :=
    h.sameListing.sameOutline hm hother
  obtain ⟨⟨hname, hpackage, htitle, hdescription⟩, hroots, htops, hlisted, hexternal,
    hexternalEnums, hstoredMessages, hstoredEnums, hstoredServices, hstoredMethods⟩ := h
  have hstore : other.store = m.store := by
    change Store.mk other.store.messages other.store.enums other.store.services other.store.methods
      other.store.messageById other.store.enumById other.store.serviceById other.store.methodById =
        _
    rw [hstoredMessages, hstoredEnums, hstoredServices, hstoredMethods, hmessages,
      henums, hservices, hmethods]
  change Model.mk other.name other.packageName other.title other.description other.services
    other.messages
    other.enums other.externalMessages other.externalEnums other.store = _
  rw [hname, hpackage, htitle, hdescription, hlisted, hroots, htops, hexternal,
    hexternalEnums, hstore]

/-- Whether every method is listed by at most one of the listed services. -/
def ListedOnce (m : Model) : Prop :=
  ∀ s ∈ m.services, ∀ t ∈ m.services, ∀ r ∈ (m.service s).methods,
    r ∈ (m.service t).methods → s = t

/-- A method is listed with each service that lists it. -/
theorem mem_listedMethods_iff {s : ServiceRef} {r : MethodRef} :
    (s, r) ∈ m.listedMethods ↔ s ∈ m.services ∧ r ∈ (m.service s).methods := by
  simp [listedMethods]

namespace ListedOnce

variable (h : ListedOnce m)

include h

/-- Fewer services with fewer methods list a method at most once. -/
theorem of_reduction (hreduced : Reduction m other) : ListedOnce other :=
  fun s hs t ht r hr hrt => h s (hreduced.services.subset hs) t (hreduced.services.subset ht) r
    ((hreduced.methods s).subset hr) ((hreduced.methods t).subset hrt)

/-- A method of an indexed model knows the only service that lists it, so that fewer links tell it
nothing new. -/
theorem owned_eq_self (hindices : m.buildIndices = m) (hreduced : Reduction m other) {r : MethodRef}
    (hr : methodArena.Holds m r) : owned other.listedMethods r (m.method r) = m.method r := by
  refine Model.owned_eq_self.2 ?_
  cases hlast : lastOwner? other.listedMethods r with
  | none => rfl
  | some t =>
    have hlisted := hreduced.listedMethods.subset (mem_of_lastOwner? hlast)
    obtain ⟨s, hfirst⟩ := exists_lastOwner? (List.mem_map_of_mem hlisted)
    obtain ⟨ht, hrt⟩ := mem_listedMethods_iff.1 hlisted
    obtain ⟨hs, hrs⟩ := mem_listedMethods_iff.1 (mem_of_lastOwner? hfirst)
    obtain rfl := h s hs t ht r hrs hrt
    rw [← hfirst]
    exact Model.owned_eq_self.1 (owned_of_buildIndices_eq hindices hr)

end ListedOnce

end Model

/-! ## One pass -/

namespace Selection

/-- Whether a model is what is left of another when some names are skipped, and nothing else is
selected. -/
structure SkipsExactly (skipped : IdFilter) (m other : Model) : Prop where
  /-- The same identity. -/
  identity : SameIdentity m other
  /-- The generated messages that are not skipped. -/
  messages : other.messages = m.messages.filter fun r => ¬skipped.Matches (m.message r).id
  /-- The generated enumerations that are not skipped. -/
  enums : other.enums = m.enums.filter fun r => ¬skipped.Matches (m.enumeration r).id
  /-- The services that are not skipped. -/
  services : other.services = m.services.filter fun r => ¬skipped.Matches (m.service r).id
  /-- The same external messages. -/
  externalMessages : other.externalMessages = m.externalMessages
  /-- The same external enumerations. -/
  externalEnums : other.externalEnums = m.externalEnums
  /-- As many messages in the store. -/
  messageCount : other.store.messages.size = m.store.messages.size
  /-- As many enumerations in the store. -/
  enumCount : other.store.enums.size = m.store.enums.size
  /-- As many services in the store. -/
  serviceCount : other.store.services.size = m.store.services.size
  /-- As many methods in the store. -/
  methodCount : other.store.methods.size = m.store.methods.size
  /-- Every message, without what is skipped among what is nested in it. -/
  message : ∀ r, other.message r =
    { m.message r with
      messages := (m.message r).messages.filter fun c => ¬skipped.Matches (m.message c).id
      enums := (m.message r).enums.filter fun c => ¬skipped.Matches (m.enumeration c).id }
  /-- Every enumeration. -/
  enumeration : ∀ r, other.enumeration r = m.enumeration r
  /-- Every service, without the methods that are skipped if it is not skipped itself. -/
  service : ∀ r, other.service r =
    if r ∈ other.services then
      { m.service r with
        methods := (m.service r).methods.filter fun c => ¬skipped.Matches (m.method c).id }
    else m.service r
  /-- Every method. -/
  method : ∀ r, other.method r = m.method r
  /-- The indices are built. -/
  indices : other.buildIndices = other

variable {s : Selection} {m b c u : Model} {options : SourceOptions} {first second both : IdFilter}

/-- Where nothing is included, a service stays if it is not skipped. -/
theorem staysService_iff (hall : s.included.patterns = []) {r : ServiceRef} :
    s.StaysService m r ↔ ¬s.skipped.Matches (m.service r).id :=
  and_iff_left (.inl (.inl hall))

/-- Where nothing is included, a method stays if it is not skipped. -/
theorem staysMethod_iff (hall : s.included.patterns = []) {r : ServiceRef} {c : MethodRef} :
    s.StaysMethod m r c ↔ ¬s.skipped.Matches (m.method c).id :=
  and_iff_left (.inl (.inl hall))

/-- A selection that includes nothing leaves what it does not skip. -/
theorem skipsExactly_apply (hall : s.included.patterns = []) (hindices : m.buildIndices = m)
    (hone : ListedOnce m) : SkipsExactly s.skipped m (s.apply m) := by
  have hreduced := s.reduction_apply m
  have hincludes : ∀ id, s.Includes id := fun _ => .inl hall
  have htop : ∀ {ref : Type} (id : ref → String) (refs : List ref),
      (refs.filter fun r => s.keeps (id r)) = refs.filter fun r => ¬s.skipped.Matches (id r) := by
    intro ref id refs
    simp only [filter_keeps, hincludes, and_true]
  exact {
    identity := s.sameIdentity_apply m
    messages := (filtered_apply s m).messages.trans (htop _ _)
    enums := (filtered_apply s m).enums.trans (htop _ _)
    services := by simp only [services_apply, staysService_iff hall]
    externalMessages := hreduced.externalMessages
    externalEnums := hreduced.externalEnums
    messageCount := hreduced.messageCount
    enumCount := hreduced.enumCount
    serviceCount := hreduced.serviceCount
    methodCount := hreduced.methodCount
    message := s.message_apply m
    enumeration := hreduced.enumeration
    service := fun r => by
      rw [service_apply]
      simp only [staysMethod_iff hall]
    method := fun r => by
      by_cases hr : methodArena.Holds m r
      · rw [s.method_apply hr, hone.owned_eq_self hindices hreduced hr]
      · have hmissing := mt (holds_method_iff hreduced.methodCount).1 hr
        rw [method_of_not_holds hr, method_of_not_holds hmissing]
    indices := buildIndices_buildIndices _ }

/-- Skipping no names leaves everything. -/
theorem skipsExactly_self (hnone : first.patterns = []) (hindices : m.buildIndices = m) :
    SkipsExactly first m m := by
  have hnot : ∀ id, ¬first.Matches id := fun id hmatch => by
    obtain ⟨pattern, hpattern, -⟩ := hmatch
    rw [hnone] at hpattern
    exact List.not_mem_nil hpattern
  have hkeep : ∀ {ref : Type} (id : ref → String) (refs : List ref),
      refs = refs.filter fun r => ¬first.Matches (id r) := by
    intro ref id refs
    simp only [hnot, not_false_eq_true, decide_true, List.filter_true]
  exact {
    identity := .refl m
    messages := hkeep _ _
    enums := hkeep _ _
    services := hkeep _ _
    externalMessages := rfl
    externalEnums := rfl
    messageCount := rfl
    enumCount := rfl
    serviceCount := rfl
    methodCount := rfl
    message := fun r => by rw [← hkeep, ← hkeep]
    enumeration := fun _ => rfl
    service := fun r => by rw [← hkeep, ite_self]
    method := fun _ => rfl
    indices := hindices }

/-- Whether options skip names that are accepted, and include none. -/
structure SkipsOnly (options : SourceOptions) : Prop where
  /-- All skipped names begin with a dot. -/
  skipped : ∀ pattern ∈ (ofOptions options).skipped.patterns, Qualified pattern
  /-- No names are included. -/
  included : (ofOptions options).included.patterns = []

/-- Options that skip accepted names only skip. -/
theorem skipsOnly_skippingOnly {ids : String}
    (h : (ofOptions (skippingOnly ids)).skipped.unqualified? = none) :
    SkipsOnly (skippingOnly ids) where
  skipped := unqualified?_eq_none.1 h
  included := by
    have hunset : SourceOptions.option? (skippingOnly ids) SourceOptions.includedIds = none := by
      rw [SourceOptions.option?, skippingOnly, Index.get?_insert, if_neg (by decide)]
      rfl
    simp only [ofOptions, SourceOptions.listOption, hunset]

/-- Skipping accepted names succeeds, and leaves what is not skipped. -/
theorem exists_skipElements (h : SkipsOnly options) (hindices : m.buildIndices = m)
    (hone : ListedOnce m) :
    ∃ b, m.skipElements options = .ok b ∧ SkipsExactly (ofOptions options).skipped m b := by
  cases hempty : (ofOptions options).isEmpty with
  | true =>
    have hnone := isEmpty_iff_patterns.1 (Bool.and_eq_true_iff.1 hempty).1
    exact ⟨m, skipElements_eq_ok.2 (.inl ⟨hempty, rfl⟩), skipsExactly_self hnone hindices⟩
  | false =>
    have hfault : (ofOptions options).fault? = none := fault?_eq_none.2 (by
      rw [h.included, List.append_nil]
      exact h.skipped)
    exact ⟨_, skipElements_eq_ok.2 (.inr ⟨hempty, hfault, rfl⟩),
      skipsExactly_apply h.included hindices hone⟩

/-! ## Two passes -/

namespace SkipsExactly

/-- The services that are left are those that are not skipped. -/
theorem mem_services (h : SkipsExactly first m b) {r : ServiceRef} :
    r ∈ b.services ↔ r ∈ m.services ∧ ¬first.Matches (m.service r).id := by
  rw [h.services, List.mem_filter, decide_eq_true_iff]

/-- Skipping exactly some names keeps the full names of services. -/
theorem serviceId (h : SkipsExactly first m b) (r : ServiceRef) :
    (b.service r).id = (m.service r).id := by
  rw [h.service]
  split <;> rfl

/-- Skipping exactly some names keeps the full names of messages. -/
theorem messageId (h : SkipsExactly first m b) (r : MessageRef) :
    (b.message r).id = (m.message r).id := by
  rw [h.message]

end SkipsExactly

/-- Whether the first pass keeps a service and the second one skips it. -/
def KeptThenSkipped (first second : IdFilter) (m : Model) (r : ServiceRef) : Prop :=
  r ∈ m.services ∧ ¬first.Matches (m.service r).id ∧ second.Matches (m.service r).id

instance (first second : IdFilter) (m : Model) (r : ServiceRef) :
    Decidable (KeptThenSkipped first second m r) :=
  inferInstanceAs (Decidable (_ ∧ _ ∧ _))

/-- A service without the methods that the first pass skips, if that keeps it and the second one
skips it. -/
def trim (first second : IdFilter) (m : Model) (r : ServiceRef) (x : Service) : Service :=
  if KeptThenSkipped first second m r then
    { x with methods := x.methods.filter fun c => ¬first.Matches (m.method c).id }
  else x

/-- The model where the services that the first pass keeps and the second one skips are trimmed. -/
def trimmed (first second : IdFilter) (m u : Model) : Model :=
  serviceArena.map u (trim first second m)

/-- A service of the trimmed model is the service of the model, trimmed. -/
theorem service_trimmed (first second : IdFilter) (m u : Model) (r : ServiceRef) :
    (trimmed first second m u).service r = trim first second m r (u.service r) := by
  by_cases hr : serviceArena.Holds u r
  · exact serviceArena.get_map hr (trim first second m)
  · have hblank : u.service r = default := serviceArena.get_of_not_holds hr
    have hmissing : (trimmed first second m u).service r = default :=
      serviceArena.get_of_not_holds (mt (serviceArena.holds_map u (trim first second m) r).1 hr)
    rw [hmissing, hblank, trim]
    split <;> rfl

/-- Skipping what a second list matches after what a first one matches leaves what neither
matches. -/
theorem filter_filter_skipped
    (hboth : ∀ id, both.Matches id ↔ first.Matches id ∨ second.Matches id) {ref : Type}
    {id id' : ref → String} (hid : ∀ r, id' r = id r) (refs : List ref) :
    ((refs.filter fun r => ¬first.Matches (id r)).filter fun r => ¬second.Matches (id' r)) =
      refs.filter fun r => ¬both.Matches (id r) := by
  rw [List.filter_filter]
  refine List.filter_congr fun r _ => ?_
  rw [hid, ← Bool.decide_and, decide_eq_decide, hboth, not_or, and_comm]

/-- A service that a pass over all names leaves is not trimmed. -/
theorem not_keptThenSkipped (hu : SkipsExactly both m u)
    (hboth : ∀ id, both.Matches id ↔ first.Matches id ∨ second.Matches id) {r : ServiceRef}
    (hr : r ∈ u.services) : ¬KeptThenSkipped first second m r := by
  rintro ⟨-, -, hskipped⟩
  exact (hu.mem_services.1 hr).2 ((hboth _).2 (.inr hskipped))

/-- Trimming services that are not listed keeps the indices. -/
theorem indexed_trimmed (hu : SkipsExactly both m u)
    (hboth : ∀ id, both.Matches id ↔ first.Matches id ∨ second.Matches id) :
    Indexed (trimmed first second m u) := by
  have hindexed : Indexed u := hu.indices ▸ indexed_buildIndices u
  have hservice : ∀ r ∈ u.services, (trimmed first second m u).service r = u.service r := by
    intro r hr
    rw [service_trimmed, trim, if_neg (not_keptThenSkipped hu hboth hr)]
  have hlisted : (trimmed first second m u).listedMethods = u.listedMethods :=
    List.flatMap_congr fun r hr => by rw [hservice r hr]
  have hvisit : ∀ depth r, (trimmed first second m u).visitMessage depth r =
      u.visitMessage depth r :=
    visitMessage_congr fun _ => rfl
  have hvisited : (trimmed first second m u).visitedMessages = u.visitedMessages :=
    List.flatMap_congr fun r _ => hvisit _ r
  exact {
    messages := by
      rw [hvisited]
      exact hindexed.messages
    enums := by
      rw [visitedEnums, hvisited]
      exact hindexed.enums
    services := hindexed.services.trans (indexBy_congr fun r hr => by rw [hservice r hr])
    methods := by
      rw [hlisted]
      exact hindexed.methods }

section TwoPasses

variable (hb : SkipsExactly first m b) (hc : SkipsExactly second b c) (hu : SkipsExactly both m u)
  (hboth : ∀ id, both.Matches id ↔ first.Matches id ∨ second.Matches id)

include hb hc hu hboth

/-- After two passes a service is as one pass leaves it, or it is trimmed. -/
theorem service_twice (r : ServiceRef) : c.service r = (trimmed first second m u).service r := by
  have hstays : r ∈ c.services ↔
      (r ∈ m.services ∧ ¬first.Matches (m.service r).id) ∧
        ¬second.Matches (m.service r).id := by
    rw [hc.mem_services, hb.mem_services, hb.serviceId]
  have hkept : r ∈ u.services ↔
      r ∈ m.services ∧
        ¬(first.Matches (m.service r).id ∨ second.Matches (m.service r).id) := by
    rw [hu.mem_services, hboth]
  have hmethods := filter_filter_skipped hboth (fun r => congrArg Method.id (hb.method r))
    (m.service r).methods
  rw [service_trimmed, trim, hc.service, hb.service, hu.service]
  simp only [hb.mem_services, hstays, hkept, KeptThenSkipped]
  by_cases hlisted : r ∈ m.services
  · by_cases hfirst : first.Matches (m.service r).id
    · simp only [hfirst, hlisted, not_true_eq_false, and_false, false_and, true_or, if_false]
    · by_cases hsecond : second.Matches (m.service r).id
      · simp only [hfirst, hsecond, hlisted, not_true_eq_false, not_false_eq_true,
          and_self, and_false, or_true, if_true, if_false]
      · simp only [hfirst, hsecond, hlisted, not_false_eq_true, and_self, and_false,
          or_self, if_true, if_false, hmethods]
  · simp only [hlisted, false_and, if_false]

/-- After two passes a message is as one pass leaves it. -/
theorem message_twice (r : MessageRef) : c.message r = u.message r := by
  rw [hc.message, hb.message, hu.message, filter_filter_skipped hboth hb.messageId,
    filter_filter_skipped hboth fun r => congrArg Enumeration.id (hb.enumeration r)]

/-- Two passes leave what one pass leaves, with the services trimmed that the first pass keeps and
the second one skips. -/
theorem eq_trimmed : c = trimmed first second m u := by
  have hcontents : SameContents (trimmed first second m u) c := {
    identity := by
      have hone := hu.identity
      have htwo := hb.identity.trans hc.identity
      exact ⟨htwo.name.trans hone.name.symm, htwo.packageName.trans hone.packageName.symm,
        htwo.title.trans hone.title.symm, htwo.description.trans hone.description.symm⟩
    messages := by
      rw [hc.messages, hb.messages, filter_filter_skipped hboth hb.messageId]
      exact hu.messages.symm
    enums := by
      rw [hc.enums, hb.enums,
        filter_filter_skipped hboth fun r => congrArg Enumeration.id (hb.enumeration r)]
      exact hu.enums.symm
    services := by
      rw [hc.services, hb.services, filter_filter_skipped hboth hb.serviceId]
      exact hu.services.symm
    externalMessages :=
      (hc.externalMessages.trans hb.externalMessages).trans hu.externalMessages.symm
    externalEnums := (hc.externalEnums.trans hb.externalEnums).trans hu.externalEnums.symm
    storedMessages := messageArena.elements_eq (m := trimmed first second m u)
      ((hc.messageCount.trans hb.messageCount).trans hu.messageCount.symm)
      fun r => message_twice hb hc hu hboth r
    storedEnums := enumArena.elements_eq (m := trimmed first second m u)
      ((hc.enumCount.trans hb.enumCount).trans hu.enumCount.symm)
      fun r => ((hc.enumeration r).trans (hb.enumeration r)).trans (hu.enumeration r).symm
    storedServices := by
      refine serviceArena.elements_eq (m := trimmed first second m u) ?_
        (service_twice hb hc hu hboth)
      exact ((hc.serviceCount.trans hb.serviceCount).trans hu.serviceCount.symm).trans
        Array.size_mapIdx.symm
    storedMethods := methodArena.elements_eq (m := trimmed first second m u)
      ((hc.methodCount.trans hb.methodCount).trans hu.methodCount.symm)
      fun r => ((hc.method r).trans (hb.method r)).trans (hu.method r).symm }
  exact hcontents.eq (indexed_trimmed hu hboth) (hc.indices ▸ indexed_buildIndices c)

end TwoPasses

/-- Trimming changes nothing if and only if the first pass skips no method of the services that are
trimmed. -/
theorem trimmed_eq_self_iff (hu : SkipsExactly both m u)
    (hboth : ∀ id, both.Matches id ↔ first.Matches id ∨ second.Matches id) :
    trimmed first second m u = u ↔ ∀ r, KeptThenSkipped first second m r →
      ∀ c ∈ (m.service r).methods, ¬first.Matches (m.method c).id := by
  have hservice : ∀ r, KeptThenSkipped first second m r → u.service r = m.service r := by
    intro r hr
    rw [hu.service, if_neg fun hlisted => not_keptThenSkipped hu hboth hlisted hr]
  constructor
  · intro h r hr
    have htrim : trim first second m r (u.service r) = u.service r := by
      rw [← service_trimmed, h]
    rw [trim, if_pos hr] at htrim
    have hmethods := List.filter_eq_self.1 (congrArg Service.methods htrim)
    rw [hservice r hr] at hmethods
    exact fun c hc => of_decide_eq_true (hmethods c hc)
  · intro h
    refine serviceArena.map_eq_self fun r _ => ?_
    change trim first second m r (u.service r) = u.service r
    rw [trim]
    split
    · rename_i hr
      have hmethods : (u.service r).methods.filter (fun c => ¬first.Matches (m.method c).id) =
          (u.service r).methods := by
        rw [hservice r hr]
        exact List.filter_eq_self.2 fun c hc => decide_eq_true (h r hr c hc)
      rw [hmethods]
    · rfl

end Selection

namespace Model

open Selection

variable {m a : Model} {first second both : SourceOptions}

/-- Two lists match what one of both matches. -/
theorem matches_union {first second both : IdFilter}
    (hboth : ∀ pattern, pattern ∈ both.patterns ↔ pattern ∈ first.patterns ∨
      pattern ∈ second.patterns)
    (id : String) : both.Matches id ↔ first.Matches id ∨ second.Matches id := by
  simp only [Matches, hboth, or_and_right, exists_or]

/-- Skipping the names of two accepted lists of an assembled model, where each method is listed at
most once, one list after the other, gives what skipping all names at once gives, but for the
services that the first list keeps and the second one skips: these are listed no more, and have lost
the methods that the first list skips. So it gives the very same model if and only if there are no
such methods, and skipping one list twice is skipping it once. -/
theorem skipElements_skipElements (hassembled : m.crossReference.result = .ok a)
    (hone : ListedOnce a) (hfirst : SkipsOnly first) (hsecond : SkipsOnly second)
    (hall : (ofOptions both).included.patterns = [])
    (hboth : ∀ pattern, pattern ∈ (ofOptions both).skipped.patterns ↔
      pattern ∈ (ofOptions first).skipped.patterns ∨
      pattern ∈ (ofOptions second).skipped.patterns) :
    let f := (ofOptions first).skipped
    let g := (ofOptions second).skipped
    ∃ b c u, a.skipElements first = .ok b ∧ b.skipElements second = .ok c ∧
      a.skipElements both = .ok u ∧
      c = trimmed f g a u ∧
      (c = u ↔ ∀ r, KeptThenSkipped f g a r →
        ∀ x ∈ (a.service r).methods, ¬f.Matches (a.method x).id) ∧
      b.skipElements first = .ok b ∧
      ∃ b' c', a.skipElements second = .ok b' ∧ b'.skipElements first = .ok c' ∧
        c' = trimmed g f a u := by
  intro f g
  obtain ⟨herror, rfl⟩ := Outcome.result_eq_ok.1 hassembled
  have hindices := (settled_crossReference herror).indices
  have hunion : SkipsOnly both :=
    ⟨fun pattern hp =>
      ((hboth pattern).1 hp).elim (hfirst.skipped pattern) (hsecond.skipped pattern), hall⟩
  have hmatches := matches_union hboth
  obtain ⟨b, hb, hfb⟩ := exists_skipElements hfirst hindices hone
  obtain ⟨u, hu, hbu⟩ := exists_skipElements hunion hindices hone
  have hbone := hone.of_reduction (reduction_skipElements hb)
  obtain ⟨c, hc, hgc⟩ := exists_skipElements hsecond hfb.indices hbone
  obtain ⟨d, hd, hfd⟩ := exists_skipElements hfirst hfb.indices hbone
  obtain ⟨b', hb', hgb'⟩ := exists_skipElements hsecond hindices hone
  obtain ⟨c', hc', hfc'⟩ := exists_skipElements hfirst hgb'.indices
    (hone.of_reduction (reduction_skipElements hb'))
  have htwice := eq_trimmed hfb hgc hbu hmatches
  have hswapped := eq_trimmed hgb' hfc' hbu fun id => (hmatches id).trans or_comm
  have hagain : d = b := by
    have hsame : ∀ id, f.Matches id ↔ f.Matches id ∨ f.Matches id := fun _ => or_self_iff.symm
    rw [eq_trimmed hfb hfd hfb hsame]
    exact (trimmed_eq_self_iff hfb hsame).2 fun r hr => absurd hr.2.2 hr.2.1
  refine ⟨b, c, u, hb, hc, hu, htwice, ?_, hagain ▸ hd, b', c', hb', hc', hswapped⟩
  rw [htwice]
  exact trimmed_eq_self_iff hbu hmatches

/-- A model with a service of two calls, which have one request. -/
def twoCalls : Model :=
  { services := [⟨0⟩]
    messages := [⟨0⟩, ⟨1⟩]
    store :=
      { messages := #[{ id := ".p.M" }, { id := ".p.N" }]
        services := #[{ id := ".p.S", methods := [⟨0⟩, ⟨1⟩] }]
        methods :=
          #[{ id := ".p.S.A", inputTypeId := ".p.M", outputTypeId := ".p.M" },
            { id := ".p.S.B", inputTypeId := ".p.M", outputTypeId := ".p.M" }] } }

/-- Assembly of the two calls comes to its end. -/
theorem result_crossReference_twoCalls :
    twoCalls.crossReference.result = .ok twoCalls.crossReference.model :=
  Outcome.result_eq_ok.2 ⟨Option.isNone_iff_eq_none.1 (by decide +kernel), rfl⟩

/-- Each method of the two calls is listed once. -/
theorem listedOnce_twoCalls : ListedOnce twoCalls.crossReference.model := by
  have hservices : twoCalls.crossReference.model.services = [⟨0⟩] := by decide +kernel
  intro s hs t ht _ _ _
  rw [hservices] at hs ht
  rw [List.mem_singleton.1 hs, List.mem_singleton.1 ht]

/-- Skipping the first of the two calls and then its service is not skipping both at once: the
service, which is listed no more, has lost its first call. -/
theorem skipElements_skipElements_ne_union :
    ListedOnce twoCalls.crossReference.model ∧
    SkipsOnly (skippingOnly ".p.S.A") ∧ SkipsOnly (skippingOnly ".p.S") ∧
    SkipsOnly (skippingOnly ".p.S.A,.p.S") ∧
    (∀ pattern, pattern ∈ (ofOptions (skippingOnly ".p.S.A,.p.S")).skipped.patterns ↔
      pattern ∈ (ofOptions (skippingOnly ".p.S.A")).skipped.patterns ∨
        pattern ∈ (ofOptions (skippingOnly ".p.S")).skipped.patterns) ∧
    ∃ a b c u, twoCalls.crossReference.result = .ok a ∧
      a.skipElements (skippingOnly ".p.S.A") = .ok b ∧
      b.skipElements (skippingOnly ".p.S") = .ok c ∧
      a.skipElements (skippingOnly ".p.S.A,.p.S") = .ok u ∧ c ≠ u := by
  have hcall : SkipsOnly (skippingOnly ".p.S.A") := skipsOnly_skippingOnly (by decide +kernel)
  have hservice : SkipsOnly (skippingOnly ".p.S") := skipsOnly_skippingOnly (by decide +kernel)
  have hunion : SkipsOnly (skippingOnly ".p.S.A,.p.S") := skipsOnly_skippingOnly (by decide +kernel)
  have hfirst : (ofOptions (skippingOnly ".p.S.A")).skipped.patterns = [".p.S.A"] := by
    decide +kernel
  have hsecond : (ofOptions (skippingOnly ".p.S")).skipped.patterns = [".p.S"] := by decide +kernel
  have hboth : (ofOptions (skippingOnly ".p.S.A,.p.S")).skipped.patterns = [".p.S.A", ".p.S"] := by
    decide +kernel
  refine ⟨listedOnce_twoCalls, hcall, hservice, hunion, fun pattern => ?_, ?_⟩
  · rw [hfirst, hsecond, hboth, List.mem_cons, List.mem_singleton, List.mem_singleton]
  have htwice : (twoCalls.crossReference.model.skipElements (skippingOnly ".p.S.A")).toOption.any
      (fun b => (b.skipElements (skippingOnly ".p.S")).toOption.any
        fun c => decide ((c.service ⟨0⟩).methods = [⟨1⟩])) = true := by decide +kernel
  have honce :
    (twoCalls.crossReference.model.skipElements (skippingOnly ".p.S.A,.p.S")).toOption.any
      (fun u => decide ((u.service ⟨0⟩).methods = [⟨0⟩, ⟨1⟩])) = true := by
        decide +kernel
  obtain ⟨b, hb, htwice⟩ := Attempt.exists_ok_of_any htwice
  obtain ⟨c, hc, htwice⟩ := Attempt.exists_ok_of_any htwice
  obtain ⟨u, hu, honce⟩ := Attempt.exists_ok_of_any honce
  refine ⟨_, b, c, u, result_crossReference_twoCalls, hb, hc, hu, fun h => ?_⟩
  have hmethods : (c.service ⟨0⟩).methods = [⟨1⟩] := of_decide_eq_true htwice
  rw [h, of_decide_eq_true honce] at hmethods
  cases hmethods

/-- Skipping the first of the two calls and then a message is skipping both at once. -/
theorem skipElements_skipElements_twoCalls :
    ∃ a b c, twoCalls.crossReference.result = .ok a ∧ ListedOnce a ∧
      SkipsOnly (skippingOnly ".p.S.A") ∧ SkipsOnly (skippingOnly ".p.N") ∧
      a.skipElements (skippingOnly ".p.S.A") = .ok b ∧
      b.skipElements (skippingOnly ".p.N") = .ok c ∧
      a.skipElements (skippingOnly ".p.S.A,.p.N") = .ok c := by
  have hcall : SkipsOnly (skippingOnly ".p.S.A") := skipsOnly_skippingOnly (by decide +kernel)
  have hmessage : SkipsOnly (skippingOnly ".p.N") := skipsOnly_skippingOnly (by decide +kernel)
  have hfirst : (ofOptions (skippingOnly ".p.S.A")).skipped.patterns = [".p.S.A"] := by
    decide +kernel
  have hsecond : (ofOptions (skippingOnly ".p.N")).skipped.patterns = [".p.N"] := by decide +kernel
  have hboth : (ofOptions (skippingOnly ".p.S.A,.p.N")).skipped.patterns = [".p.S.A", ".p.N"] := by
    decide +kernel
  have hunion : ∀ pattern, pattern ∈
    (ofOptions (skippingOnly ".p.S.A,.p.N")).skipped.patterns ↔
      pattern ∈ (ofOptions (skippingOnly ".p.S.A")).skipped.patterns ∨
        pattern ∈ (ofOptions (skippingOnly ".p.N")).skipped.patterns := fun pattern => by
    rw [hfirst, hsecond, hboth, List.mem_cons, List.mem_singleton, List.mem_singleton]
  obtain ⟨b, c, u, hb, hc, hu, -, hsame, -⟩ :=
    skipElements_skipElements result_crossReference_twoCalls
    listedOnce_twoCalls hcall hmessage (by decide +kernel) hunion
  have hlisted : ∀ r, ¬KeptThenSkipped (ofOptions (skippingOnly ".p.S.A")).skipped
      (ofOptions (skippingOnly ".p.N")).skipped twoCalls.crossReference.model r := by
    rintro r ⟨hr, -, hskipped⟩
    have hservices : twoCalls.crossReference.model.services = [⟨0⟩] := by decide +kernel
    rw [hservices] at hr
    obtain rfl := List.mem_singleton.1 hr
    revert hskipped
    decide +kernel
  obtain rfl := hsame.2 fun r hr => absurd hr (hlisted r)
  exact ⟨_, b, c, result_crossReference_twoCalls, listedOnce_twoCalls, hcall,
    hmessage, hb, hc, hu⟩

end Model

end ApiModel
