import ApiModel.Proofs.Graph.Growth

/-!
# Batches of new elements

A reader adds elements in batches and then lists them. A batch has places of its own, and until it
is listed, whatever was there is there unchanged.
-/

namespace ApiModel.Model

variable {ref element : Type} {before : Nat → Nat → Prop} {m k n other : Model}

/-! ## Places of new elements -/

/-- Whether elements of one kind are new in a model. -/
structure Batch (a : Arena ref element) (P : element → Prop) (m other : Model) (refs : List ref) :
    Prop where
  /-- Their places were free. -/
  free : ∀ r ∈ refs, a.find? m r = none
  /-- They are at their places. -/
  held : ∀ r ∈ refs, ∃ x, a.find? other r = some x ∧ P x
  /-- No place is theirs twice. -/
  once : refs.Nodup

namespace Batch

variable {a : Arena ref element} {P : element → Prop} {xs ys : List ref}

/-- The empty list is a batch of new elements. -/
theorem nil : Batch a P m other [] where
  free _ hr := absurd hr List.not_mem_nil
  held _ hr := absurd hr List.not_mem_nil
  once := List.nodup_nil

/-- Elements that are kept are new also in later models. -/
theorem later (h : Batch a P m k xs) (hkept : a.Keeps k n) : Batch a P m n xs where
  free := h.free
  held r hr := by
    obtain ⟨x, hx, hP⟩ := h.held r hr
    exact ⟨x, hkept r x hx, hP⟩
  once := h.once

/-- A batch of elements that are new to a model is new to every model whose elements it keeps. -/
theorem earlier (h : Batch a P k n xs) (hkept : a.Keeps m k) : Batch a P m n xs where
  free r hr := hkept.find?_eq_none a (h.free r hr)
  held := h.held
  once := h.once

/-- Batches of elements that are new one after the other make one batch. -/
theorem append (h : Batch a P m k xs) (h' : Batch a P k n ys) (hmk : a.Keeps m k)
    (hkn : a.Keeps k n) : Batch a P m n (xs ++ ys) where
  free r hr := by
    rcases List.mem_append.1 hr with hr | hr
    · exact h.free r hr
    · exact hmk.find?_eq_none a (h'.free r hr)
  held r hr := by
    rcases List.mem_append.1 hr with hr | hr
    · exact (h.later hkn).held r hr
    · exact h'.held r hr
  once := by
    refine List.nodup_append.2 ⟨h.once, h'.once, fun r hr s hs hrs => ?_⟩
    obtain ⟨x, hx, -⟩ := h.held r hr
    rw [hrs, h'.free s hs] at hx
    cases hx

/-- An element at a place where none was found is a batch. -/
theorem single {r : ref} {x : element} (hfree : a.find? m r = none)
    (hheld : a.find? other r = some x) (hx : P x) : Batch a P m other [r] where
  free s hs := by
    rw [List.mem_singleton.1 hs]
    exact hfree
  held s hs := by
    rw [List.mem_singleton.1 hs]
    exact ⟨x, hheld, hx⟩
  once := List.nodup_singleton r

/-- An element that is added is a batch. -/
theorem push [DecidableEq ref] {x : element} (hx : P x) : Batch a P m (a.push m x) [a.next m] := by
  refine single (a.find?_next m) ?_ hx
  rw [a.find?_push, if_pos rfl]

end Batch

/-! ## Models before their new elements are listed -/

/-- What is listed behind the generated elements is listed behind all. -/
theorem perm_listed (generated external new : List ref) :
    (generated ++ new ++ external).Perm (generated ++ external ++ new) := by
  rw [List.append_assoc, List.append_assoc]
  exact List.perm_append_comm.append_left generated

/-- Whether a model has only new messages and enumerations, which are not listed yet. -/
structure Grown (before : Nat → Nat → Prop) (m other : Model) :
    Prop extends Built before other where
  /-- The messages are kept. -/
  messages : messageArena.Keeps m other
  /-- The enumerations are kept. -/
  enums : enumArena.Keeps m other
  /-- The services are the same. -/
  services : other.store.services = m.store.services
  /-- The methods are the same. -/
  methods : other.store.methods = m.store.methods
  /-- The lists are the same. -/
  sameRoster : other.roster = m.roster

namespace Grown

/-- A built model has grown out of itself. -/
theorem refl (h : Built before m) : Grown before m m :=
  ⟨h, .refl _ m, .refl _ m, rfl, rfl, rfl⟩

/-- A model that has grown out of one that has grown out of a third has grown out of the third. -/
theorem trans (h : Grown before m k) (h' : Grown before k n) : Grown before m n where
  toBuilt := h'.toBuilt
  messages := h.messages.trans _ h'.messages
  enums := h.enums.trans _ h'.enums
  services := h'.services.trans h.services
  methods := h'.methods.trans h.methods
  sameRoster := h'.sameRoster.trans h.sameRoster

/-- A model that has grown out of another has all elements of the other. -/
theorem within (h : Grown before m other) : m.extent.Within other.extent := by
  refine Extent.Within.of_slots (fun r slot hr => ?_) (fun r p hr => ?_) ?_ ?_
  · obtain ⟨x, hx, rfl⟩ := Option.map_eq_some_iff.1 hr
    exact extent_message (h.messages r x hx)
  · obtain ⟨x, hx, rfl⟩ := Option.map_eq_some_iff.1 hr
    exact congrArg (Option.map Enumeration.parent) (h.enums r x hx)
  · exact Nat.le_of_eq (congrArg Array.size h.services).symm
  · exact Nat.le_of_eq (congrArg Array.size h.methods).symm

/-- Adding a new message is growing. -/
theorem addMessage (h : Built before m) {x : Message} (hx : NewMessage m.extent x) :
    Grown before m (m.addMessage x).model :=
  ⟨h.addMessage hx, messageArena.keeps_push m _, .refl _ m, rfl, rfl, rfl⟩

/-- Adding a new enumeration is growing. -/
theorem addEnum (h : Built before m) {x : Enumeration} (hx : NewEnum m.extent x) :
    Grown before m (m.addEnum x).model :=
  ⟨h.addEnum hx, .refl _ m, enumArena.keeps_push m _, rfl, rfl, rfl⟩

/-- A change of a new message is growing if it goes on building. -/
theorem modifyMessage (h : Grown before m k) {r : MessageRef} {change : Message → Message}
    (hr : messageArena.find? m r = none) (hbuilt : Built before (k.modifyMessage r change)) :
    Grown before m (k.modifyMessage r change) where
  toBuilt := hbuilt
  messages s x hx := by
    have hk := h.messages s x hx
    have hne : s ≠ r := by
      rintro rfl
      rw [hr] at hx
      cases hx
    rw [find?_modifyMessage, hk, Option.map_some, if_neg hne]
  enums := h.enums
  services := h.services
  methods := h.methods
  sameRoster := h.sameRoster

/-- Listing the new elements that are nested in nothing goes on building. -/
theorem list (hm : Built before m) (h : Grown before m k) {messages : List MessageRef}
    {enums : List EnumRef} (hmessages : Batch messageArena (fun x => x.parent = none) m k messages)
    (henums : Batch enumArena (fun x => x.parent = none) m k enums)
    (hstore : other.store = k.store)
    (hlistMessages : other.roster.messages.Perm (k.roster.messages ++ messages))
    (hlistEnums : other.roster.enums.Perm (k.roster.enums ++ enums))
    (hservices : other.services = k.services) : Built before other := by
  refine h.toBuilt.list hstore hlistMessages hlistEnums ?_ (fun r hr => ⟨?_, ?_⟩)
    hmessages.once (fun r hr => ⟨?_, ?_⟩) henums.once (fun r hr => absurd hr List.not_mem_nil)
    List.nodup_nil
  · rw [List.append_nil]
    exact List.Perm.of_eq hservices
  · exact hasRoot_iff.2 (hmessages.held r hr)
  · intro hlisted
    rw [h.sameRoster] at hlisted
    obtain ⟨x, hx, -⟩ := hasRoot_iff.1 (hm.roster.messages r hlisted)
    rw [hmessages.free r hr] at hx
    cases hx
  · exact Option.map_eq_some_iff.2 (henums.held r hr)
  · intro hlisted
    rw [h.sameRoster] at hlisted
    obtain ⟨x, hx, -⟩ := Option.map_eq_some_iff.1 (hm.roster.enums r hlisted)
    rw [henums.free r hr] at hx
    cases hx

end Grown

/-! ## Services behind their methods -/

/-- Whether a model was built out of another with the same services and methods. -/
structure Extended (before : Nat → Nat → Prop) (m other : Model) :
    Prop extends Built before other where
  /-- The services are the same. -/
  services : other.store.services = m.store.services
  /-- The methods are the same. -/
  methods : other.store.methods = m.store.methods

/-- Whether a model has new methods, which are not yet those of a service. -/
structure Served (before : Nat → Nat → Prop) (m other : Model) (refs : List MethodRef) : Prop
    extends Built before other where
  /-- The methods are new. -/
  batch : Batch methodArena (fun _ => True) m other refs
  /-- The methods are kept. -/
  methods : methodArena.Keeps m other
  /-- The services are the same. -/
  services : other.store.services = m.store.services

namespace Served

variable {xs ys : List MethodRef}

/-- A built model is served by no new methods. -/
theorem refl (h : Built before m) : Served before m m [] :=
  ⟨h, .nil, .refl _ m, rfl⟩

/-- Batches of methods that serve a model one after the other make one batch. -/
theorem append (h : Served before m k xs) (h' : Served before k n ys) :
    Served before m n (xs ++ ys) where
  toBuilt := h'.toBuilt
  batch := h.batch.append h'.batch h.methods h'.methods
  methods := h.methods.trans _ h'.methods
  services := h'.services.trans h.services

/-- A new method may be added to a model that has the same methods and services as one before. -/
theorem addMethod (h : Extended before m k) {x : Method} (hx : NewMethod k.extent x) :
    Served before m (k.addMethod x).model [(k.addMethod x).ref] where
  toBuilt := h.toBuilt.addMethod hx
  batch := Batch.earlier (.push trivial) (methodArena.keeps_of_eq h.methods)
  methods := (methodArena.keeps_of_eq h.methods).trans _ (methodArena.keeps_push k x)
  services := h.services

/-- Adding the service of the new methods and listing it goes on building. -/
theorem addService (hm : Built before m) (h : Served before m k xs) {x : Service}
    (hx : x.methods = xs) (hstore : other.store = (k.addService x).model.store)
    (hmessages : other.roster.messages = k.roster.messages)
    (henums : other.roster.enums = k.roster.enums)
    (hservices : other.services = k.services ++ [(k.addService x).ref]) : Built before other := by
  have hbuilt : Built before (k.addService x).model := by
    refine h.toBuilt.addService ⟨fun r hr => ?_, ?_⟩ fun s y r hy hr hrx => ?_
    · obtain ⟨y, hy, -⟩ := h.batch.held r (hx ▸ hr)
      exact methodArena.holds_of_find? hy
    · rw [hx]
      exact h.batch.once
    · change k.store.services[s.index]? = some y at hy
      rw [h.services] at hy
      have hheld := methodArena.find?_of_holds ((hm.service s y hy).methods r hr)
      rw [h.batch.free r (hx ▸ hrx)] at hheld
      cases hheld
  refine hbuilt.list hstore ?_ ?_ ?_
    (fun r hr => absurd hr List.not_mem_nil) List.nodup_nil
    (fun r hr => absurd hr List.not_mem_nil) List.nodup_nil (fun r hr => ⟨?_, ?_⟩)
    (List.nodup_singleton (k.addService x).ref)
  · rw [List.append_nil, hmessages]
    exact List.Perm.refl _
  · rw [List.append_nil, henums]
    exact List.Perm.refl _
  · exact List.Perm.of_eq hservices
  · obtain rfl := List.mem_singleton.1 hr
    change k.store.services.size < (k.store.services.push x).size
    rw [Array.size_push]
    exact Nat.lt_succ_self _
  · obtain rfl := List.mem_singleton.1 hr
    intro hlisted
    exact Nat.lt_irrefl _ (h.roster.services _ hlisted)

end Served

end ApiModel.Model
