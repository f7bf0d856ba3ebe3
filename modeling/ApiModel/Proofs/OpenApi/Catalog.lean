import ApiModel.Proofs.Graph.Descriptions
import ApiModel.Proofs.Naming

/-!
# What the reader of interface descriptions lists

The reader lists the message of every component schema and then the request message of every call,
in their order and each at a place of its own. All other messages that it adds are entries of maps
or well-known types, so the full name of a request message is shared by listed messages only.
-/

namespace ApiModel.OpenApi

open Model

/-- The calls of a document, in the order in which their methods are made. -/
def Document.calls (d : Document) : List Call :=
  d.paths.flatMap fun (path, item) => item.calls path

/-- The name of the method of a call. -/
def Call.methodName (c : Call) : String :=
  pascalCase c.operation.operationId

/-- The name of the request message of a call. -/
def Call.requestName (c : Call) : String :=
  c.methodName ++ "Request"

/-- Whether a full name is one of an entry message of a map. -/
def EntryId (id : String) : Prop :=
  ∃ start, id = start ++ "Entry"

/-- Whether a model lists messages of these full names, and has otherwise external messages and
entries of maps only. -/
structure Catalog (m : Model) (ids : List String) : Prop where
  /-- The listed messages have the full names, in order. -/
  listed :
    List.Forall₂ (fun r id => ∃ x, messageArena.find? m r = some x ∧ x.id = id) m.messages ids
  /-- A message that is not at the top is an entry. -/
  others : ∀ r x, messageArena.find? m r = some x →
    r ∈ m.messages ++ m.externalMessages ∨ EntryId x.id

variable {m k other : Model} {ids : List String}

/-! ## Full names -/

/-- No request message is named like an entry. -/
theorem not_entryId_request (package start : String) :
    ¬ EntryId (qualify package (start ++ "Request")) := by
  rintro ⟨other, h⟩
  rw [qualify_append] at h
  have hlast := congrArg (fun text => text.toList.getLast?) h
  simp at hlast

/-- The entry message of a map has its full name. -/
theorem id_mapEntry {package id name : String} {schema : Schema} {x : Message}
    (h : mapEntry package id name schema = .ok x) : x.id = id := by
  obtain ⟨type, -, rfl⟩ := of_mapEntry h
  rfl

/-- The entry message of a field is named like one. -/
theorem entryId_makeField {package messageId name : String} {schema : Schema} {made : MadeField}
    (h : makeField package messageId name schema = .ok made) :
    ∀ entry ∈ made.entry, EntryId entry.id := by
  cases makes_makeField h with
  | single => rintro entry ⟨⟩
  | list => rintro entry ⟨⟩
  | map _ hentry =>
    rintro x ⟨⟩
    refine ⟨messageId ++ "." ++ pascalCase name, ?_⟩
    rw [id_mapEntry hentry, entryName, ← String.append_assoc]

/-! ## Listing messages -/

/-- What a batch of messages leaves as it was, and what it adds. -/
structure Extends (elements : List Message) (m k : Model) : Prop where
  /-- Only the messages of the store change. -/
  rest : ∃ xs, k = messageArena.replace m xs
  /-- The messages that were there stay. -/
  kept : messageArena.Keeps m k
  /-- The other ones have the full names of the elements. -/
  new : ∀ r x, messageArena.find? k r = some x →
    messageArena.find? m r = some x ∨ ∃ e ∈ elements, x.id = e.id

/-- A message that is added extends the store by itself. -/
theorem extends_cons {e : Message} {rest : List Message}
    (h : Extends rest (messageArena.push m (e.ownedBy (messageArena.next m))) k) :
    Extends (e :: rest) m k := by
  obtain ⟨xs, rfl⟩ := h.rest
  refine ⟨⟨xs, rfl⟩, (messageArena.keeps_push m _).trans _ h.kept, fun r x hx => ?_⟩
  rcases h.new r x hx with hpushed | ⟨y, hy, hid⟩
  · rw [messageArena.find?_push] at hpushed
    split at hpushed
    · obtain rfl := Option.some.inj hpushed
      exact .inr ⟨e, List.mem_cons_self, rfl⟩
    · exact .inl hpushed
  · exact .inr ⟨y, List.mem_cons_of_mem e hy, hid⟩

/-- Adding messages one by one extends the store by them. -/
theorem extends_addMessages {elements : List Message} {found refs : List MessageRef}
    (h : elements.foldl
      (fun (state : List MessageRef × Model) element =>
        (state.1 ++ [(state.2.addMessage element).ref], (state.2.addMessage element).model))
      (found, m) = (refs, k)) : Extends elements m k := by
  induction elements generalizing m found with
  | nil =>
    obtain ⟨-, rfl⟩ := Prod.mk.inj h
    exact ⟨⟨_, rfl⟩, .refl _ m, fun r x hx => .inl hx⟩
  | cons e rest ih => exact extends_cons (ih h)

/-- Adopting messages keeps their full names. -/
theorem id_adopted (p : MessageRef) (children : List MessageRef) (r : MessageRef) (x : Message) :
    (adopted p children r x).id = x.id := by
  unfold adopted
  split <;> rfl

/-- Messages that were added and can be nested in the next one. -/
structure Nested (m : Model) (entries : List Message) (nested : List MessageRef)
    (k : Model) : Prop where
  /-- They are added in order. -/
  added : addMessages m entries = (nested, k)
  /-- None is added twice. -/
  once : nested.Nodup
  /-- The next place is not one of theirs. -/
  free : messageArena.next k ∉ nested

/-- Messages that stand alone can be added and nested in the next one. -/
theorem exists_nested (h : Built (fun parent child => child < parent) m) {entries : List Message}
    (hentries : ∀ x ∈ entries, x.Alone) : ∃ nested k, Nested m entries nested k := by
  cases hadd : addMessages m entries with
  | mk nested k =>
    obtain ⟨-, hbatch⟩ := grown_addMessages (.refl h) .nil hentries hadd
    refine ⟨nested, k, hadd, hbatch.once, fun hp => ?_⟩
    obtain ⟨x, hx, -⟩ := hbatch.held _ hp
    rw [messageArena.find?_next] at hx
    cases hx

variable {nested : List MessageRef} {entries : List Message} {element : Message}

/-- Messages that are added extend the store. -/
theorem Nested.extends (h : Nested m entries nested k) : Extends entries m k :=
  extends_addMessages h.added

/-- What is found after a message was added behind its entries. -/
theorem find?_addListed (helement : element.Alone) (h : Nested m entries nested k)
    (r : MessageRef) :
    messageArena.find? (addListed m element entries) r =
      if r = messageArena.next k then
        some { element.ownedBy (messageArena.next k) with messages := nested, enums := [] }
      else (messageArena.find? k r).map (adopted (messageArena.next k) nested r) := by
  rw [addListed_eq helement h.added h.once h.free]
  change messageArena.find? (Model.modifyMessage _ _ _) r = _
  rw [find?_modifyMessage, messageArena.find?_map, model_addMessage, messageArena.find?_push]
  by_cases hr : r = messageArena.next k
  · subst hr
    simp [adopted, h.free]
  · simp [hr, Function.comp_def]

/-- Adding a message behind its entries changes the messages of the store and the list of them
only. -/
theorem rest_addListed (helement : element.Alone) (h : Nested m entries nested k) :
    ∃ xs, addListed m element entries =
      { messageArena.replace m xs with messages := m.messages ++ [messageArena.next k] } := by
  obtain ⟨ys, hk⟩ := h.extends.rest
  rw [addListed_eq helement h.added h.once h.free, hk]
  exact ⟨_, rfl⟩

/-- The model with one more message, listed behind the others. -/
def listedLast (m : Model) (x : Message) : Model :=
  { messageArena.push m (x.ownedBy (messageArena.next m)) with
    messages := m.messages ++ [messageArena.next m] }

/-- Adding a message without entries only puts it last in the list and in the store. -/
theorem addListed_nil (m : Model) {x : Message} (hx : x.messages = []) :
    addListed m x [] = listedLast m x := by
  have hempty : { x with messages := [] } = x := by rw [← hx]
  change listedLast m { x with messages := [] } = listedLast m x
  rw [hempty]

namespace Catalog

/-- A message that is listed behind the others comes last; new messages besides are entries. -/
theorem list (h : Catalog m ids) {p : MessageRef} {id : String}
    (hkept : ∀ r x, messageArena.find? m r = some x →
      ∃ y, messageArena.find? other r = some y ∧ y.id = x.id)
    (hnew : ∀ r y, messageArena.find? other r = some y →
      r = p ∨ EntryId y.id ∨ ∃ x, messageArena.find? m r = some x ∧ y.id = x.id)
    (hplace : ∃ x, messageArena.find? other p = some x ∧ x.id = id)
    (hmessages : other.messages = m.messages ++ [p])
    (hexternal : other.externalMessages = m.externalMessages) : Catalog other (ids ++ [id]) where
  listed := by
    rw [hmessages]
    refine List.rel_append (h.listed.imp ?_) (.cons hplace .nil)
    rintro r name ⟨x, hx, rfl⟩
    exact hkept r x hx
  others r y hy := by
    rw [hmessages, hexternal]
    rcases hnew r y hy with rfl | hentry | ⟨x, hx, hid⟩
    · simp
    · exact .inr hentry
    · rcases h.others r x hx with hroot | hentry
      · refine .inl ?_
        simp only [List.mem_append] at hroot ⊢
        tauto
      · exact .inr (hid ▸ hentry)

/-- A message behind the entries of its maps is listed last. -/
theorem addListed (h : Catalog m ids) (helement : element.Alone)
    (hnested : Nested m entries nested k) (hnames : ∀ x ∈ entries, EntryId x.id) :
    Catalog (OpenApi.addListed m element entries) (ids ++ [element.id]) := by
  have hextends := hnested.extends
  have hother := find?_addListed helement hnested
  obtain ⟨xs, hrest⟩ := rest_addListed helement hnested
  refine h.list (p := messageArena.next k) (fun r x hx => ?_) (fun r y hy => ?_) ?_ (by rw [hrest])
    (by rw [hrest]; rfl)
  · have hold : messageArena.find? k r = some x := hextends.kept r x hx
    have hr : r ≠ messageArena.next k := by
      rintro rfl
      rw [messageArena.find?_next] at hold
      cases hold
    rw [hother, if_neg hr, hold]
    exact ⟨_, rfl, id_adopted _ _ _ _⟩
  · rw [hother] at hy
    by_cases hr : r = messageArena.next k
    · exact .inl hr
    · rw [if_neg hr] at hy
      obtain ⟨x, hx, rfl⟩ := Option.map_eq_some_iff.1 hy
      rw [id_adopted]
      rcases hextends.new r x hx with hold | ⟨e, he, hid⟩
      · exact .inr (.inr ⟨x, hold, rfl⟩)
      · exact .inr (.inl (hid ▸ hnames e he))
  · rw [hother, if_pos rfl]
    exact ⟨_, rfl, rfl⟩

/-- Adding a message without entries puts its full name last in the catalog. -/
theorem addRequest (h : Catalog m ids) {x : Message} (hx : x.messages = []) :
    Catalog (OpenApi.addListed m x []) (ids ++ [x.id]) := by
  rw [addListed_nil m hx]
  have hother : ∀ r, messageArena.find? (listedLast m x) r =
      if r = messageArena.next m then some (x.ownedBy (messageArena.next m))
        else messageArena.find? m r :=
    fun r => messageArena.find?_push m _ r
  refine h.list (p := messageArena.next m) (fun r y hy => ?_) (fun r y hy => ?_) ?_ rfl rfl
  · exact ⟨y, messageArena.find?_push_of_find? hy _, rfl⟩
  · rw [hother] at hy
    by_cases hr : r = messageArena.next m
    · exact .inl hr
    · rw [if_neg hr] at hy
      exact .inr (.inr ⟨y, hy, rfl⟩)
  · exact ⟨x.ownedBy (messageArena.next m), by rw [hother, if_pos rfl], rfl⟩

/-- Listing an external message keeps the catalog. -/
theorem registerMessage (h : Catalog m ids) (name : String) :
    Catalog (WellKnown.registerMessage m name) ids := by
  unfold WellKnown.registerMessage
  split
  · exact h
  · refine ⟨h.listed.imp ?_, fun r x hx => ?_⟩
    · rintro r id ⟨x, hx, rfl⟩
      exact ⟨x, messageArena.find?_push_of_find? hx _, rfl⟩
    · change messageArena.find? (messageArena.push m _) r = some x at hx
      change r ∈ m.messages ++ (m.externalMessages ++ [messageArena.next m]) ∨ _
      rw [messageArena.find?_push] at hx
      split at hx
      · simp [*]
      · rcases h.others r x hx with hroot | hentry
        · refine .inl ?_
          rw [← List.append_assoc]
          exact List.mem_append_left _ hroot
        · exact .inr hentry

end Catalog

/-- What making the messages of component schemas leads to: their full names are listed, and nothing
else has been made. -/
structure SchemasMade (package : String) (m : Model) (ids : List String) : Prop
    extends Catalog m ids, Built (fun parent child => child < parent) m where
  /-- The package is known. -/
  packageName : m.packageName = package
  /-- There is no method yet. -/
  methods : m.store.methods = #[]
  /-- There is no service yet. -/
  services : m.services = []

/-- A document without its elements has made the messages of no component schemas. -/
theorem schemasMade_identity (d : Document) (config : Option ServiceConfig) :
    SchemasMade (d.identity config).packageName (d.identity config) [] := by
  refine ⟨⟨.nil, ?_⟩, .of_empty rfl rfl rfl rfl rfl rfl, rfl, rfl, rfl⟩
  rintro r x ⟨⟩

/-- Adding one more component schema makes its message, behind those before. -/
theorem SchemasMade.addSchema {package : String} (h : SchemasMade package m ids)
    {component : String × Schema}
    (hadd : OpenApi.addSchema m component = .ok other) :
    SchemasMade package other (ids ++ [qualify package component.1]) := by
  obtain ⟨made, hmade, rfl⟩ := of_addSchema hadd
  obtain ⟨helement, hentries⟩ := alone_componentMessage hmade
  obtain ⟨nested, k, hnested⟩ := exists_nested h.toBuilt hentries
  have hcatalog := h.toCatalog.addListed helement hnested fun x hx => by
    obtain ⟨field, hfield, hentry⟩ := List.mem_filterMap.1 hx
    obtain ⟨property, -, hproperty⟩ := Attempt.mapM_forall_right hmade field hfield
    exact entryId_makeField hproperty x hentry
  obtain ⟨xs, hrest⟩ := rest_addListed helement hnested
  have hid : (componentMessage m.packageName component made).id = qualify package component.1 :=
    congrArg (qualify · component.1) h.packageName
  rw [hid] at hcatalog
  refine ⟨hcatalog, built_addSchema h.toBuilt hadd, ?_, ?_, ?_⟩
  · rw [hrest]
    exact h.packageName
  · rw [hrest]
    exact h.methods
  · rw [hrest]
    exact h.services

/-- Adding component schemas makes the messages of all of them, in order. -/
theorem SchemasMade.foldlM {package : String} (h : SchemasMade package m ids)
    {schemas : List (String × Schema)}
    (hadd : schemas.foldlM OpenApi.addSchema m = .ok other) :
    SchemasMade package other (ids ++ schemas.map fun component =>
      qualify package component.1) := by
  induction schemas generalizing m ids with
  | nil =>
    cases hadd
    simpa using h
  | cons component rest ih =>
    rw [List.foldlM_cons, Attempt.bind_eq_ok] at hadd
    obtain ⟨k, hk, hrest⟩ := hadd
    simpa using ih (h.addSchema hk) hrest

end ApiModel.OpenApi
