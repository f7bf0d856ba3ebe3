import ApiModel.Proofs.Graph.Creation
import ApiModel.Proofs.OpenApi.Entries

/-!
# What the full names of entries find

Assembly looks up the entry of a map field by its full name. Before the component of the entry
nothing can have that name, and of the entries of the component that have it the first is found. A
component whose own name is that of an entry is not found itself, since the component of that entry
comes before it.
-/

namespace ApiModel.OpenApi

open Model

/-! ## First items of lists that correspond -/

/-- A position in one of two lists that correspond splits both before items that correspond. -/
theorem exists_before {α β : Type} {R : α → β → Prop} {xs : List α} {ys : List β}
    (h : List.Forall₂ R xs ys) :
    List.Forall₂ (fun x y => R x y ∧ ∃ before after earlier later, xs =
      before ++ x :: after ∧
      ys = earlier ++ y :: later ∧ List.Forall₂ R before earlier) xs ys := by
  induction h with
  | nil => exact .nil
  | @cons x y xs ys hxy hrest ih =>
    refine .cons ⟨hxy, [], xs, [], ys, rfl, rfl, .nil⟩ (ih.imp ?_)
    rintro a b ⟨hab, before, after, earlier, later, rfl, rfl, hbefore⟩
    exact ⟨hab, x :: before, after, y :: earlier, later, rfl, rfl, .cons hxy hbefore⟩

/-- Searching for an item finds the one that corresponds to the first of its kind. -/
theorem exists_firstAt {α β : Type} {p : α → Prop} {test : β → Bool} {xs : List α}
    {ys : List β} (h : List.Forall₂ (fun x y => test y = true ↔ p x) xs ys) {x : α}
    (hx : x ∈ xs) (hp : p x) :
    ∃ i y, FirstAt p xs i ∧ ys[i]? = some y ∧ ys.find? test = some y := by
  induction h with
  | nil => cases hx
  | @cons a b xs ys hab _ ih =>
    by_cases ha : p a
    · refine ⟨0, b, ⟨⟨a, rfl, ha⟩, fun j hj => absurd hj (Nat.not_lt_zero j)⟩, rfl, ?_⟩
      exact List.find?_cons_of_pos (hab.2 ha)
    · have hrest : x ∈ xs := (List.mem_cons.1 hx).resolve_left fun hxa => ha (hxa ▸ hp)
      obtain ⟨i, y, ⟨hitem, hbefore⟩, hy, hfound⟩ := ih hrest
      refine ⟨i + 1, y, ⟨hitem, fun j hj => ?_⟩, hy, ?_⟩
      · cases j with
        | zero =>
          rintro _ ⟨⟩
          exact ha
        | succ j => exact hbefore j (Nat.lt_of_succ_lt_succ hj)
      · rw [List.find?_cons_of_neg fun htest => ha (hab.1 htest), hfound]

/-! ## What full names find -/

/-- Whether the messages of the component schemas of a document are listed first. -/
structure HasComponents (d : Document) (m : Model) (components : List MessageRef) : Prop where
  /-- The model is built. -/
  built : Built (fun parent child => child < parent) m
  /-- The component schemas ascend in their names. -/
  ascending : Index.Ascending d.schemas
  /-- Their messages are listed first. -/
  listed : ∃ others, m.messages = components ++ others
  /-- They are the ones of the components. -/
  components : List.Forall₂ (ComponentMessage m.packageName m) d.schemas components

variable {d : Document} {config : Option ServiceConfig} {m : Model} {components : List MessageRef}
  {package : String}

/-- A document that is read gives the messages of its component schemas. -/
theorem hasComponents_model {levels : Nat} {value : Json.Value}
    (hread : Document.read levels value = some d) (h : d.model config = .ok m) :
    HasComponents d m (m.messages.take d.schemas.length) := by
  obtain ⟨components, others, hlisted, hplaced⟩ := exists_allPlaced h
  have htake : m.messages.take d.schemas.length = components := by
    rw [hlisted, hplaced.length_eq, List.take_left]
  rw [htake]
  refine ⟨built_model h, ascending_schemas hread, ⟨others, hlisted⟩, hplaced.imp ?_⟩
  rintro component r ⟨made, x, hx⟩
  exact hx.componentMessage

/-- Behind a message whose nested messages nest nothing, these are visited from the last to the
first. -/
theorem visitMessage_of_leaves (h : Built (fun parent child => child < parent) m) {r : MessageRef}
    (hr : messageArena.Holds m r)
    (hleaves : ∀ c ∈ (m.message r).messages, (m.message c).messages = []) :
    m.visitMessage m.store.messages.size r = r :: (m.message r).messages.reverse := by
  have hsize : r.index < m.store.messages.size := hr
  have hbefore : ∀ c ∈ (m.message r).messages, c.index < r.index := fun c hc =>
    h.order r _ (messageArena.find?_of_holds hr) c hc
  obtain ⟨depth, hdepth⟩ :=
    Nat.exists_eq_succ_of_ne_zero (Nat.ne_of_gt (Nat.zero_lt_of_lt hsize))
  rw [hdepth, visitMessage]
  refine congrArg (r :: ·) ((List.flatMap_congr fun c hc => ?_).trans (List.flatMap_singleton' _))
  have hnested := List.mem_reverse.1 hc
  cases depth with
  | zero =>
    have hlt := hbefore c hnested
    omega
  | succ depth =>
    rw [visitMessage, hleaves c hnested]
    rfl

namespace HasComponents

variable (h : HasComponents d m components)

include h

/-- The messages of components are at the top. -/
theorem mem_roots {r : MessageRef} (hr : r ∈ components) :
    r ∈ m.messages ++ m.externalMessages := by
  obtain ⟨others, hlisted⟩ := h.listed
  rw [hlisted]
  exact List.mem_append_left _ (List.mem_append_left _ hr)

/-- The messages of components are in the store. -/
theorem holds {r : MessageRef} (hr : r ∈ components) : messageArena.Holds m r := by
  obtain ⟨n, hroot⟩ := h.built.toSound.roster.messages r (h.mem_roots hr)
  exact hasMessage_iff_holds.1 ⟨_, hroot⟩

/-- What is searched in the message of a component: its entries, and then itself. -/
theorem find?_visited {component : String × Schema} {r : MessageRef}
    (hr : r ∈ components) (hcomponent : ComponentMessage m.packageName m component r)
    (test : MessageRef → Bool) : (m.visitMessage m.store.messages.size r).reverse.find? test =
      ((m.message r).messages ++ [r]).find? test := by
  have hleaves : ∀ c ∈ (m.message r).messages, (m.message c).messages = [] := by
    intro c hc
    obtain ⟨property, -, hentry⟩ := Attempt.exists_mem_left hcomponent.entries c hc
    exact hentry.messages
  rw [visitMessage_of_leaves h.built (h.holds hr) hleaves, List.reverse_cons,
    List.reverse_reverse]

/-- A full name that no earlier component or entry has is found in the message of the component that
has it. -/
theorem messageRef?_of_first :
    List.Forall₂ (fun component r => ComponentMessage m.packageName m component r ∧
      ∀ key c, (∀ other ∈ d.schemas, other.1 < component.1 →
        qualify m.packageName other.1 ≠ key ∧
          ∀ property ∈ other.2.maps, qualify m.packageName other.1 ++ "." ++
            entryName property.1 ≠ key) →
        (((m.message r).messages ++ [r]).find? fun s => (m.message s).id == key) = some c →
        m.buildIndices.messageRef? key = some c) d.schemas components := by
  refine (exists_before h.components).imp ?_
  rintro component r ⟨hcomponent, before, after, earlier, later, hschemas, hsplit, hearlier⟩
  refine ⟨hcomponent, fun key c hnone hfound => ?_⟩
  obtain ⟨others, hlisted⟩ := h.listed
  have hascending : (before ++ component :: after).Pairwise fun first second =>
      first.1 < second.1 :=
    hschemas ▸ h.ascending
  have hr : r ∈ components := hsplit ▸ List.mem_append_right _ List.mem_cons_self
  have hfirst :
    (earlier.findSome? fun s => (m.visitMessage m.store.messages.size s).reverse.find? fun t =>
      (m.message t).id == key) = none := by
    rw [List.findSome?_eq_none_iff]
    intro s hs
    obtain ⟨other, hother, hmessage⟩ := Attempt.exists_mem_left hearlier s hs
    obtain ⟨hself, hentries⟩ := hnone other (hschemas ▸ List.mem_append_left _ hother)
      ((List.pairwise_append.1 hascending).2.2 other hother component List.mem_cons_self)
    rw [h.find?_visited (hsplit ▸ List.mem_append_left _ hs) hmessage, List.find?_eq_none]
    intro t ht
    rw [beq_iff_eq]
    rcases List.mem_append.1 ht with ht | ht
    · obtain ⟨property, hproperty, hentry⟩ := Attempt.exists_mem_left hmessage.entries t ht
      rw [hentry.id, hmessage.id]
      exact hentries property hproperty
    · rw [List.mem_singleton.1 ht, hmessage.id]
      exact hself
  rw [messageRef?_buildIndices, get?_visitedMessages_eq_findSome?, hlisted, hsplit,
    List.append_assoc, List.append_assoc, List.findSome?_append, hfirst, Option.none_or,
    List.cons_append, List.findSome?_cons,
    h.find?_visited hr hcomponent, hfound]

/-- The full name of an entry finds that of the first map of the component with this name in Pascal
case. -/
theorem messageRef?_entry :
    List.Forall₂ (fun component r => ComponentMessage m.packageName m component r ∧
      ∀ property ∈ component.2.maps, ∃ i c,
        FirstAt (fun other : String × Schema => entryName other.1 = entryName property.1)
          component.2.maps i ∧
          (m.message r).messages[i]? = some c ∧
          m.buildIndices.messageRef? ((m.message r).id ++ "." ++ entryName property.1) = some c)
    d.schemas components := by
  refine h.messageRef?_of_first.imp ?_
  rintro component r ⟨hcomponent, hlookup⟩
  refine ⟨hcomponent, fun property hproperty => ?_⟩
  have hentries := hcomponent.entries.imp fun other c hentry => by
    have hname : ((m.message c).id == (m.message r).id ++ "." ++ entryName property.1) = true ↔
        entryName other.1 = entryName property.1 := by
      rw [beq_iff_eq, hentry.id, entryId_inj, and_iff_right rfl]
    exact hname
  obtain ⟨i, c, hfirst, hc, hfound⟩ := exists_firstAt hentries hproperty rfl
  refine ⟨i, c, hfirst, hc, hlookup _ c (fun other _ hlt => ?_) ?_⟩
  · rw [hcomponent.id]
    refine ⟨fun hself => ?_, fun another _ hsame => ?_⟩
    · -- a component of that name would come later
      have hname := eq_of_qualify_eq_entryId.1 hself
      exact String.lt_asymm hlt (hname ▸ lt_append_dot _ _)
    · have hname := qualify_inj.1 (entryId_inj.1 hsame).1
      exact String.lt_irrefl _ (hname ▸ hlt)
  · rw [List.find?_append, hfound, Option.some_or]

/-- The message of a component is indexed if and only if the component is not named like an
entry. -/
theorem mem_indexedMessages_iff : List.Forall₂ (fun (component : String × Schema) r =>
      r ∈ m.buildIndices.indexedMessages ↔
      component.1 ∉ d.entryNames) d.schemas components := by
  have hlisting := sameListing_buildIndices m
  refine List.forall₂_iff_zip.2 ⟨h.components.length_eq, fun {component r} hzip => ?_⟩
  obtain ⟨hcomponent, hlookup⟩ := (List.forall₂_iff_zip.1 h.messageRef?_of_first).2 hzip
  rw [(indexed_buildIndices m).mem_indexedMessages, hlisting.messageId, hcomponent.id]
  constructor
  · intro hfound hentry
    obtain ⟨other, hother, hentry⟩ := List.mem_flatMap.1 hentry
    obtain ⟨property, hproperty, hname⟩ := List.mem_map.1 hentry
    obtain ⟨s, -, hmessage, hentries⟩ :=
      Attempt.exists_mem_right h.messageRef?_entry other hother
    obtain ⟨i, c, -, hc, hplace⟩ := hentries property hproperty
    rw [hmessage.id, ← eq_of_qualify_eq_entryId.2 hname.symm, hfound] at hplace
    obtain rfl := Option.some.inj hplace
    exact h.built.toSound.not_nestedIn_of_root (h.mem_roots (List.of_mem_zip hzip).2)
      (List.mem_of_getElem? hc)
  · intro hname
    refine hlookup _ r
      (fun other hother hlt => ⟨fun hself => ?_, fun property hproperty hsame => ?_⟩) ?_
    · exact String.lt_irrefl _ (qualify_inj.1 hself ▸ hlt)
    · have hentry := eq_of_qualify_eq_entryId.1 hsame.symm
      exact hname (List.mem_flatMap.2
        ⟨other, hother, List.mem_map.2 ⟨property, hproperty, hentry.symm⟩⟩)
    · have hnone : ((m.message r).messages.find? fun s =>
          (m.message s).id == qualify m.packageName component.1) = none := by
        rw [List.find?_eq_none]
        intro c hc
        obtain ⟨property, -, hentry⟩ := Attempt.exists_mem_left hcomponent.entries c hc
        rw [beq_iff_eq, hentry.id, ← hcomponent.id]
        exact fun hsame => String.lt_irrefl _ (hsame ▸ lt_append_dot _ (entryName property.1))
      rw [List.find?_append, hnone, Option.none_or, List.find?_singleton, hcomponent.id,
        beq_self_eq_true]
      rfl

end HasComponents

end ApiModel.OpenApi
