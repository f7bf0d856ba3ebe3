import ApiModel.Proofs.Documentation.Texts
import ApiModel.Proofs.Text.Occurrences

/-!
# Overrides are local

An override finds its element by the full name, and no two full names find one element. So what a
list of overrides makes of the documentation of an element is told by those of its full name alone,
each of which replaces the first occurrence of its pattern in what those before it left. Overrides
of different full names may change places.
-/

namespace ApiModel

namespace Model

variable {m other : Model} {id text : String} {element : Documented}

/-! ## Finding elements -/

/-- Whether what the indices hold is there and has the name that it is held under. -/
structure IndicesSound (m : Model) : Prop where
  /-- The messages. -/
  messages : ∀ id r, m.messageRef? id = some r → messageArena.Holds m r ∧
    (m.message r).id = id
  /-- The enumerations. -/
  enums : ∀ id r, m.enumRef? id = some r → enumArena.Holds m r ∧ (m.enumeration r).id = id
  /-- The services. -/
  services : ∀ id r, m.serviceRef? id = some r → serviceArena.Holds m r ∧
    (m.service r).id = id
  /-- The methods. -/
  methods : ∀ id r, m.methodRef? id = some r → methodArena.Holds m r ∧ (m.method r).id = id

/-- Whether a model has an element. -/
def Has (m : Model) : Documented → Prop
  | .message r => messageArena.Holds m r
  | .enumeration r => enumArena.Holds m r
  | .service r => serviceArena.Holds m r
  | .method r => methodArena.Holds m r
  | .field r p => ∃ f, (m.message r).fields[p]? = some f
  | .oneOf r p => ∃ o, (m.message r).oneOfs[p]? = some o
  | .enumValue r p => ∃ v, (m.enumeration r).values[p]? = some v

/-- The full name under which overrides find an element, if they do. -/
def overrideName (m : Model) : Documented → String
  | .message r => (m.message r).id
  | .enumeration r => (m.enumeration r).id
  | .service r => (m.service r).id
  | .method r => (m.method r).id
  | .field r p => (m.message r).id ++ "." ++ ((m.message r).fields.getD p default).name
  | .oneOf r p => (m.message r).id ++ "." ++ ((m.message r).oneOfs.getD p default).name
  | .enumValue r p => (m.enumeration r).id ++ "." ++ ((m.enumeration r).values.getD p default).name

/-- An item that is found by a name stands at its position and has the name. -/
theorem of_findIdx? {α : Type} {named : α → String} {name : String} {items : List α}
    {blank : α} {p : Nat} (h : items.findIdx? (fun x => named x == name) = some p) :
    (∃ x, items[p]? = some x) ∧ named (items.getD p blank) = name := by
  obtain ⟨⟨x, hx, hname⟩, -⟩ := (findIdx?_eq_some_iff_firstAt fun _ => beq_iff_eq).1 h
  have hx : items[p]? = some x := hx
  refine ⟨⟨x, hx⟩, ?_⟩
  rw [List.getD_eq_getElem?_getD, hx]
  exact hname

/-- A member that is found is there, and its name is what is behind the last dot. -/
theorem IndicesSound.of_memberById? (h : IndicesSound m)
    (hfound : m.memberById? id = some element) :
    m.Has element ∧ m.overrideName element = id := by
  unfold memberById? at hfound
  split at hfound
  · cases hfound
  · rename_i owner name hsplit
    have hid : String.ofList owner ++ "." ++ String.ofList name = id := by
      rw [← String.toList_inj, (Text.splitLast?_eq_some.1 hsplit).1, toList_member,
        String.toList_ofList, String.toList_ofList]
    split at hfound
    · rename_i r hr
      have howner := (h.messages _ _ hr).2
      unfold memberOf? at hfound
      split at hfound
      · rename_i p hp
        obtain rfl := Option.some.inj hfound
        obtain ⟨hhas, hname⟩ := of_findIdx? hp
        exact ⟨hhas, by rw [overrideName, howner, hname, hid]⟩
      · obtain ⟨p, hp, rfl⟩ := Option.map_eq_some_iff.1 hfound
        obtain ⟨hhas, hname⟩ := of_findIdx? hp
        exact ⟨hhas, by rw [overrideName, howner, hname, hid]⟩
    · obtain ⟨r, hr, hvalue⟩ := Option.bind_eq_some_iff.1 hfound
      have howner := (h.enums _ _ hr).2
      obtain ⟨p, hp, rfl⟩ := Option.map_eq_some_iff.1 hvalue
      obtain ⟨hhas, hname⟩ := of_findIdx? hp
      exact ⟨hhas, by rw [overrideName, howner, hname, hid]⟩

/-- An element that is found is there, and tells the full name that finds it. -/
theorem IndicesSound.of_documentedById? (h : IndicesSound m)
    (hfound : m.documentedById? id = some element) :
    m.Has element ∧ m.overrideName element = id := by
  simp only [documentedById?, Option.orElse_eq_some, Option.map_eq_some_iff] at hfound
  rcases hfound with ⟨r, hr, rfl⟩ | ⟨-,
    ⟨r, hr, rfl⟩ | ⟨-, ⟨r, hr, rfl⟩ | ⟨-, ⟨r, hr, rfl⟩ | ⟨-, hmember⟩⟩⟩⟩
  · exact h.messages id r hr
  · exact h.enums id r hr
  · exact h.services id r hr
  · exact h.methods id r hr
  · exact h.of_memberById? hmember

/-! ## Documentation does not count for finding -/

/-- Lists whose items show the same names give the same position for a name. -/
theorem findIdx?_of_views {α : Type} (view : α → α) (named : α → String)
    (hname : ∀ x, named (view x) = named x) {xs ys : List α} (h : ys.map view = xs.map view)
    (name : String) :
    (ys.findIdx? fun x => named x == name) = xs.findIdx? fun x => named x == name := by
  have hviews := congrArg (List.findIdx? fun x => named x == name) h
  simpa only [List.findIdx?_map, Function.comp_def, hname] using hviews

/-- The same elements are found in models that differ in documentation only. -/
theorem SameButTexts.documentedById? (h : SameButTexts m other) (id : String) :
    other.documentedById? id = m.documentedById? id := by
  have hmember : ∀ r name, other.memberOf? r name = m.memberOf? r name := fun r name => by
    have honeOfs := congrArg Message.oneOfs (h.messageText r)
    unfold memberOf?
    rw [findIdx?_of_views Field.undocumented Field.name (fun _ => rfl) (h.fields r),
      findIdx?_of_views OneOf.undocumented OneOf.name (fun _ => rfl) honeOfs]
  have hvalue : ∀ r name, other.valueOf? r name = m.valueOf? r name := fun r name => by
    have hvalues := congrArg Enumeration.values (h.enumText r)
    unfold valueOf?
    rw [findIdx?_of_views EnumValue.undocumented EnumValue.name (fun _ => rfl) hvalues]
  have hservice : other.serviceRef? id = m.serviceRef? id := by
    rw [serviceRef?, serviceRef?, h.serviceById]
  have hmethod : other.methodRef? id = m.methodRef? id := by
    rw [methodRef?, methodRef?, h.methodById]
  simp only [Model.documentedById?, memberById?, h.messageRef?, h.enumRef?, hservice,
    hmethod, hmember, hvalue]

/-- Indices stay sound where nothing but documentation changes. -/
theorem IndicesSound.of_undocumented (h : IndicesSound m)
    (hsame : other.undocumented = m.undocumented) :
    IndicesSound other := by
  have htexts : SameButTexts m other := sameButTexts_of_undocumented hsame
  constructor
  · intro id r hr
    obtain ⟨hheld, hid⟩ := h.messages id r (htexts.messageRef? id ▸ hr)
    exact ⟨(messageArena.holds_congr htexts.count).2 hheld, (htexts.messageId r).trans hid⟩
  · intro id r hr
    obtain ⟨hheld, hid⟩ := h.enums id r (htexts.enumRef? id ▸ hr)
    exact ⟨(enumArena.holds_congr (size_of_views (congrArg (·.store.enums) hsame))).2 hheld,
      (htexts.enumeration r).trans hid⟩
  · intro id r hr
    rw [serviceRef?, htexts.serviceById] at hr
    obtain ⟨hheld, hid⟩ := h.services id r hr
    exact ⟨(serviceArena.holds_congr (size_of_views (congrArg (·.store.services) hsame))).2
      hheld, (htexts.serviceId r).trans hid⟩
  · intro id r hr
    rw [methodRef?, htexts.methodById] at hr
    obtain ⟨hheld, hid⟩ := h.methods id r hr
    exact ⟨(methodArena.holds_congr (size_of_views (congrArg (·.store.methods) hsame))).2 hheld,
      (htexts.method r).trans hid⟩

/-! ## Setting documentation -/

/-- The documentation that is set for an element is its documentation. -/
theorem documentation_setDocumentation_self (h : m.Has element) (text : String) :
    (m.setDocumentation text element).documentation element = text := by
  cases element with
  | message r => exact congrArg Message.documentation (messageArena.get_modify_self h _)
  | enumeration r => exact congrArg Enumeration.documentation (enumArena.get_modify_self h _)
  | service r => exact congrArg Service.documentation (serviceArena.get_modify_self h _)
  | method r => exact congrArg Method.documentation (methodArena.get_modify_self h _)
  | field r p =>
    obtain ⟨f, hf⟩ := h
    exact documentation_setDocumentation_field_self hf
  | oneOf r p =>
    obtain ⟨o, ho⟩ := h
    have hedit : ∀ x : Message,
        ({ x with oneOfs := x.oneOfs.modify p fun o =>
          { o with documentation := text } } : Message).oneOfs =
          x.oneOfs.modify p fun o => { o with documentation := text } := fun _ => rfl
    have hset : ((m.setDocumentation text (.oneOf r p)).message r).oneOfs[p]? =
        some { o with documentation := text } :=
      getElem?_modify_part_self messageArena Message.oneOfs hedit rfl ho
    rw [documentation, List.getD_eq_getElem?_getD, hset, Option.getD_some]
  | enumValue r p =>
    obtain ⟨v, hv⟩ := h
    exact documentation_setDocumentation_enumValue_self hv

/-- Setting the documentation of an element leaves that of every other. -/
theorem documentation_setDocumentation_of_ne {changed : Documented} (h : element ≠ changed)
    (text : String) :
    (m.setDocumentation text changed).documentation element = m.documentation element := by
  cases element with
  | field r p => exact documentation_setDocumentation_field (Ne.symm h)
  | enumValue r p => exact documentation_setDocumentation_enumValue (Ne.symm h)
  | message r =>
    cases changed with
    | message s =>
      have hs : r ≠ s := fun hs => h (congrArg Documented.message hs)
      exact congrArg Message.documentation (messageArena.get_modify_of_ne m hs _)
    | field s q => exact messageArena.get_modify_keeps Message.documentation m s r rfl
    | oneOf s q => exact messageArena.get_modify_keeps Message.documentation m s r rfl
    | _ => rfl
  | enumeration r =>
    cases changed with
    | enumeration s =>
      have hs : r ≠ s := fun hs => h (congrArg Documented.enumeration hs)
      exact congrArg Enumeration.documentation (enumArena.get_modify_of_ne m hs _)
    | enumValue s q => exact enumArena.get_modify_keeps Enumeration.documentation m s r rfl
    | _ => rfl
  | service r =>
    cases changed with
    | service s =>
      have hs : r ≠ s := fun hs => h (congrArg Documented.service hs)
      exact congrArg Service.documentation (serviceArena.get_modify_of_ne m hs _)
    | _ => rfl
  | method r =>
    cases changed with
    | method s =>
      have hs : r ≠ s := fun hs => h (congrArg Documented.method hs)
      exact congrArg Method.documentation (methodArena.get_modify_of_ne m hs _)
    | _ => rfl
  | oneOf r p =>
    have hview : ∀ {x y : Message}, x.oneOfs[p]? = y.oneOfs[p]? →
        (x.oneOfs.getD p default).documentation =
          (y.oneOfs.getD p default).documentation := by
      intro x y hsame
      rw [List.getD_eq_getElem?_getD, List.getD_eq_getElem?_getD, hsame]
    cases changed with
    | oneOf s q =>
      refine hview
        (getElem?_modify_part_of_ne messageArena Message.oneOfs (fun _ => rfl) fun hs hq => ?_)
      exact h (by rw [hs, hq])
    | message s =>
      exact hview (messageArena.get_modify_keeps (fun x : Message => x.oneOfs[p]?) m s r rfl)
    | field s q =>
      exact hview (messageArena.get_modify_keeps (fun x : Message => x.oneOfs[p]?) m s r rfl)
    | _ => rfl

/-! ## One override -/

/-- An override succeeds if it finds an element and its pattern occurs there; then it replaces the
first occurrence. -/
theorem patch_eq_ok_iff {item : DocumentationOverride} :
    m.patch item = .ok other ↔
      ∃ element before after, m.documentedById? item.id = some element ∧
        Text.FirstOccurrence item.pattern (m.documentation element) before after ∧
        other = m.setDocumentation (before ++ item.replacement ++ after) element := by
  unfold patch
  cases hfound : m.documentedById? item.id with
  | none =>
    refine iff_of_false (fun h => by cases h) ?_
    rintro ⟨element, -, -, helement, -⟩
    cases helement
  | some element =>
    dsimp only
    cases hreplaced : Text.replaceFirst? item.pattern.toList item.replacement.toList
        (m.documentation element).toList with
    | none =>
      refine iff_of_false (fun h => by cases h) ?_
      rintro ⟨found, before, after, helement, hfirst, -⟩
      obtain rfl := Option.some.inj helement
      have hnone :=
        hreplaced.symm.trans (Text.replaceFirst?_eq_some_iff.2 ⟨before, after, hfirst, rfl⟩)
      cases hnone
    | some result =>
      constructor
      · intro h
        obtain rfl := Except.ok.inj h
        obtain ⟨before, after, hfirst, rfl⟩ := Text.replaceFirst?_eq_some_iff.1 hreplaced
        exact ⟨element, before, after, rfl, hfirst, by rw [String.ofList_toList]⟩
      · rintro ⟨found, before, after, helement, hfirst, rfl⟩
        obtain rfl := Option.some.inj helement
        have hresult :=
          hreplaced.symm.trans (Text.replaceFirst?_eq_some_iff.2 ⟨before, after, hfirst, rfl⟩)
        simp only [Option.some.inj hresult, String.ofList_toList]

/-! ## Lists of overrides -/

/-- What overrides of one element make of a text, one after the other: each replaces the first
occurrence of its pattern. -/
inductive Rewritten : List DocumentationOverride → String → String → Prop
  /-- Without overrides, the text stays. -/
  | nil (text : String) : Rewritten [] text text
  /-- The first replaces an occurrence in the text, the others go on with what it left. -/
  | cons {item : DocumentationOverride} {rest : List DocumentationOverride}
      {text before after last : String}
    (hfirst : Text.FirstOccurrence item.pattern text before after)
    (hrest : Rewritten rest (before ++ item.replacement ++ after) last) :
    Rewritten (item :: rest) text last

/-- A list of overrides rewrites a text to one text only. -/
theorem Rewritten.unique {overrides : List DocumentationOverride} {last last' : String}
    (h : Rewritten overrides text last) (h' : Rewritten overrides text last') : last' = last := by
  induction h with
  | nil text =>
    cases h'
    rfl
  | cons hfirst _ ih =>
    cases h' with
    | cons hother hrest =>
      obtain ⟨rfl, rfl⟩ := hfirst.unique hother
      exact ih hrest

/-- Whether overrides lead from a model to another: they all find elements, and make of the
documentation of each what those that find it make of it, and nothing else changes. -/
structure Patched (m : Model) (overrides : List DocumentationOverride) (other : Model) : Prop where
  /-- All find elements. -/
  found : ∀ item ∈ overrides, (m.documentedById? item.id).isSome
  /-- The documentation of an element is rewritten by those that find it. -/
  texts :
    ∀ element, Rewritten (overrides.filter fun item => m.documentedById? item.id = some element)
    (m.documentation element) (other.documentation element)
  /-- Nothing else changes. -/
  rest : other.undocumented = m.undocumented

/-- A list of overrides leads from a model to one model only. -/
theorem Patched.unique {overrides : List DocumentationOverride} {last : Model}
    (h : Patched m overrides other) (h' : Patched m overrides last) : last = other :=
  eq_of_texts (h'.rest.trans h.rest.symm) fun element => (h.texts element).unique (h'.texts element)

/-- An empty list of overrides leads from a model to itself only. -/
theorem patched_nil : Patched m [] other ↔ other = m := by
  have hself : Patched m [] m :=
    ⟨fun _ hitem => absurd hitem List.not_mem_nil, fun _ => .nil _, rfl⟩
  exact ⟨hself.unique, fun h => h ▸ hself⟩

/-- Overrides lead on from a model with one text set to where they lead if they go on with that text
and with all others. -/
theorem IndicesSound.patched_setDocumentation (h : IndicesSound m)
    (helement : m.documentedById? id = some element) (text : String)
    {overrides : List DocumentationOverride} :
    Patched (m.setDocumentation text element) overrides other ↔
      (∀ item ∈ overrides, (m.documentedById? item.id).isSome) ∧
      Rewritten (overrides.filter fun item => m.documentedById? item.id = some element) text
        (other.documentation element) ∧
      (∀ e ≠ element,
        Rewritten (overrides.filter fun item => m.documentedById? item.id = some e)
        (m.documentation e) (other.documentation e)) ∧
      other.undocumented = m.undocumented := by
  have hrest := undocumented_setDocumentation m text element
  have hfind := (sameButTexts_of_undocumented hrest).documentedById?
  have hself := documentation_setDocumentation_self (h.of_documentedById? helement).1 text
  have hothers : ∀ e ≠ element, (m.setDocumentation text element).documentation e =
      m.documentation e :=
    fun e he => documentation_setDocumentation_of_ne he text
  constructor
  · rintro ⟨hfound, htexts, hsame⟩
    simp only [hfind] at hfound htexts
    refine ⟨hfound, hself ▸ htexts element, fun e he => hothers e he ▸ htexts e,
      hsame.trans hrest⟩
  · rintro ⟨hfound, htext, htexts, hsame⟩
    refine ⟨?_, fun e => ?_, hsame.trans hrest.symm⟩
    · simpa only [hfind] using hfound
    · simp only [hfind]
      by_cases he : e = element
      · rw [he, hself]
        exact htext
      · rw [hothers e he]
        exact htexts e he

/-- A list of overrides leads on from where its first one leads. -/
theorem IndicesSound.patched_cons (h : IndicesSound m) {item : DocumentationOverride}
    {rest : List DocumentationOverride} :
    Patched m (item :: rest) other ↔ ∃ a, m.patch item = .ok a ∧ Patched a rest other := by
  -- the first one is among those of the element that it finds, and not among those of any other
  have hfilter : ∀ {element}, m.documentedById? item.id = some element →
      (item :: rest).filter (fun item => m.documentedById? item.id = some element) =
        item :: rest.filter (fun item => m.documentedById? item.id = some element) ∧
      ∀ e ≠ element, (item :: rest).filter (fun item => m.documentedById? item.id = some e) =
        rest.filter fun item => m.documentedById? item.id = some e := by
    intro element helement
    refine ⟨List.filter_cons_of_pos (decide_eq_true helement), fun e he => ?_⟩
    refine List.filter_cons_of_neg fun hfound => he ?_
    exact Option.some.inj ((of_decide_eq_true hfound).symm.trans helement)
  constructor
  · intro hp
    obtain ⟨element, helement⟩ := Option.isSome_iff_exists.1 (hp.found item List.mem_cons_self)
    obtain ⟨hself, hothers⟩ := hfilter helement
    have htext := hp.texts element
    rw [hself] at htext
    cases htext with
    | cons hfirst hrest =>
      refine ⟨_, patch_eq_ok_iff.2 ⟨element, _, _, helement, hfirst, rfl⟩, ?_⟩
      refine (h.patched_setDocumentation helement _).2 ⟨?_, hrest, fun e he => ?_, hp.rest⟩
      · exact fun item hitem => hp.found item (List.mem_cons_of_mem _ hitem)
      · exact hothers e he ▸ hp.texts e
  · rintro ⟨a, hpatch, hp⟩
    obtain ⟨element, before, after, helement, hfirst, rfl⟩ := patch_eq_ok_iff.1 hpatch
    obtain ⟨hself, hothers⟩ := hfilter helement
    obtain ⟨hfound, htext, htexts, hsame⟩ := (h.patched_setDocumentation helement _).1 hp
    refine ⟨List.forall_mem_cons.2 ⟨Option.isSome_iff_exists.2 ⟨_, helement⟩, hfound⟩,
      fun e => ?_, hsame⟩
    by_cases he : e = element
    · rw [he, hself]
      exact .cons hfirst htext
    · rw [hothers e he]
      exact htexts e he

/-- An override leaves the indices sound. -/
theorem IndicesSound.patch (h : IndicesSound m) {item : DocumentationOverride} {a : Model}
    (hpatch : m.patch item = .ok a) : IndicesSound a := by
  obtain ⟨element, before, after, -, -, rfl⟩ := patch_eq_ok_iff.1 hpatch
  exact h.of_undocumented (undocumented_setDocumentation m _ element)

/-- Overrides come to their end in a model if and only if they lead to it. -/
theorem IndicesSound.patchAll_eq_iff (h : IndicesSound m) {overrides : List DocumentationOverride} :
    m.patchAll overrides = ⟨other, none⟩ ↔ Patched m overrides other := by
  induction overrides generalizing m with
  | nil =>
    rw [patched_nil, patchAll, Outcome.forEach, Outcome.mk.injEq]
    exact ⟨fun hend => hend.1.symm, fun hend => ⟨hend.symm, rfl⟩⟩
  | cons item rest ih =>
    rw [h.patched_cons, patchAll, Outcome.forEach]
    cases hpatch : m.patch item with
    | error e =>
      refine iff_of_false (fun hend => ?_) ?_
      · cases congrArg Outcome.error? hend
      · rintro ⟨a, ha, -⟩
        cases ha
    | ok a =>
      refine (ih (h.patch hpatch)).trans ⟨fun hp => ⟨a, rfl, hp⟩, ?_⟩
      rintro ⟨b, hb, hp⟩
      rwa [Except.ok.inj hb]

/-- Whether a list has the same overrides of each full name, in the same order. -/
def Reorders (overrides reordered : List DocumentationOverride) : Prop :=
  ∀ id, (reordered.filter fun item => item.id = id) = overrides.filter fun item => item.id = id

/-- The overrides that find an element are those of the full name that finds it. -/
theorem IndicesSound.filter_found (h : IndicesSound m)
    (helement : m.documentedById? id = some element) (overrides : List DocumentationOverride) :
    (overrides.filter fun item => m.documentedById? item.id = some element) =
      overrides.filter fun item => item.id = id := by
  refine List.filter_congr fun item _ => decide_eq_decide.2 ⟨fun hfound => ?_, ?_⟩
  · exact (h.of_documentedById? hfound).2.symm.trans (h.of_documentedById? helement).2
  · rintro rfl
    exact helement

/-- Overrides lead to the same model in any order that keeps those of each full name in order. -/
theorem Patched.of_reorders {overrides reordered : List DocumentationOverride}
    (hp : Patched m overrides other) (h : IndicesSound m) (hsame : Reorders overrides reordered) :
    Patched m reordered other := by
  have hmem : ∀ item ∈ reordered, item ∈ overrides := fun item hitem => by
    have hself : item ∈ reordered.filter fun other => other.id = item.id :=
      List.mem_filter.2 ⟨hitem, decide_eq_true rfl⟩
    exact List.mem_of_mem_filter (hsame item.id ▸ hself)
  refine ⟨fun item hitem => hp.found item (hmem item hitem), fun element => ?_, hp.rest⟩
  have htexts := hp.texts element
  by_cases hnamed : ∃ id, m.documentedById? id = some element
  · obtain ⟨id, helement⟩ := hnamed
    rw [h.filter_found helement] at htexts ⊢
    rwa [hsame id]
  · have hnone : ∀ items : List DocumentationOverride,
        (items.filter fun item => m.documentedById? item.id = some element) = [] := fun items =>
      List.filter_eq_nil_iff.2 fun item _ hfound => hnamed ⟨item.id, of_decide_eq_true hfound⟩
    rw [hnone] at htexts ⊢
    exact htexts

/-- Where a list of overrides comes to its end, it changed nothing but documentation, and only that
of the elements that it names, each under one full name. The documentation of an element is what the
overrides of its full name make of it, in their order; in what order they stand among others does
not count. -/
theorem patchAll_local (h : IndicesSound m) {overrides : List DocumentationOverride}
    (hend : m.patchAll overrides = ⟨other, none⟩) :
    other.undocumented = m.undocumented ∧
      (∀ item ∈ overrides, ∃ element, m.documentedById? item.id = some element) ∧
      (∀ element, (∀ item ∈ overrides, m.documentedById? item.id ≠ some element) →
        other.documentation element = m.documentation element) ∧
      (∀ id element, m.documentedById? id = some element →
        m.overrideName element = id ∧
          Rewritten (overrides.filter fun item => item.id = id) (m.documentation element)
            (other.documentation element)) ∧
      ∀ reordered, Reorders overrides reordered → m.patchAll reordered = ⟨other, none⟩ := by
  have hp := h.patchAll_eq_iff.1 hend
  refine ⟨hp.rest, fun item hitem => Option.isSome_iff_exists.1 (hp.found item hitem),
    fun element hnone => ?_, fun id element helement => ⟨(h.of_documentedById? helement).2, ?_⟩,
    fun reordered hsame => h.patchAll_eq_iff.2 (hp.of_reorders h hsame)⟩
  · have hkept := hp.texts element
    rw [List.filter_eq_nil_iff.2 fun item hitem hfound =>
      hnone item hitem (of_decide_eq_true hfound)]
      at hkept
    exact (Rewritten.nil _).unique hkept
  · rw [← h.filter_found helement]
    exact hp.texts element

/-! ## Models that were read -/

/-- The indices of a sound model are sound, if they are those of its listing. -/
theorem Indexed.indicesSound (h : Indexed m) (hsound : Sound m) : IndicesSound m where
  messages id r hr := by
    have hheld := hsound.roster.indexedMessages r (Index.mem_values.2 ⟨id, hr⟩)
    exact ⟨hasMessage_iff_holds.1 hheld, (h.of_messageRef? hr).2⟩
  enums id r hr := by
    obtain ⟨p, hp⟩ := hsound.roster.indexedEnums r (Index.mem_values.2 ⟨id, hr⟩)
    obtain ⟨x, hx, -⟩ := Option.map_eq_some_iff.1 hp
    exact ⟨enumArena.holds_of_find? hx, (h.of_enumRef? hr).2⟩
  services id r hr := by
    have hheld := hsound.roster.indexedServices r (Index.mem_values.2 ⟨id, hr⟩)
    rw [serviceRef?, h.services] at hr
    exact ⟨hheld, (of_get?_indexBy hr).2⟩
  methods id r hr :=
    ⟨hsound.roster.indexedMethods r (Index.mem_values.2 ⟨id, hr⟩), (h.of_methodRef? hr).2⟩

/-- Two overrides of a property, with one of its schema between them. -/
def labelOverrides : List DocumentationOverride :=
  [⟨".Shelf.label", "colour", "color"⟩, ⟨".Shelf", "", "A shelf."⟩,
    ⟨".Shelf.label", "color", "hue"⟩]

/-- The overrides of the label rewrite the property one after the other, also if the one of its
schema comes last. -/
theorem patchAll_local_labels :
    ∃ m a other, Parsed m ∧ m.crossReference.result = .ok a ∧ IndicesSound a ∧
      a.patchAll labelOverrides = ⟨other, none⟩ ∧
      other.documentation (.field ⟨0⟩ 0) = "The hue." ∧
      other.documentation (.field ⟨0⟩ 1) = "The colour." ∧
      a.patchAll [⟨".Shelf.label", "colour", "color"⟩, ⟨".Shelf.label", "color", "hue"⟩,
        ⟨".Shelf", "", "A shelf."⟩] = ⟨other, none⟩ := by
  have hread :
    (labels.model none).toOption.any (fun m => m.crossReference.result.toOption.any fun a =>
      decide ((a.patchAll labelOverrides).error? = none ∧
        (a.patchAll labelOverrides).model.documentation (.field ⟨0⟩ 0) = "The hue." ∧
        a.documentation (.field ⟨0⟩ 1) = "The colour." ∧
        (∀ item ∈ labelOverrides, a.documentedById? item.id ≠ some (.field ⟨0⟩ 1)))) =
          true := by
    decide +kernel
  obtain ⟨m, hm, hread⟩ := Attempt.exists_ok_of_any hread
  obtain ⟨a, ha, hread⟩ := Attempt.exists_ok_of_any hread
  obtain ⟨hend, hlabel, hcolour, hnone⟩ := of_decide_eq_true hread
  have hparsed : Parsed m := .discovery hm
  obtain ⟨-, rfl⟩ := Outcome.result_eq_ok.1 ha
  obtain ⟨⟨before, hbuilt⟩, -⟩ := hparsed.built
  have hsound : IndicesSound m.crossReference.model :=
    (indexed_crossReference m).indicesSound hbuilt.toSound.crossReference
  have hend : m.crossReference.model.patchAll labelOverrides =
      ⟨(m.crossReference.model.patchAll labelOverrides).model, none⟩ :=
        congrArg (Outcome.mk _) hend
  obtain ⟨-, -, hkept, -, hreorders⟩ := patchAll_local hsound hend
  refine ⟨m, _, _, hparsed, ha, hsound, hend, hlabel, (hkept _ hnone).trans hcolour,
    hreorders _ fun id => ?_⟩
  by_cases hshelf : ".Shelf" = id
  · subst hshelf
    decide +kernel
  · by_cases hproperty : ".Shelf.label" = id
    · subst hproperty
      decide +kernel
    · simp [labelOverrides, hshelf, hproperty]

end Model

end ApiModel
