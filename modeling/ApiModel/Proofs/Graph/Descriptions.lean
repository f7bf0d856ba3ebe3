import ApiModel.Proofs.Graph.Documents
import ApiModel.Proofs.OpenApi.Fields

/-!
# Models of interface descriptions are built

The reader of interface descriptions adds the entry messages of maps before the message that owns
them, so messages are nested from later places in earlier ones. What it builds is sound and fresh.
-/

namespace ApiModel.OpenApi

open Model

variable {before : Nat → Nat → Prop} {m k other : Model}

/-! ## What stands alone -/

/-- The entry message of a map stands alone. -/
theorem alone_mapEntry {package id name : String} {schema : Schema} {x : Message}
    (h : mapEntry package id name schema = .ok x) : x.Alone := by
  obtain ⟨type, -, rfl⟩ := of_mapEntry h
  refine ⟨fun f hf => ?_, rfl, rfl, rfl, rfl, rfl⟩
  rcases List.mem_pair.1 hf with rfl | rfl
  · exact ⟨rfl, rfl⟩
  · exact ⟨rfl, rfl⟩

/-- The field of a schema is plain. -/
theorem plain_makeField {package messageId name : String} {schema : Schema} {made : MadeField}
    (h : makeField package messageId name schema = .ok made) : made.field.Plain := by
  cases makes_makeField h with
  | single => exact ⟨rfl, rfl⟩
  | list => exact ⟨rfl, rfl⟩
  | map => exact ⟨rfl, rfl⟩

/-- Presence keeps a field plain. -/
theorem plain_withPresence {required : Bool} {f : Field} (h : f.Plain) :
    (withPresence required f).Plain := by
  unfold withPresence
  split
  · exact ⟨h.target, h.group⟩
  · exact ⟨h.target, h.group⟩

/-- The request message of a method stands alone. -/
theorem alone_requestMessage {package methodId methodName : String} {c : Call} {x : Message}
    (h : requestMessage package methodId methodName c = .ok x) : x.Alone := by
  unfold requestMessage at h
  obtain ⟨parameters, hparameters, h⟩ := Attempt.bind_eq_ok.1 h
  obtain ⟨body, hbody, h⟩ := Attempt.bind_eq_ok.1 h
  obtain rfl := Except.ok.inj h
  refine ⟨fun f hf => ?_, rfl, rfl, rfl, rfl, rfl⟩
  rcases List.mem_append.1 hf with hf | hf
  · obtain ⟨p, -, hp⟩ := Attempt.mapM_forall_right hparameters f hf
    obtain ⟨made, documentation, hmade, -, rfl⟩ := of_parameterField hp
    have hplain := plain_makeField hmade
    exact plain_withPresence ⟨hplain.target, hplain.group⟩
  · obtain ⟨source, -, hsource⟩ := Attempt.mapM_forall_right hbody f hf
    obtain ⟨media, target, -, -, -, rfl⟩ := of_bodyField hsource
    exact plain_withPresence ⟨rfl, rfl⟩

/-- The method of a call and its request message stand alone. -/
theorem alone_makeMethod {package serviceId : String} {c : Call} {made : MadeMethod}
    (h : makeMethod package serviceId c = .ok made) : made.method.Alone ∧ made.request.Alone := by
  unfold makeMethod at h
  dsimp only at h
  split at h
  · cases h
  · obtain ⟨request, hrequest, h⟩ := Attempt.bind_eq_ok.1 h
    obtain ⟨outputTypeId, -, h⟩ := Attempt.bind_eq_ok.1 h
    obtain ⟨template, -, h⟩ := Attempt.bind_eq_ok.1 h
    obtain rfl := Except.ok.inj h
    refine ⟨⟨⟨rfl, rfl, ?_, ?_⟩, rfl, rfl, rfl⟩, alone_requestMessage hrequest⟩
    · rintro info ⟨⟩
    · rintro info ⟨⟩

/-! ## Messages behind the entries of their maps -/

/-- Adding messages that stand alone gives a batch of them. -/
theorem grown_addMessages {xs : List MessageRef} (hgrown : Grown before m k)
    (hbatch : Batch messageArena (fun x => x.parent = none) m k xs) {elements : List Message}
    (helements : ∀ x ∈ elements, x.Alone) {refs : List MessageRef}
    (hadd : elements.foldl
      (fun (state : List MessageRef × Model) element =>
        (state.1 ++ [(state.2.addMessage element).ref], (state.2.addMessage element).model))
      (xs, k) = (refs, other)) :
    Grown before m other ∧ Batch messageArena (fun x => x.parent = none) m other refs := by
  induction elements generalizing xs k with
  | nil =>
    obtain ⟨rfl, rfl⟩ := Prod.mk.inj hadd
    exact ⟨hgrown, hbatch⟩
  | cons x rest ih =>
    have hx := helements x List.mem_cons_self
    have hnext := Grown.addMessage hgrown.toBuilt hx.new
    have hpush : Batch messageArena (fun x => x.parent = none) k (k.addMessage x).model
        [(k.addMessage x).ref] := .push hx.parent
    exact ih (hgrown.trans hnext) (hbatch.append hpush hgrown.messages hnext.messages)
      (fun y hy => helements y (List.mem_cons_of_mem x hy)) hadd

/-- Makes messages the children of another. -/
def adopted (p : MessageRef) (children : List MessageRef) (r : MessageRef)
    (x : Message) : Message :=
  if r ∈ children then { x with parent := some p } else x

/-- Adopting messages one by one adopts all of them. -/
theorem foldl_adopt_eq (p : MessageRef) {children : List MessageRef} (honce : children.Nodup)
    (m : Model) :
    children.foldl (fun m child => m.modifyMessage child fun x => { x with parent := some p }) m =
      messageArena.map m (adopted p children) :=
  messageArena.foldl_eq_map (fun _ _ (_ : True) => rfl) (fun _ _ _ => trivial) honce trivial

/-- Adopting messages that are nested in nothing and not listed goes on building. -/
theorem built_adopt (h : Built before m) {p : MessageRef} (hp : m.extent.HasMessage p)
    {children : List MessageRef}
    (hchildren : ∀ c ∈ children, m.extent.HasRoot c ∧ c ∉ m.roster.messages)
    (honce : children.Nodup) :
    Built before (children.foldl
      (fun m child => m.modifyMessage child fun x => { x with parent := some p }) m) := by
  induction children generalizing m with
  | nil => exact h
  | cons c rest ih =>
    obtain ⟨hc, hrest⟩ := List.nodup_cons.1 honce
    obtain ⟨hroot, hfree⟩ := hchildren c List.mem_cons_self
    refine ih (h.adopt hroot hfree hp) ((Built.within_adopt hroot).hasMessage hp)
      (fun d hd => ?_) hrest
    obtain ⟨hrootd, hfreed⟩ := hchildren d (List.mem_cons_of_mem c hd)
    refine ⟨?_, hfreed⟩
    obtain ⟨x, hx, hxp⟩ := hasRoot_iff.1 hrootd
    refine hasRoot_iff.2 ⟨x, ?_, hxp⟩
    have hne : d ≠ c := ne_of_mem_of_not_mem hd hc
    rw [find?_modifyMessage, hx, Option.map_some, if_neg hne]

/-- Adopting new messages makes them children, and keeps what was there before them. -/
theorem grown_adopt (hm : Built before m) (h : Grown before m k) {p : MessageRef}
    (hp : k.extent.HasMessage p) {children : List MessageRef}
    (hbatch : Batch messageArena (fun x => x.parent = none) m k children) :
    Grown before m (messageArena.map k (adopted p children)) ∧
      ∀ c ∈ children, (messageArena.map k (adopted p children)).extent.HasChild p c := by
  refine ⟨⟨?_, fun r x hx => ?_, h.enums, h.services, h.methods, h.sameRoster⟩,
    fun c hc => ?_⟩
  · rw [← foldl_adopt_eq p hbatch.once]
    refine built_adopt h.toBuilt hp
      (fun c hc => ⟨hasRoot_iff.2 (hbatch.held c hc), ?_⟩) hbatch.once
    intro hlisted
    rw [h.sameRoster] at hlisted
    obtain ⟨x, hx, -⟩ := hasRoot_iff.1 (hm.roster.messages c hlisted)
    rw [hbatch.free c hc] at hx
    cases hx
  · have hr : r ∉ children := by
      intro hr
      rw [hbatch.free r hr] at hx
      cases hx
    rw [messageArena.find?_map, h.messages r x hx, Option.map_some, adopted, if_neg hr]
  · obtain ⟨x, hx, -⟩ := hbatch.held c hc
    refine hasChild_iff.2 ⟨{ x with parent := some p }, ?_, rfl⟩
    rw [messageArena.find?_map, hx, Option.map_some, adopted, if_pos hc]

/-- Adding a message behind its entries is adding it without them, making it their owner, and
nesting them in it. -/
theorem addListed_eq {element : Message} {entries : List Message} (helement : element.Alone)
    {nested : List MessageRef} (hadd : addMessages m entries = (nested, k)) (honce : nested.Nodup)
    (hfree : messageArena.next k ∉ nested) :
    addListed m element entries =
      let owned := (messageArena.map (k.addMessage element).model
        (adopted (messageArena.next k) nested)).modifyMessage (messageArena.next k) fun x =>
          { x with messages := nested, enums := [] }
      { owned with messages := owned.messages ++ [messageArena.next k] } := by
  let p := messageArena.next k
  let x := element.ownedBy p
  let nest : Message → Message := fun x => { x with messages := nested, enums := [] }
  have hpush : (k.addMessage { element with messages := nested }).model =
      messageArena.modify (messageArena.push k x) p nest := by
    rw [messageArena.modify_push, model_addMessage]
    refine congrArg (messageArena.push k) ?_
    change _ = { x with messages := nested, enums := [] }
    rw [← helement.enums]
    rfl
  have howned : messageArena.map (messageArena.modify (messageArena.push k x) p nest)
    (adopted p nested) =
      messageArena.modify (messageArena.map (messageArena.push k x) (adopted p nested)) p nest := by
    rw [messageArena.modify_eq_map, messageArena.modify_eq_map, messageArena.map_map,
      messageArena.map_map]
    refine messageArena.map_congr fun r _ => ?_
    by_cases hr : r = p
    · have hfree' : r ∉ nested := hr ▸ hfree
      rw [if_pos hr, if_pos hr, adopted, adopted, if_neg hfree', if_neg hfree']
    · rw [if_neg hr, if_neg hr]
  rw [addListed, hadd]
  dsimp only
  rw [hpush, foldl_adopt_eq _ honce]
  exact congrArg (fun owned : Model => { owned with messages := owned.messages ++ [p] }) howned

/-- Adding a message behind its entries goes on building. -/
theorem extended_addListed (h : Built (fun parent child => child < parent) m) {element : Message}
    (helement : element.Alone) {entries : List Message} (hentries : ∀ x ∈ entries, x.Alone) :
    Extended (fun parent child => child < parent) m (addListed m element entries) := by
  cases hadd : addMessages m entries with
  | mk nested k =>
    obtain ⟨hgrown, hbatch⟩ := grown_addMessages (.refl h) .nil hentries hadd
    have hfree : messageArena.next k ∉ nested := by
      intro hp
      obtain ⟨x, hx, -⟩ := hbatch.held _ hp
      rw [messageArena.find?_next] at hx
      cases hx
    rw [addListed_eq helement hadd hbatch.once hfree]
    have hnew : Grown _ k (k.addMessage element).model := .addMessage hgrown.toBuilt helement.new
    have hpush : messageArena.find? (k.addMessage element).model (messageArena.next k) =
        some (element.ownedBy (messageArena.next k)) := find?_addMessage k element
    obtain ⟨hadopted, hchildren⟩ :=
      grown_adopt h (hgrown.trans hnew) (hasMessage_iff.2 ⟨_, hpush⟩)
      (hbatch.later hnew.messages)
    have hnested : Built _ _ := hadopted.toBuilt.nest hchildren (fun c hc => ?_) hbatch.once
      (fun c hc => absurd hc List.not_mem_nil) List.nodup_nil
    swap
    · obtain ⟨x, hx, -⟩ := hbatch.held c hc
      exact messageArena.holds_of_find? hx
    have hplace := hgrown.messages.find?_eq_none _ (messageArena.find?_next k)
    have hlast := hadopted.modifyMessage hplace hnested
    let x : Message :=
      { element.ownedBy (messageArena.next k) with messages := nested, enums := [] }
    refine ⟨Grown.list h hlast (.single (x := x) hplace ?held helement.parent) .nil rfl ?messages
      ?enums rfl, hlast.services, hlast.methods⟩
    case held =>
      rw [find?_modifyMessage, messageArena.find?_map, hpush, Option.map_some, Option.map_some,
        if_pos rfl, adopted, if_neg hfree]
    case messages => exact perm_listed _ _ _
    case enums =>
      rw [List.append_nil]
      exact List.Perm.refl _

/-- The message of a component schema and the entries that its fields need stand alone. -/
theorem alone_componentMessage {package : String} {component : String × Schema}
    {made : List MadeField} (hmade : component.2.properties.mapM (fun property =>
      makeField package (qualify package component.1) property.1 property.2) = .ok made) :
    (componentMessage package component made).Alone ∧
      ∀ x ∈ made.filterMap MadeField.entry, x.Alone := by
  refine ⟨⟨fun f hf => ?_, rfl, rfl, rfl, rfl, rfl⟩, fun x hx => ?_⟩
  · obtain ⟨field, hfield, rfl⟩ := List.mem_map.1 hf
    obtain ⟨property, -, hproperty⟩ := Attempt.mapM_forall_right hmade field hfield
    exact plain_withPresence (plain_makeField hproperty)
  · obtain ⟨field, hfield, hentry⟩ := List.mem_filterMap.1 hx
    obtain ⟨property, -, hproperty⟩ := Attempt.mapM_forall_right hmade field hfield
    obtain ⟨values, hvalues⟩ := exists_mapEntry_of_makeField hproperty hentry
    exact alone_mapEntry hvalues

/-- Adding the message of a schema goes on building. -/
theorem built_addSchema (h : Built (fun parent child => child < parent) m)
    {component : String × Schema} (hadd : addSchema m component = .ok other) :
    Built (fun parent child => child < parent) other := by
  obtain ⟨made, hmade, rfl⟩ := of_addSchema hadd
  obtain ⟨helement, hentries⟩ := alone_componentMessage hmade
  exact (extended_addListed h helement hentries).toBuilt

/-! ## The service -/

/-- Adding methods behind their request messages gives a batch of methods. -/
theorem served_addMethods {xs : List MethodRef}
    (hserved : Served (fun parent child => child < parent) m k xs) {made : List MadeMethod}
    (hmade : ∀ x ∈ made, x.method.Alone ∧ x.request.Alone) {refs : List MethodRef}
    (hadd : made.foldl addMethod (xs, k) = (refs, other)) :
    Served (fun parent child => child < parent) m other refs := by
  induction made generalizing xs k with
  | nil =>
    obtain ⟨rfl, rfl⟩ := Prod.mk.inj hadd
    exact hserved
  | cons x rest ih =>
    obtain ⟨hmethod, hrequest⟩ := hmade x List.mem_cons_self
    have hextended := extended_addListed hserved.toBuilt hrequest fun y hy =>
      absurd hy List.not_mem_nil
    have hnext := hserved.append
      (Served.addMethod hextended hmethod.new)
    exact ih hnext (fun y hy => hmade y (List.mem_cons_of_mem x hy)) hadd

/-- Adding the service goes on building. -/
theorem built_addService (h : Built (fun parent child => child < parent) m) {d : Document}
    {name : String} (hadd : addService d name m = .ok other) :
    Built (fun parent child => child < parent) other := by
  unfold addService at hadd
  obtain ⟨made, hmade, hadd⟩ := Attempt.bind_eq_ok.1 hadd
  split at hadd
  · obtain rfl := Except.ok.inj hadd
    exact h
  · split at hadd
    rename_i refs k hfold
    obtain rfl := Except.ok.inj hadd
    refine Served.addService h (served_addMethods (.refl h) (fun x hx => ?_) hfold) rfl
      rfl rfl rfl rfl
    obtain ⟨call, -, hcall⟩ := Attempt.mapM_forall_right hmade x hx
    exact alone_makeMethod hcall

/-- The model of an interface description is built. -/
theorem built_model {d : Document} {config : Option ServiceConfig} (h : d.model config = .ok m) :
    Built (fun parent child => child < parent) m := by
  obtain ⟨schemas, hschemas, h⟩ := Attempt.bind_eq_ok.1 h
  obtain ⟨services, hservice, h⟩ := Attempt.bind_eq_ok.1 h
  obtain rfl := Except.ok.inj h
  refine WellKnown.built_register (built_addService ?_ hservice)
  refine Attempt.foldlM_keeps (fun m component k hm hk => built_addSchema hm hk) ?_ hschemas
  exact .of_empty rfl rfl rfl rfl rfl rfl

end ApiModel.OpenApi
