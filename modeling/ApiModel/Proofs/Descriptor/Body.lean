import ApiModel.Descriptor.Build
import ApiModel.Proofs.Attempt

/-!
# The fields and groups of a converted message

A message is converted field by field. Each field is put behind those before it, and the group that
it belongs to notes its position. So the fields are those that are converted one by one, and each
group notes the positions of the fields that belong to it, in order.
-/

namespace ApiModel.Descriptor

/-! ## Converted fields -/

/-- What a converted field has before it is put into its message. -/
structure Field.ConvertsTo (f : Field) (made : ApiModel.Field) : Prop where
  /-- No message owns it. -/
  parent : made.parent = none
  /-- Its type is not linked. -/
  target : made.target = none
  /-- It is not marked as a map. -/
  map : made.map = false
  /-- Clients do not fill it in. -/
  autoPopulated : made.autoPopulated = false
  /-- It belongs to no group. -/
  group : made.group = none
  /-- It is no alternative. -/
  isOneOf : made.isOneOf = false
  /-- It is optional if it is marked so. -/
  optional : f.proto3Optional = some true → made.optional = true

/-- The field that is converted from a declaration converts it. -/
theorem convertsTo_convert {context : FileContext} {messageId documentation : String} {f : Field}
    {made : ApiModel.Field} (h : f.convert context messageId documentation = .ok made) :
    f.ConvertsTo made := by
  unfold Field.convert at h
  dsimp only at h
  split at h
  · obtain rfl := Except.ok.inj h
    refine ⟨rfl, rfl, rfl, rfl, rfl, rfl, fun hmark => ?_⟩
    change (f.proto3Optional == some true || _) = true
    rw [hmark]
    rfl
  · cases h

/-- A field as an alternative of the group that it belongs to. -/
def inGroup (group? : Option Nat) (field : ApiModel.Field) : ApiModel.Field :=
  match group? with
  | some group => { field with isOneOf := true, group := some group }
  | none => field

/-- Belonging to a group is all that is new to a field which is put into its group. -/
theorem inGroup_eq (group? : Option Nat) (field : ApiModel.Field) :
    inGroup group? field =
      { field with
        isOneOf := (inGroup group? field).isOneOf
        group := (inGroup group? field).group } := by
  cases group? with
  | none => rfl
  | some group => rfl

/-- A field that belonged to no group belongs to the one that it is put into. -/
theorem group_inGroup {field : ApiModel.Field} (h : field.group = none) (group? : Option Nat) :
    (inGroup group? field).group = group? := by
  cases group? with
  | none => exact h
  | some group => rfl

/-! ## Groups that note positions -/

/-- The positions of the fields that belong to the group at a position. -/
def groupMembers (fields : List ApiModel.Field) (g : Nat) : List Nat :=
  (List.range fields.length).filter fun i => (fields.getD i {}).group == some g

/-- A field behind others is in addition to those that belong to its group. -/
theorem groupMembers_concat (fields : List ApiModel.Field) (f : ApiModel.Field) (g : Nat) :
    groupMembers (fields ++ [f]) g =
      groupMembers fields g ++ if f.group = some g then [fields.length] else [] := by
  have hbefore : ∀ i ∈ List.range fields.length,
      (((fields ++ [f]).getD i {}).group == some g) = ((fields.getD i {}).group == some g) := by
    intro i hi
    rw [List.getD_eq_getElem?_getD, List.getElem?_append_left (List.mem_range.1 hi),
      List.getD_eq_getElem?_getD]
  have hlast : (fields ++ [f]).getD fields.length {} = f := by
    rw [List.getD_eq_getElem?_getD, List.getElem?_concat_length, Option.getD_some]
  rw [groupMembers, List.length_append, List.length_singleton, List.range_succ, List.filter_append,
    List.filter_congr hbefore, List.filter_singleton, hlast]
  by_cases h : f.group = some g
  · rw [if_pos h, beq_iff_eq.2 h]
    rfl
  · rw [if_neg h, beq_eq_false_iff_ne.2 h]
    rfl

/-- The groups that are given, each with the positions of the fields that belong to it. -/
def notedGroups (declared : List OneOf) (fields : List ApiModel.Field) : List OneOf :=
  declared.zipIdx.map fun (o, g) => { o with fields := groupMembers fields g }

/-- Whether the groups note the positions of the fields that belong to them. -/
def Body.Noted (declared : List OneOf) (body : Body) : Prop :=
  body.oneOfs = notedGroups declared body.fields

/-- Groups that have noted nothing yet are the given ones. -/
theorem Body.noted_nil {declared : List OneOf} (h : ∀ o ∈ declared, o.fields = []) :
    Body.Noted declared { oneOfs := declared } := by
  have hsame : ∀ entry ∈ declared.zipIdx,
      ({ entry.1 with fields := groupMembers [] entry.2 } : OneOf) = entry.1 := by
    intro entry hentry
    rw [groupMembers, List.length_nil, List.range_zero, List.filter_nil,
      ← h entry.1 (List.fst_mem_of_mem_zipIdx hentry)]
  rw [Body.Noted, notedGroups, List.map_congr_left hsame, List.zipIdx_map_fst]

/-- Pushing a field keeps that the groups note what belongs to them. -/
theorem Body.Noted.push {declared : List OneOf} {body : Body} (h : body.Noted declared)
    {field : ApiModel.Field} (hnew : field.group = none) (group? : Option Nat) :
    (body.push group? field).Noted declared := by
  cases group? with
  | none =>
    refine Eq.trans h (List.map_congr_left fun (o, g) _ => ?_)
    change _ = ({ o with fields := groupMembers (body.fields ++ [field]) g } : OneOf)
    rw [groupMembers_concat, if_neg (by rw [hnew]; nofun), List.append_nil]
  | some group =>
    change body.oneOfs.modify group _ =
      notedGroups declared (body.fields ++ [inGroup (some group) field])
    rw [h]
    refine List.ext_getElem? fun g => ?_
    rw [List.getElem?_modify, notedGroups, notedGroups, List.getElem?_map, List.getElem?_map,
      List.getElem?_zipIdx, Nat.zero_add]
    cases declared[g]? with
    | none => rfl
    | some o =>
      change some (if group = g then _ else _) =
        some { o with fields := groupMembers (body.fields ++ [inGroup (some group) field]) g }
      rw [groupMembers_concat, group_inGroup hnew]
      by_cases hgroup : group = g
      · rw [if_pos hgroup, if_pos (congrArg some hgroup)]
      · rw [if_neg hgroup, if_neg fun h => hgroup (Option.some.inj h), List.append_nil]

/-! ## The loop over the fields -/

/-- The field at a position, converted and put into the group that it belongs to. -/
def convertEntry (context : FileContext) (messageId : String) (place : Place) (kept : List Nat)
    (entry : Field × Nat) : Except Error ApiModel.Field :=
  (entry.1.convert context messageId (context.comments.before (place.field entry.2))).map
    (inGroup (entry.1.groupAmong? kept))

/-- The fields of a message, each converted and put into the group that it belongs to. -/
def convertFields (context : FileContext) (messageId : String) (place : Place) (message : Message) :
    Except Error (List ApiModel.Field) :=
  message.fields.zipIdx.mapM
    (convertEntry context messageId place (keptGroups message.fields message.oneofs))

/-- A message that has given fields, with the groups that it declares. -/
def messageWith (context : FileContext) (scope : String) (parent : Option MessageRef)
    (place : Place) (message : Message) (fields : List ApiModel.Field) : ApiModel.Message :=
  let id := scope ++ "." ++ message.name.getD ""
  let groups := (keptGroups message.fields message.oneofs).map
    (emptyGroup context id place message.oneofs)
  { name := message.name.getD ""
    id := id
    package := context.package
    documentation := context.comments.before place
    deprecated := (message.options.getD {}).deprecated.getD false
    isMap := (message.options.getD {}).mapEntry.getD false
    fields := fields
    oneOfs := notedGroups groups fields
    parent := parent }

section

variable {context : FileContext} {messageId : String} {place : Place} {kept : List Nat}

/-- Adding converted fields puts all of them behind those before, or fails as the conversion of one
does. -/
theorem map_fields_foldlM (entries : List (Field × Nat)) (body : Body) :
    (entries.foldlM (Body.convertNext context messageId place kept) body).map Body.fields =
      (entries.mapM (convertEntry context messageId place kept)).map (body.fields ++ ·) := by
  induction entries generalizing body with
  | nil => exact congrArg Except.ok (List.append_nil _).symm
  | cons entry rest ih =>
    rw [List.foldlM_cons, List.mapM_cons, Body.convertNext, convertEntry]
    cases entry.1.convert context messageId (context.comments.before (place.field entry.2)) with
    | error e => rfl
    | ok field =>
      have hpush : (body.push (entry.1.groupAmong? kept) field).fields =
          body.fields ++ [inGroup (entry.1.groupAmong? kept) field] := by
        cases entry.1.groupAmong? kept with
        | none => rfl
        | some group => rfl
      refine (ih _).trans ?_
      rw [hpush]
      cases rest.mapM (convertEntry context messageId place kept) with
      | error e => rfl
      | ok fields => exact congrArg Except.ok (List.append_assoc _ [_] fields)

/-- Adding converted fields keeps that the groups note what belongs to them. -/
theorem Body.Noted.foldlM {declared : List OneOf} {entries : List (Field × Nat)}
    {body body' : Body} (hbody : body.Noted declared)
    (h : entries.foldlM (Body.convertNext context messageId place kept) body = .ok body') :
    body'.Noted declared := by
  refine Attempt.foldlM_keeps (fun b entry c hb hc => ?_) hbody h
  obtain ⟨field, hfield, hc⟩ := Attempt.bind_eq_ok.1 hc
  obtain rfl := Except.ok.inj hc
  exact hb.push (convertsTo_convert hfield).group _

/-- Adding the converted fields of a message to groups that have noted nothing puts the fields in
order, and each group notes the positions of those that belong to it. -/
theorem foldlM_convertNext {declared : List OneOf} (hempty : ∀ o ∈ declared, o.fields = [])
    (entries : List (Field × Nat)) :
    entries.foldlM (Body.convertNext context messageId place kept) { oneOfs := declared } =
      (entries.mapM (convertEntry context messageId place kept)).map fun fields =>
        { fields := fields, oneOfs := notedGroups declared fields } := by
  have hfields :
      (entries.foldlM (Body.convertNext context messageId place kept) { oneOfs := declared }).map
        Body.fields = (entries.mapM (convertEntry context messageId place kept)).map ([] ++ ·) :=
    map_fields_foldlM entries _
  cases hbody : entries.foldlM (Body.convertNext context messageId place kept)
      { oneOfs := declared } with
  | error e =>
    rw [hbody] at hfields
    rw [Attempt.map_eq_error.1 hfields.symm]
    rfl
  | ok body =>
    rw [hbody] at hfields
    obtain ⟨fields, hconvert, hsame⟩ := Attempt.map_eq_ok.1 hfields.symm
    obtain rfl : fields = body.fields := hsame
    have hnoted := (Body.noted_nil hempty).foldlM hbody
    rw [hconvert]
    exact congrArg (fun groups => Except.ok (Body.mk body.fields groups)) hnoted

end

/-- A message is converted by converting its fields, and each group notes the positions of those
that belong to it. -/
theorem convertMessage_eq (context : FileContext) (scope : String) (parent : Option MessageRef)
    (place : Place) (message : Message) :
    convertMessage context scope parent place message =
      (convertFields context (scope ++ "." ++ message.name.getD "") place message).map
        (messageWith context scope parent place message) := by
  have hempty : ∀ o ∈ (keptGroups message.fields message.oneofs).map
      (emptyGroup context (scope ++ "." ++ message.name.getD "") place message.oneofs),
      o.fields = [] := by
    intro o ho
    obtain ⟨position, -, rfl⟩ := List.mem_map.1 ho
    rfl
  unfold convertMessage
  dsimp only
  rw [foldlM_convertNext hempty]
  change Except.map _
    (convertFields context (scope ++ "." ++ message.name.getD "") place message) >>= _ = _
  cases convertFields context (scope ++ "." ++ message.name.getD "") place message with
  | error e => rfl
  | ok fields => rfl

/-- A message is converted if its fields are, into the message with these fields. -/
theorem convertMessage_eq_ok {context : FileContext} {scope : String} {parent : Option MessageRef}
    {place : Place} {message : Message} {x : ApiModel.Message} :
    convertMessage context scope parent place message = .ok x ↔
      ∃ fields, convertFields context (scope ++ "." ++ message.name.getD "") place message =
        .ok fields ∧
        messageWith context scope parent place message fields = x := by
  rw [convertMessage_eq, Attempt.map_eq_ok]

/-- The converted fields of a message are those of its declarations, in order. -/
theorem forall₂_convertFields {context : FileContext} {messageId : String} {place : Place}
    {message : Message} {fields : List ApiModel.Field}
    (h : convertFields context messageId place message = .ok fields) :
    List.Forall₂
      (fun entry y => ∃ made,
        entry.1.convert context messageId (context.comments.before (place.field entry.2)) =
          .ok made ∧
        inGroup (entry.1.groupAmong? (keptGroups message.fields message.oneofs)) made = y)
      message.fields.zipIdx fields :=
  (Attempt.mapM_eq_ok.1 h).imp fun _ _ => Attempt.map_eq_ok.1

/-- Each of the converted fields of a message is one that was converted, in its group. -/
theorem exists_convert_of_mem {context : FileContext} {messageId : String} {place : Place}
    {message : Message} {fields : List ApiModel.Field}
    (h : convertFields context messageId place message = .ok fields) :
    ∀ y ∈ fields, ∃ (f : Field) (documentation : String) (made : ApiModel.Field),
      f.convert context messageId documentation = .ok made ∧
      inGroup (f.groupAmong? (keptGroups message.fields message.oneofs)) made = y := by
  intro y hy
  obtain ⟨⟨f, position⟩, -, made, hmade, hgroup⟩ :=
    Attempt.exists_mem_left (forall₂_convertFields h) y hy
  exact ⟨f, _, made, hmade, hgroup⟩

end ApiModel.Descriptor
