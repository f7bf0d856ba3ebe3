import ApiModel.Proofs.Descriptor.Conversion
import Mathlib.Algebra.Group.Nat.Defs

/-!
# The groups of a message

The groups that a message declares are kept in order, but for those that only mark a field as
optional. Each field belongs to one kept group at most, the one that it names by the position of the
declaration, and each kept group lists its fields once and in ascending order. The groups that are
left out shift the positions of those behind them, so the positions of declarations and of kept
groups differ.
-/

namespace ApiModel.Descriptor

open Model

variable {m : Model}

/-! ## Groups that are declared -/

/-- Whether a field names the group that is declared at a position. -/
def Field.NamesGroup (f : Field) (k : Nat) : Prop :=
  f.oneofIndex.map Int32.toInt = some (k : Int)

instance (f : Field) (k : Nat) : Decidable (f.NamesGroup k) :=
  inferInstanceAs (Decidable (_ = _))

/-- The positions of the declared groups that are kept: those that no field names that is marked as
optional. -/
def Message.keptPositions (source : Message) : List Nat :=
  (List.range source.oneofs.length).filter fun k =>
    ∀ f ∈ source.fields, f.proto3Optional = some true → ¬ f.NamesGroup k

/-- Kept positions ascend. -/
theorem Message.pairwise_keptPositions (source : Message) :
    source.keptPositions.Pairwise (· < ·) :=
  List.pairwise_lt_range.filter _

/-- A position is kept if a group is declared there and no field names it that is marked as
optional. -/
theorem Message.mem_keptPositions {source : Message} {k : Nat} :
    k ∈ source.keptPositions ↔ k < source.oneofs.length ∧
      ∀ f ∈ source.fields, f.proto3Optional = some true → ¬ f.NamesGroup k := by
  rw [Message.keptPositions, List.mem_filter, List.mem_range, decide_eq_true_iff]

/-- A small position is the integer that stands for it. -/
theorem positionNumber_eq_iff {k : Nat} (hk : k < 2 ^ 31) (n : Int32) : positionNumber k = n ↔
    n.toInt = k := by
  rw [← Int32.toInt_inj, toInt_positionNumber hk]
  exact eq_comm

/-- The positions that are kept are those of the groups that stay. -/
theorem keptGroups_eq {source : Message} (hsmall : source.oneofs.length < 2 ^ 31) :
    keptGroups source.fields source.oneofs = source.keptPositions := by
  refine List.filter_congr fun k hk => ?_
  have hlt : k < 2 ^ 31 := Nat.lt_trans (List.mem_range.1 hk) hsmall
  have hmarking : positionNumber k ∈ markingGroups source.fields ↔
      ∃ f ∈ source.fields, f.proto3Optional = some true ∧ f.NamesGroup k := by
    simp only [markingGroups, List.mem_filterMap, List.mem_filter, beq_iff_eq, and_assoc,
      Field.NamesGroup, Option.map_eq_some_iff]
    refine exists_congr fun f => and_congr_right fun _ => and_congr_right fun _ => ?_
    constructor
    · exact fun h => ⟨_, h, (positionNumber_eq_iff hlt _).1 rfl⟩
    · rintro ⟨n, hn, hvalue⟩
      rw [hn, (positionNumber_eq_iff hlt n).2 hvalue]
  rw [Bool.eq_iff_iff, Bool.not_eq_true', Bool.eq_false_iff, ne_eq, List.contains_iff_mem, hmarking,
    decide_eq_true_iff]
  simp only [not_exists, not_and]

/-- A field belongs to the kept group whose declaration it names. -/
theorem groupAmong?_eq_some_iff {kept : List Nat} (hascending : kept.Pairwise (· < ·))
    (hsmall : ∀ k ∈ kept, k < 2 ^ 31) {f : Field} {g : Nat} :
    f.groupAmong? kept = some g ↔ ∃ k, kept[g]? = some k ∧ f.NamesGroup k := by
  have hnames : ∀ {n k}, f.oneofIndex = some n → k ∈ kept →
      (positionNumber k = n ↔ f.NamesGroup k) := by
    intro n k hn hk
    rw [positionNumber_eq_iff (hsmall k hk), Field.NamesGroup, hn, Option.map_some,
      Option.some.injEq]
  unfold Field.groupAmong?
  rw [Option.bind_eq_some_iff]
  constructor
  · rintro ⟨n, hn, hfound⟩
    obtain ⟨⟨k, g⟩, hlast, rfl⟩ := Option.map_eq_some_iff.1 hfound
    obtain ⟨hentry, hnumber⟩ := List.mem_filter.1 (List.mem_of_getLast? hlast)
    have hk := List.mk_mem_zipIdx_iff_getElem?.1 hentry
    exact ⟨k, hk, (hnames hn (List.mem_of_getElem? hk)).1 (beq_iff_eq.1 hnumber)⟩
  · rintro ⟨k, hk, hname⟩
    obtain ⟨n, hn, -⟩ := Option.map_eq_some_iff.1 hname
    have hnumber := (hnames hn (List.mem_of_getElem? hk)).2 hname
    have hentry : (k, g) ∈ kept.zipIdx.filter fun entry => positionNumber entry.1 == n :=
      List.mem_filter.2 ⟨List.mk_mem_zipIdx_iff_getElem?.2 hk, beq_iff_eq.2 hnumber⟩
    have hsome := List.getLast?_isSome.2 (List.ne_nil_of_mem hentry)
    obtain ⟨⟨k', g'⟩, hlast⟩ := Option.isSome_iff_exists.1 hsome
    obtain ⟨hentry', hnumber'⟩ := List.mem_filter.1 (List.mem_of_getLast? hlast)
    have hk' := List.mk_mem_zipIdx_iff_getElem?.1 hentry'
    -- positions of the same number are the same, and a kept position stands in one place
    have hname' := (hnames hn (List.mem_of_getElem? hk')).1 (beq_iff_eq.1 hnumber')
    have hsame : k' = k := Int.ofNat_inj.1 (Option.some.inj (hname'.symm.trans hname))
    obtain ⟨hg, hvalue⟩ := List.getElem?_eq_some_iff.1 hk
    obtain ⟨hg', hvalue'⟩ := List.getElem?_eq_some_iff.1 hk'
    have hnodup : kept.Nodup := hascending.imp Nat.ne_of_lt
    have hplace : g' = g := (hnodup.getElem_inj_iff).1 (hvalue'.trans (hsame.trans hvalue.symm))
    exact ⟨n, hn, by rw [hlast, Option.map_some, hplace]⟩

/-! ## Groups that are kept -/

/-- How a field of a message belongs to the kept groups. -/
structure Field.Grouped (kept : List Nat) (f : Field) (y : ApiModel.Field) : Prop where
  /-- The group is the one whose declaration the field names. -/
  group : ∀ g, y.group = some g ↔ ∃ k, kept[g]? = some k ∧ f.NamesGroup k
  /-- The field is an alternative if it belongs to a group. -/
  isOneOf : y.isOneOf = true ↔ ∃ g, y.group = some g
  /-- A field that is marked as optional belongs to none, and is optional. -/
  marked : f.proto3Optional = some true → y.group = none ∧ y.optional = true

/-- What a declared group of the message of a full name is made into. -/
structure Oneof.Yields (messageId : String) (d : Oneof) (o : OneOf) : Prop where
  /-- The name stays. -/
  name : o.name = d.name.getD ""
  /-- The full name is that of the message with the name behind it. -/
  id : o.id = messageId ++ "." ++ o.name

/-- Whether the groups of a message are those that its descriptor declares and keeps, and its fields
are divided among them. -/
structure Message.Partitioned (source : Message) (x : ApiModel.Message) : Prop where
  /-- There is one group for each kept declaration, in order. -/
  groups : List.Forall₂ (fun k o => ∃ d ∈ source.oneofs[k]?, d.Yields x.id o)
    source.keptPositions x.oneOfs
  /-- There is one field for each, in order. -/
  fields : List.Forall₂ (Field.Grouped source.keptPositions) source.fields x.fields
  /-- A group lists the fields that belong to it. -/
  members : ∀ i g, (∃ y : ApiModel.Field, x.fields[i]? = some y ∧ y.group = some g) ↔
    ∃ o : OneOf, x.oneOfs[g]? = some o ∧ i ∈ o.fields
  /-- It lists them in ascending order, each once. -/
  ascending : ∀ o ∈ x.oneOfs, o.fields.Pairwise (· < ·)
  /-- No two groups list the same field. -/
  disjoint : x.oneOfs.Pairwise fun (o o' : OneOf) => o.fields.Disjoint o'.fields

/-- A field that is put into its group belongs to it, if no kept group marks the field as
optional. -/
theorem grouped_convert {kept : List Nat} (hascending : kept.Pairwise (· < ·))
    (hsmall : ∀ k ∈ kept, k < 2 ^ 31) {context : FileContext}
    {messageId documentation : String} {f : Field}
    (hfree : ∀ k ∈ kept, f.proto3Optional = some true → ¬ f.NamesGroup k)
    {made : ApiModel.Field} (h : f.convert context messageId documentation = .ok made) :
    f.Grouped kept (inGroup (f.groupAmong? kept) made) := by
  have hnew := convertsTo_convert h
  have hiff := fun g => groupAmong?_eq_some_iff (f := f) (g := g) hascending hsmall
  cases hgroup : f.groupAmong? kept with
  | none =>
    refine ⟨fun g => ?_, ?_, fun hmark => ⟨hnew.group, hnew.optional hmark⟩⟩
    · rw [← hiff g, hgroup, group_inGroup hnew.group]
    · simp [inGroup, hnew.isOneOf, hnew.group]
  | some g =>
    obtain ⟨k, hk, hname⟩ := (hiff g).1 hgroup
    rw [hgroup] at hiff
    refine ⟨hiff, iff_of_true rfl ⟨g, rfl⟩, fun hmark => ?_⟩
    exact absurd hname (hfree k (List.mem_of_getElem? hk) hmark)

/-- A position is one of a group if the field there belongs to it. -/
theorem mem_groupMembers {fields : List ApiModel.Field} {g i : Nat} :
    i ∈ groupMembers fields g ↔ ∃ y, fields[i]? = some y ∧ y.group = some g := by
  rw [groupMembers, List.mem_filter, List.mem_range, beq_iff_eq]
  constructor
  · rintro ⟨hi, hgroup⟩
    rw [List.getD_eq_getElem?_getD, List.getElem?_eq_getElem hi] at hgroup
    exact ⟨fields[i], List.getElem?_eq_getElem hi, hgroup⟩
  · rintro ⟨y, hy, hgroup⟩
    rw [List.getD_eq_getElem?_getD, hy]
    exact ⟨(List.getElem?_eq_some_iff.1 hy).1, hgroup⟩

section

variable {source : Message} {x : ApiModel.Message}

/-- If a field is listed by the group that it belongs to only, no two groups list the same field. -/
theorem disjoint_of_members
    (h : ∀ i g, (∃ y : ApiModel.Field, x.fields[i]? = some y ∧ y.group = some g) ↔
      ∃ o : OneOf, x.oneOfs[g]? = some o ∧ i ∈ o.fields) :
    x.oneOfs.Pairwise fun (o o' : OneOf) => o.fields.Disjoint o'.fields := by
  refine List.pairwise_iff_getElem.2 fun g g' hg hg' hlt i hi hi' => ?_
  obtain ⟨y, hy, hgroup⟩ := (h i g).2 ⟨_, List.getElem?_eq_getElem hg, hi⟩
  obtain ⟨y', hy', hgroup'⟩ := (h i g').2 ⟨_, List.getElem?_eq_getElem hg', hi'⟩
  obtain rfl := Option.some.inj (hy.symm.trans hy')
  exact Nat.ne_of_lt hlt (Option.some.inj (hgroup.symm.trans hgroup'))

variable (hfields : List.Forall₂ (Field.Grouped source.keptPositions) source.fields x.fields)
  (hgroups : List.Forall₂
    (fun entry o => (∃ d ∈ source.oneofs[entry.1]?, d.Yields x.id o) ∧
      o.fields = groupMembers x.fields entry.2)
    source.keptPositions.zipIdx x.oneOfs)

include hgroups in
/-- The group at a position lists the fields that belong to that position. -/
theorem fields_of_groups {g : Nat} {o : OneOf} (ho : x.oneOfs[g]? = some o) :
    o.fields = groupMembers x.fields g := by
  obtain ⟨entry, hentry, -, hmembers⟩ := exists_getElem?_of_forall₂ hgroups ho
  rw [List.getElem?_zipIdx, Nat.zero_add] at hentry
  obtain ⟨k, -, rfl⟩ := Option.map_eq_some_iff.1 hentry
  exact hmembers

include hfields hgroups in
/-- A field belongs to a group if and only if there is such a group and it lists the field. -/
theorem members_of_groups (i g : Nat) :
    (∃ y : ApiModel.Field, x.fields[i]? = some y ∧ y.group = some g) ↔
      ∃ o : OneOf, x.oneOfs[g]? = some o ∧ i ∈ o.fields := by
  constructor
  · rintro ⟨y, hy, hgroup⟩
    -- the group of a field is kept, so there is an entry for it
    obtain ⟨f, -, hgrouped⟩ := exists_getElem?_of_forall₂ hfields hy
    obtain ⟨k, hk, -⟩ := (hgrouped.group g).1 hgroup
    have hentry : source.keptPositions.zipIdx[g]? = some (k, g) := by
      rw [List.getElem?_zipIdx, hk, Option.map_some, Nat.zero_add]
    obtain ⟨o, ho, -⟩ := exists_getElem?_of_forall₂ hgroups.flip hentry
    exact ⟨o, ho, fields_of_groups hgroups ho ▸ mem_groupMembers.2 ⟨y, hy, hgroup⟩⟩
  · rintro ⟨o, ho, hi⟩
    exact mem_groupMembers.1 (fields_of_groups hgroups ho ▸ hi)

include hfields hgroups in
/-- A message is divided among the groups of its kept declarations if each of them lists its
fields. -/
theorem partitioned_of_groups : source.Partitioned x where
  groups := by
    have hnames : List.Forall₂ (fun k o => ∃ d ∈ source.oneofs[k]?, Oneof.Yields x.id d o)
        (source.keptPositions.zipIdx.map Prod.fst) x.oneOfs :=
      List.forall₂_map_left_iff.2 (hgroups.imp fun _ _ h => h.1)
    rwa [List.zipIdx_map_fst] at hnames
  fields := hfields
  members := members_of_groups hfields hgroups
  ascending o ho := by
    obtain ⟨g, ho⟩ := List.mem_iff_getElem?.1 ho
    rw [fields_of_groups hgroups ho]
    exact List.pairwise_lt_range.filter _
  disjoint := disjoint_of_members (members_of_groups hfields hgroups)

end

/-- A converted message is divided among the groups that it keeps. -/
theorem partitioned_convertMessage {context : FileContext} {scope : String}
    {parent : Option MessageRef} {place : Place} {source : Message} {x : ApiModel.Message}
    (h : convertMessage context scope parent place source = .ok x)
    (hsmall : source.oneofs.length < 2 ^ 31) : source.Partitioned x := by
  obtain ⟨fields, hfields, rfl⟩ := convertMessage_eq_ok.1 h
  have hkept : ∀ k ∈ source.keptPositions, k < source.oneofs.length :=
    fun k hk => (Message.mem_keptPositions.1 hk).1
  apply partitioned_of_groups
  · have hentries := (List.forall₂_and_left _ _).2
      ⟨fun entry hentry => List.fst_mem_of_mem_zipIdx hentry, forall₂_convertFields hfields⟩
    have hall : List.Forall₂ (fun entry y => Field.Grouped source.keptPositions entry.1 y)
        source.fields.zipIdx fields := by
      refine hentries.imp ?_
      rintro ⟨f, i⟩ _ ⟨hmem, made, hmade, rfl⟩
      rw [keptGroups_eq hsmall]
      exact grouped_convert source.pairwise_keptPositions
        (fun k hk => Nat.lt_trans (hkept k hk) hsmall)
        (fun k hk => (Message.mem_keptPositions.1 hk).2 f hmem) hmade
    rwa [← List.forall₂_map_left_iff (f := Prod.fst), List.zipIdx_map_fst] at hall
  · rw [messageWith, keptGroups_eq hsmall, notedGroups, List.zipIdx_map, List.map_map]
    refine List.forall₂_map_right_iff.2
      (List.forall₂_same.2 fun entry hentry => ⟨?_, rfl⟩)
    have hk := hkept entry.1 (List.fst_mem_of_mem_zipIdx hentry)
    refine ⟨source.oneofs[entry.1], List.getElem?_eq_getElem hk, ?_, rfl⟩
    change (source.oneofs.getD entry.1 {}).name.getD "" = _
    rw [List.getD_eq_getElem?_getD, List.getElem?_eq_getElem hk, Option.getD_some]

/-! ## The model of a set -/

/-- What is put into a converted message later leaves it divided among its groups. -/
theorem Message.Partitioned.of_converted {source : Message} {x : ApiModel.Message}
    (h : source.Partitioned x.unmarked.detached) : source.Partitioned x where
  groups := h.groups
  fields :=
    (List.forall₂_map_right_iff.1 (List.forall₂_map_right_iff.1 h.fields)).imp fun _ _ hfield =>
    ⟨hfield.group, hfield.isOneOf, hfield.marked⟩
  members i g := by
    refine Iff.trans ?_ (h.members i g)
    change _ ↔ ∃ y : ApiModel.Field,
      ((x.fields.map ApiModel.Field.unmarked).map ApiModel.Field.detached)[i]? = some y ∧
        y.group = some g
    rw [List.getElem?_map, List.getElem?_map]
    cases x.fields[i]? with
    | none => simp
    | some y => simp [ApiModel.Field.unmarked, ApiModel.Field.detached]
  ascending := h.ascending
  disjoint := h.disjoint

/-- Every message with fewer than `2 ^ 31` groups is converted into one that is divided among the
groups that it keeps, and in the model of a set each declared message still is. -/
theorem partitioned_exact :
    (∀ {context scope parent place source x},
      convertMessage context scope parent place source = .ok x →
      source.oneofs.length < 2 ^ 31 → source.Partitioned x) ∧
    ∀ {set : FileSet} {config included m}, set.model config included = .ok m →
      ∃ k, m = WellKnown.register k ∧
        List.Forall₂ (fun d x => d.source.oneofs.length < 2 ^ 31 → d.source.Partitioned x)
          set.preorder
          k.store.messages.toList := by
  refine ⟨partitioned_convertMessage, fun h => ?_⟩
  obtain ⟨k, hm, hconverts⟩ := convertsTo_model h
  refine ⟨k, hm, hconverts.imp fun d x ⟨scope, names, place, _, _, hconvert⟩ hsmall => ?_⟩
  exact .of_converted (partitioned_convertMessage hconvert hsmall)

/-- A message whose first group only marks its first field as optional, so that the second group
moves to the first place. Two fields share that group, and the last field names no group that is
declared. -/
def paymentMessage : Message :=
  .mk (some "Payment")
    [{ name := some "note", type := some 9, oneofIndex := some 0, proto3Optional := some true },
      { name := some "card", type := some 9, oneofIndex := some 1 },
      { name := some "cash", type := some 9, oneofIndex := some 1 },
      { name := some "amount", type := some 5, oneofIndex := some (-1) }]
    [] [] none [{ name := some "_note" }, { name := some "method" }]

/-- The model of a set with this message has it divided among its groups. -/
theorem partitioned_exact_payment :
    ∃ m k x, FileSet.model ⟨[{ package := some "shop", messages := [paymentMessage] }]⟩ none
      [] = .ok m ∧
      m = WellKnown.register k ∧ k.store.messages.toList = [x] ∧
        paymentMessage.Partitioned x := by
  have hread : (FileSet.model ⟨[{ package := some "shop", messages := [paymentMessage] }]⟩ none
      []).toOption.any (fun _ => true) = true := by
    decide +kernel
  obtain ⟨m, hm, -⟩ := Attempt.exists_ok_of_any hread
  obtain ⟨k, hk, hall⟩ := partitioned_exact.2 hm
  obtain ⟨x, rest, hx, hrest, hmessages⟩ := List.forall₂_cons_left_iff.1 hall
  obtain rfl := List.forall₂_nil_left_iff.1 hrest
  exact ⟨m, k, x, hm, hk, hmessages, hx (by decide)⟩

/-- Its positions are those of the message without the group that only marks a field. -/
example : paymentMessage.keptPositions = [1] := by
  decide

end ApiModel.Descriptor
