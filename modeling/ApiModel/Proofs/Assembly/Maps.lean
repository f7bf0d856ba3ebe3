import ApiModel.Model.Query
import ApiModel.Proofs.Assembly.Twins

/-!
# Maps

A model tells in three ways that a field is a map: by the mark of the field, by the message that the
field holds, which is a map entry, and by the query for maps. Readers disagree on what they write,
since some mark their maps and others repeat an entry. Assembly makes the three agree, if every
field that is marked before names a map entry.
-/

namespace ApiModel.Model

/-- Whether all that tells a field of an assembled model to be a map agrees. -/
structure MapsAgreeAt (a : Model) (f : Field) : Prop where
  /-- A map is no list. -/
  single : ¬(f.map = true ∧ f.repeated = true)
  /-- Maps are the fields that hold a map entry. -/
  entry : f.map = true ↔ ∃ t, f.target = some (.message t) ∧ (a.message t).isMap = true
  /-- Of the fields that hold a message, the query finds the maps. -/
  query : f.type = .message → (f.map = true ↔ a.fieldIsMap f = true)
  /-- What a map holds has a key and a value, and nothing else. -/
  shape : f.map = true → ∀ t, f.target = some (.message t) → HasEntryShape (a.message t)

/-- Whether all that tells fields to be maps agrees for every field of an indexed message. -/
def MapsAgree (a : Model) : Prop :=
  ∀ r ∈ a.indexedMessages, ∀ f ∈ (a.message r).fields, a.MapsAgreeAt f

/-- Whether the type of a field is a map entry that is found. -/
def NamesMapEntry (m : Model) (f : Field) : Prop :=
  ∃ t, m.namedType? f = some (.message t) ∧ (m.message t).isMap = true

variable {m a : Model}

/-- What holds a map entry is told by the place of its type. -/
theorem holdsMapEntry_iff {f : Field} :
    a.holdsMapEntry f = true ↔ ∃ t, f.target = some (.message t) ∧
    (a.message t).isMap = true := by
  unfold holdsMapEntry
  split
  · rename_i t htarget
    rw [htarget]
    exact ⟨fun hmap => ⟨t, rfl, hmap⟩, by rintro ⟨_, ⟨⟩, hmap⟩; exact hmap⟩
  · rename_i hnone
    refine ⟨fun h => Bool.noConfusion h, ?_⟩
    rintro ⟨t, htarget, -⟩
    exact absurd htarget (hnone t)

/-- The query tells a single field with a place by whether it holds a map entry. -/
theorem fieldIsMap_iff {f : Field} {t : MessageRef} (htype : f.type = .message)
    (htarget : f.target = some (.message t)) :
    a.fieldIsMap f = true ↔ f.repeated = false ∧ a.holdsMapEntry f = true := by
  unfold fieldIsMap holdsMapEntry
  rw [htype, htarget]
  cases f.repeated with
  | true => exact ⟨fun h => Bool.noConfusion h, fun h => Bool.noConfusion h.1⟩
  | false => exact ⟨fun h => ⟨rfl, h⟩, And.right⟩

/-- A field that is resolved and holds a message has the place of one. -/
theorem exists_target_of_resolves {f : Field} (htype : f.type = .message)
    (hfound : a.FieldResolves f) (htarget : f.target = a.namedType? f) :
    ∃ t, f.target = some (.message t) := by
  have hnamed : a.namedType? f = (a.messageRef? f.typeId).map TypeRef.message := by
    rw [namedType?, htype]
  have hsome : (a.namedType? f).isSome = true := hfound (htype ▸ rfl)
  rw [hnamed, Option.isSome_map] at hsome
  obtain ⟨t, ht⟩ := Option.isSome_iff_exists.1 hsome
  rw [ht, Option.map_some] at hnamed
  exact ⟨t, htarget.trans hnamed⟩

/-- Where everything is found and settled, all that tells a field to be a map agrees, if it holds a
map entry when it is marked. -/
theorem Settled.mapsAgreeAt (h : Settled a) (hfound : Resolvable a) {r : MessageRef} {f : Field}
    (hr : r ∈ a.indexedMessages) (hf : f ∈ (a.message r).fields)
    (hmarked : f.map = true → a.holdsMapEntry f = true) : a.MapsAgreeAt f := by
  have hresolves := hfound.fields r hr f hf
  have htarget := h.fields r hr f hf hresolves
  have hmaps := h.maps r hr f hf
  refine ⟨?single, ?entry, ?query, ?shape⟩
  case single =>
    rintro ⟨hmap, hrepeated⟩
    rw [(hmaps (hmarked hmap)).2] at hrepeated
    cases hrepeated
  case entry =>
    rw [← holdsMapEntry_iff]
    exact ⟨hmarked, fun hholds => (hmaps hholds).1⟩
  case query =>
    intro htype
    obtain ⟨t, ht⟩ := exists_target_of_resolves htype hresolves htarget
    rw [fieldIsMap_iff htype ht]
    exact ⟨fun hmap => ⟨(hmaps (hmarked hmap)).2, hmarked hmap⟩,
      fun hquery => (hmaps hquery.2).1⟩
  case shape =>
    intro hmap t ht
    obtain ⟨s, hs, hentry⟩ := holdsMapEntry_iff.1 (hmarked hmap)
    obtain rfl : s = t := TypeRef.message.inj (Option.some.inj (hs.symm.trans ht))
    exact hfound.entries s (mem_indexedMessages_of_namedType? (htarget.symm.trans ht)) hentry

/-- A field that assembly leaves marked holds a map entry, if one that was marked before names
one. -/
theorem holdsMapEntry_assembledField {r : MessageRef} {f : Field}
    (h : f.map = true → m.NamesMapEntry f) (hmap : (m.assembledField r f).map = true) :
    m.assembled.holdsMapEntry (m.assembledField r f) = true := by
  have htarget : (m.assembledField r f).target = (m.linkedField f).target :=
    target_assembledField r f
  have hlinked : m.assembled.holdsMapEntry (m.assembledField r f) =
      m.withTargets.holdsMapEntry (m.linkedField f) := by
    rw [holdsMapEntry_of_target htarget, holdsMapEntry_congr (sameSource_assembled m).isMap,
      holdsMapEntry_congr (sameSource_withTargets m).isMap]
  rw [hlinked]
  by_contra hholds
  -- the field was left as it was, so it was marked before
  have hkept : m.withTargets.markedField (m.linkedField f) = m.linkedField f := if_neg hholds
  have hbefore : f.map = true := by
    have hmap : (m.withTargets.markedField (m.linkedField f)).map = true := hmap
    rw [hkept] at hmap
    exact hmap
  obtain ⟨t, hnamed, hentry⟩ := h hbefore
  exact hholds
    (holdsMapEntry_iff.2 ⟨t, hnamed, ((sameSource_withTargets m).isMap t).trans hentry⟩)

/-- Assembly that comes to its end makes all that tells a field to be a map agree, if the fields of
indexed messages that are marked before name map entries. -/
theorem mapsAgree_crossReference (hnone : m.crossReference.error? = none)
    (h : ∀ r ∈ m.buildIndices.indexedMessages, ∀ f ∈ (m.buildIndices.message r).fields,
      f.map = true → m.buildIndices.NamesMapEntry f) : MapsAgree m.crossReference.model := by
  have hsettled := settled_crossReference hnone
  have hfound := resolvable_of_crossReference hnone
  have hindexed := indexed_buildIndices m
  rw [model_crossReference hnone] at hsettled ⊢
  generalize m.buildIndices = i at *
  have hsame := sameSource_assembled i
  intro r hr g hg
  refine hsettled.mapsAgreeAt (hfound.of_sameSource hsame) hr hg fun hmap => ?_
  rw [hsame.indexedMessages] at hr
  rw [fields_assembled hindexed hr] at hg
  obtain ⟨f, hf, rfl⟩ := List.mem_map.1 hg
  exact holdsMapEntry_assembledField (h r hr f hf) hmap

end ApiModel.Model
