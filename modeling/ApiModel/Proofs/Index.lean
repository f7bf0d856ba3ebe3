import ApiModel.Assembly.Indexing
import Mathlib.Data.List.Induction
import Mathlib.Data.List.Nodup

/-!
# What an index holds

An index built from places holds, under every full name that one of them has, the last place of that
name. Hence it holds no place twice, and every place if the names differ.
-/

namespace ApiModel

namespace Index

variable {α : Type} {index : Index α} {key : String} {value : α}

/-- The keys of an index occur once each. -/
theorem nodup_keys (index : Index α) : index.keys.Nodup := by
  rw [keys, List.Nodup, List.pairwise_map]
  exact index.ascending.imp fun h => (String.ne_of_lt h)

/-- The value under a key is the one that an entry gives it. -/
theorem get?_eq_some_iff : index.get? key = some value ↔ (key, value) ∈ index.entries := by
  rw [get?, List.lookup_eq_some_iff]
  constructor
  · rintro ⟨before, after, h, -⟩
    rw [h]
    exact List.mem_append_right _ List.mem_cons_self
  · intro h
    obtain ⟨before, after, hsplit⟩ := List.append_of_mem h
    refine ⟨before, after, hsplit, fun e he => ?_⟩
    have hkeys := index.nodup_keys
    rw [keys, hsplit, List.map_append, List.map_cons, List.nodup_append] at hkeys
    rw [bne_iff_ne]
    exact (hkeys.2.2 e.1 (List.mem_map_of_mem he) key List.mem_cons_self).symm

/-- The values of an index are those that stand under some key. -/
theorem mem_values : value ∈ index.values ↔ ∃ key, index.get? key = some value := by
  simp only [values, List.mem_map, Prod.exists, get?_eq_some_iff, exists_eq_right]

/-- After entries are put in one by one, the last one of a key stands under it. -/
theorem get?_foldl_insert (entries : List (String × α)) :
    (entries.foldl (fun index e => index.insert e.1 e.2) index).get? key =
      (entries.reverse.lookup key).or (index.get? key) := by
  induction entries using List.reverseRecOn with
  | nil => rfl
  | append_singleton entries e ih =>
    rw [List.foldl_append, List.reverse_append]
    change ((entries.foldl _ index).insert e.1 e.2).get? key =
      (List.lookup key (e :: entries.reverse)).or (index.get? key)
    rw [get?_insert, ih, List.lookup_cons]
    by_cases hkey : key = e.1
    · simp [hkey]
    · rw [if_neg hkey, beq_eq_false_iff_ne.2 hkey]

/-- The keys after an insertion are the new one and those that were there. -/
theorem mem_keys_insertEntry {other : String} {entries : List (String × α)} :
    other ∈ (insertEntry key value entries).map Prod.fst ↔
      other = key ∨ other ∈ entries.map Prod.fst := by
  fun_induction insertEntry key value entries with
  | case1 => simp
  | case2 => simp
  | case3 => simp
  | case4 k v rest _ _ ih =>
    simp only [List.map_cons, List.mem_cons, ih]
    exact or_left_comm

end Index

/-- Sorting texts keeps which texts there are. -/
@[simp] theorem mem_sortedTexts {texts : List String} {text : String} :
    text ∈ sortedTexts texts ↔ text ∈ texts := by
  unfold sortedTexts
  induction texts using List.reverseRecOn with
  | nil => rfl
  | append_singleton texts last ih =>
    rw [List.foldl_append, List.mem_append, List.mem_singleton, ← ih, or_comm]
    exact Index.mem_keys_insertEntry

namespace Model

variable {ref : Type} {id : ref → String} {refs : List ref} {key : String} {r : ref}

/-- Indexing one more place puts it in last, under its full name. -/
theorem indexBy_concat (id : ref → String) (refs : List ref) (r : ref) :
    indexBy id (refs ++ [r]) = (indexBy id refs).insert (id r) r := by
  rw [indexBy, List.foldl_append]
  rfl

/-- Indices of one list of places are the same if the places have the same full names. -/
theorem indexBy_congr {other : ref → String} (h : ∀ r ∈ refs, id r = other r) :
    indexBy id refs = indexBy other refs := by
  induction refs using List.reverseRecOn with
  | nil => rfl
  | append_singleton refs r ih =>
    rw [indexBy_concat, indexBy_concat, ih fun s hs => h s (List.mem_append_left _ hs),
      h r (List.mem_append_right _ List.mem_cons_self)]

/-- Where a place stands in a list that ends in another: it is the last one or stands before it. -/
theorem concat_eq_split {before after : List ref} {last : ref}
    (h : refs ++ [last] = before ++ r :: after) :
    (after = [] ∧ last = r) ∨ ∃ rest, after = rest ++ [last] ∧
    refs = before ++ r :: rest := by
  rcases List.eq_nil_or_concat' after with rfl | ⟨rest, s, rfl⟩
  · exact .inl ⟨rfl, (List.cons.inj (List.append_inj' h rfl).2).1⟩
  · rw [← List.cons_append, ← List.append_assoc] at h
    obtain ⟨hrefs, hlast⟩ := List.append_inj' h rfl
    exact .inr ⟨rest, by rw [hlast], hrefs⟩

/-- Under a full name stands the last place of that name. -/
theorem get?_indexBy_eq_some_iff :
    (indexBy id refs).get? key = some r ↔
      ∃ before after, refs = before ++ r :: after ∧ id r = key ∧
      ∀ s ∈ after, id s ≠ key := by
  induction refs using List.reverseRecOn with
  | nil =>
    constructor
    · intro h
      cases h
    · rintro ⟨before, after, h, -⟩
      exact absurd h.symm (List.append_ne_nil_of_right_ne_nil _ (List.cons_ne_nil _ _))
  | append_singleton refs last ih =>
    rw [indexBy_concat, Index.get?_insert]
    split
    · rename_i hkey
      constructor
      · intro h
        obtain rfl := Option.some.inj h
        exact ⟨refs, [], rfl, hkey.symm, fun s hs => absurd hs List.not_mem_nil⟩
      · rintro ⟨before, after, hsplit, hr, hafter⟩
        rcases concat_eq_split hsplit with ⟨-, rfl⟩ | ⟨rest, rfl, -⟩
        · rfl
        · exact absurd hkey.symm (hafter last (List.mem_append_right _ List.mem_cons_self))
    · rename_i hkey
      rw [ih]
      constructor
      · rintro ⟨before, after, rfl, hr, hafter⟩
        refine ⟨before, after ++ [last], by rw [List.append_assoc, List.cons_append], hr,
          fun s hs => ?_⟩
        rcases List.mem_append.1 hs with hs | hs
        · exact hafter s hs
        · rw [List.mem_singleton.1 hs]
          exact Ne.symm hkey
      · rintro ⟨before, after, hsplit, hr, hafter⟩
        rcases concat_eq_split hsplit with ⟨-, rfl⟩ | ⟨rest, rfl, hrefs⟩
        · exact absurd hr.symm hkey
        · exact ⟨before, rest, hrefs, hr, fun s hs => hafter s (List.mem_append_left _ hs)⟩

/-- A full name finds the last of the places that have it. -/
theorem get?_indexBy : (indexBy id refs).get? key = refs.reverse.find? fun r => id r == key := by
  induction refs using List.reverseRecOn with
  | nil => rfl
  | append_singleton refs r ih =>
    rw [indexBy_concat, Index.get?_insert, ih, List.reverse_concat, List.find?_cons]
    by_cases hr : id r = key
    · rw [if_pos hr.symm, beq_iff_eq.2 hr]
    · rw [if_neg (Ne.symm hr), beq_eq_false_iff_ne.2 hr]

/-- A place that is found under a key was indexed and has the key as its full name. -/
theorem of_get?_indexBy (h : (indexBy id refs).get? key = some r) : r ∈ refs ∧ id r = key := by
  obtain ⟨before, after, rfl, hr, -⟩ := get?_indexBy_eq_some_iff.1 h
  exact ⟨List.mem_append_right _ List.mem_cons_self, hr⟩

/-- A full name is a key if and only if a place has it. -/
theorem isSome_get?_indexBy : ((indexBy id refs).get? key).isSome ↔
    ∃ r ∈ refs, id r = key := by
  constructor
  · intro h
    obtain ⟨r, hr⟩ := Option.isSome_iff_exists.1 h
    exact ⟨r, of_get?_indexBy hr⟩
  · rintro ⟨r, hr, hid⟩
    induction refs using List.reverseRecOn with
    | nil => exact absurd hr List.not_mem_nil
    | append_singleton refs last ih =>
      rw [indexBy_concat, Index.get?_insert]
      split
      · rfl
      · rename_i hkey
        rcases List.mem_append.1 hr with hr | hr
        · exact ih hr
        · exact absurd (List.mem_singleton.1 hr ▸ hid).symm hkey

/-- No place is indexed twice. -/
theorem nodup_values_indexBy (id : ref → String) (refs : List ref) :
    (indexBy id refs).values.Nodup := by
  have hkeys := (indexBy id refs).nodup_keys
  have hid : (indexBy id refs).keys = (indexBy id refs).values.map id := by
    rw [Index.keys, Index.values, List.map_map]
    refine List.map_congr_left fun e he => ?_
    exact (of_get?_indexBy (Index.get?_eq_some_iff.2 he)).2.symm
  rw [hid] at hkeys
  exact hkeys.of_map

/-- A place is indexed if and only if it stands under its own full name. -/
theorem mem_values_indexBy :
    r ∈ (indexBy id refs).values ↔ (indexBy id refs).get? (id r) = some r := by
  rw [Index.mem_values]
  constructor
  · rintro ⟨key, h⟩
    rwa [(of_get?_indexBy h).2]
  · intro h
    exact ⟨id r, h⟩

/-- Places whose full names differ are all indexed. -/
theorem get?_indexBy_of_injective (hid : ∀ r ∈ refs, ∀ s ∈ refs, id r = id s → r = s)
    (hr : r ∈ refs) : (indexBy id refs).get? (id r) = some r := by
  obtain ⟨s, hs⟩ := Option.isSome_iff_exists.1 (isSome_get?_indexBy.2 ⟨r, hr, rfl⟩)
  obtain ⟨hmem, hname⟩ := of_get?_indexBy hs
  rw [hs, hid s hmem r hr hname]

/-- What comes behind a place among fewer places came behind it before. -/
theorem mem_behind_of_sublist {front back before after : List ref} {s : ref}
    (hrefs : (before ++ r :: after).Nodup)
    (hfewer : (front ++ r :: back).Sublist (before ++ r :: after)) (hs : s ∈ back) :
    s ∈ after := by
  have hpair : [r, s].Sublist (before ++ r :: after) :=
    ((List.singleton_sublist.2 hs).cons_cons r).trans
      ((List.sublist_append_right front (r :: back)).trans hfewer)
  obtain ⟨first, second, hsplit, hfirst, hsecond⟩ := List.sublist_append_iff.1 hpair
  obtain ⟨-, hafter, hbefore⟩ := List.nodup_append.1 hrefs
  cases first with
  | nil =>
    rw [List.nil_append] at hsplit
    rw [← hsplit] at hsecond
    rcases List.sublist_cons_iff.1 hsecond with h | ⟨rest, hrest, h⟩
    · exact absurd (h.subset List.mem_cons_self) (List.nodup_cons.1 hafter).1
    · rw [← (List.cons.inj hrest).2] at h
      exact h.subset List.mem_cons_self
  | cons t first =>
    rw [List.cons_append] at hsplit
    have htr : r = t := (List.cons.inj hsplit).1
    exact absurd htr.symm (hbefore t (hfirst.subset List.mem_cons_self) r List.mem_cons_self)

/-- A place that stays among fewer places, in their order, stays the one of its full name. -/
theorem get?_indexBy_of_sublist {fewer : List ref} (hrefs : refs.Nodup)
    (hfewer : fewer.Sublist refs) (hr : r ∈ fewer) (h : (indexBy id refs).get? key = some r) :
    (indexBy id fewer).get? key = some r := by
  obtain ⟨before, after, rfl, hname, hafter⟩ := get?_indexBy_eq_some_iff.1 h
  obtain ⟨front, back, rfl⟩ := List.append_of_mem hr
  exact get?_indexBy_eq_some_iff.2
    ⟨front, back, rfl, hname, fun s hs => hafter s (mem_behind_of_sublist hrefs hfewer hs)⟩

end Model

end ApiModel
