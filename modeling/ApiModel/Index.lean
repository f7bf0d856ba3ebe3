/-!
# Indices

An index lists values under text keys in ascending order of the keys, one value per key. Inserting
under a key that is present replaces its value. Keys compare by code points.
-/

namespace ApiModel

namespace Index

/-- Inserts into ascending entries; a present key takes the new value. -/
def insertEntry {α : Type} (key : String) (value : α) :
    List (String × α) → List (String × α)
  | [] => [(key, value)]
  | (k, v) :: rest =>
    if key < k then (key, value) :: (k, v) :: rest
    else if key = k then (key, value) :: rest
    else (k, v) :: insertEntry key value rest

/-- Whether entries ascend strictly in their keys. -/
def Ascending {α : Type} (entries : List (String × α)) : Prop :=
  entries.Pairwise fun first second => first.1 < second.1

/-- An entry after an insertion is the new one or was there before. -/
theorem mem_of_mem_insertEntry {α : Type} {key : String} {value : α} {e : String × α}
    {entries : List (String × α)} (h : e ∈ insertEntry key value entries) :
    e = (key, value) ∨ e ∈ entries := by
  fun_induction insertEntry key value entries with
  | case1 => simp_all
  | case2 => simpa using h
  | case3 v rest _ =>
    rcases List.mem_cons.1 h with h | h
    · exact .inl h
    · exact .inr (List.mem_cons_of_mem _ h)
  | case4 k v rest _ _ ih =>
    rcases List.mem_cons.1 h with h | h
    · exact .inr (h ▸ List.mem_cons_self)
    · exact (ih h).imp_right (List.mem_cons_of_mem _)

/-- Insertion keeps the keys strictly ascending. -/
theorem ascending_insertEntry {α : Type} (key : String) (value : α)
    {entries : List (String × α)} (h : Ascending entries) :
    Ascending (insertEntry key value entries) := by
  fun_induction insertEntry key value entries with
  | case1 => simp [Ascending]
  | case2 k v rest hlt =>
    refine List.Pairwise.cons (fun e he => ?_) h
    rcases List.mem_cons.1 he with he | he
    · exact he ▸ hlt
    · exact String.lt_trans hlt ((List.pairwise_cons.1 h).1 e he)
  | case3 v rest _ => exact List.Pairwise.cons (List.pairwise_cons.1 h).1 (List.pairwise_cons.1 h).2
  | case4 k v rest hlt hne ih =>
    refine List.Pairwise.cons (fun e he => ?_) (ih (List.pairwise_cons.1 h).2)
    rcases mem_of_mem_insertEntry he with he | he
    · subst he
      exact Decidable.not_not.1 fun h => hne (String.le_antisymm h hlt)
    · exact (List.pairwise_cons.1 h).1 e he

/-- Looking up after an insertion finds the new value under its key and else what was there. -/
theorem lookup_insertEntry {α : Type} (key other : String) (value : α)
    (entries : List (String × α)) :
    (insertEntry key value entries).lookup other =
      if other = key then some value else entries.lookup other := by
  have miss {k : String} (h : other ≠ k) : (other == k) = false := beq_eq_false_iff_ne.2 h
  fun_induction insertEntry key value entries with
  | case1 => by_cases h : other = key <;> simp [List.lookup_cons, miss, h]
  | case2 k v rest _ => by_cases h : other = key <;> simp [List.lookup_cons, miss, h]
  | case3 v rest _ => by_cases h : other = key <;> simp [List.lookup_cons, miss, h]
  | case4 k v rest _ hne ih =>
    by_cases h : other = k
    · subst h
      simp [Ne.symm hne]
    · simp only [List.lookup_cons, miss h, ih]

end Index

/-- Values under text keys. -/
structure Index (α : Type) where
  /-- The entries, ascending in their keys. -/
  entries : List (String × α)
  /-- The keys ascend strictly. -/
  ascending : Index.Ascending entries

namespace Index

/-- The index without entries. -/
def empty {α : Type} : Index α :=
  ⟨[], List.Pairwise.nil⟩

instance {α : Type} : Inhabited (Index α) := ⟨empty⟩

instance {α : Type} : EmptyCollection (Index α) := ⟨empty⟩

/-- The index with a value put under a key, in place of one that was there. -/
def insert {α : Type} (index : Index α) (key : String) (value : α) : Index α :=
  ⟨insertEntry key value index.entries, ascending_insertEntry key value index.ascending⟩

/-- The value under a key. -/
def get? {α : Type} (index : Index α) (key : String) : Option α :=
  index.entries.lookup key

/-- The keys, ascending. -/
def keys {α : Type} (index : Index α) : List String :=
  index.entries.map Prod.fst

/-- The values in the order of their keys. -/
def values {α : Type} (index : Index α) : List α :=
  index.entries.map Prod.snd

/-- The empty index holds nothing. -/
@[simp] theorem get?_empty {α : Type} (key : String) : (empty : Index α).get? key = none := rfl

/-- Looking up after an insertion finds the new value under its key and else what was there. -/
@[simp] theorem get?_insert {α : Type} (index : Index α) (key other : String) (value : α) :
    (index.insert key value).get? other = if other = key then some value else index.get? other :=
  lookup_insertEntry key other value index.entries

end Index

/-- Texts in ascending order without repetition. -/
def sortedTexts (texts : List String) : List String :=
  (texts.foldl (fun entries text => Index.insertEntry text () entries) []).map Prod.fst

end ApiModel
