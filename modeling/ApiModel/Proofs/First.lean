import Mathlib.Data.List.Basic

/-!
# First and last items

What searching a list from its beginning finds: the first item with a property, and its position.
What searching it from its end finds is the last one.
-/

namespace ApiModel

/-- Whether an item is the first of a list to have a property. -/
def First {α : Type} (p : α → Prop) (items : List α) (item : α) : Prop :=
  ∃ before after, items = before ++ item :: after ∧ p item ∧ ∀ other ∈ before, ¬p other

namespace First

variable {α : Type} {p : α → Prop} {items : List α} {item other : α}

/-- Searching with a test of a property finds the first item that has it. -/
theorem find?_eq_some {test : α → Bool} (htest : ∀ x, test x = true ↔ p x) :
    items.find? test = some item ↔ First p items item := by
  simp only [List.find?_eq_some_iff_append, First, ← htest, Bool.not_eq_true', Bool.not_eq_true]
  constructor
  · rintro ⟨hitem, before, after, hsplit, hbefore⟩
    exact ⟨before, after, hsplit, hitem, hbefore⟩
  · rintro ⟨before, after, hsplit, hitem, hbefore⟩
    exact ⟨hitem, before, after, hsplit, hbefore⟩

/-- The first item of a list with a property is one item only. -/
theorem unique (h : First p items item) (h' : First p items other) : item = other := by
  classical
  have htest : ∀ x, decide (p x) = true ↔ p x := fun x => decide_eq_true_iff
  exact Option.some.inj (((find?_eq_some htest).2 h).symm.trans ((find?_eq_some htest).2 h'))

/-- The first item is the one in front, or the first behind an item without the property. -/
theorem cons_iff {front : α} :
    First p (front :: items) item ↔ item = front ∧ p front ∨ ¬p front ∧
    First p items item := by
  constructor
  · rintro ⟨before, after, hsplit, hitem, hbefore⟩
    cases before with
    | nil =>
      obtain ⟨rfl, -⟩ := List.cons.inj hsplit
      exact .inl ⟨rfl, hitem⟩
    | cons other before =>
      obtain ⟨rfl, rfl⟩ := List.cons.inj hsplit
      obtain ⟨hfront, hrest⟩ := List.forall_mem_cons.1 hbefore
      exact .inr ⟨hfront, before, after, rfl, hitem, hrest⟩
  · rintro (⟨rfl, hitem⟩ | ⟨hfront, before, after, rfl, hitem, hbefore⟩)
    · exact ⟨[], items, rfl, hitem, by simp⟩
    · exact ⟨front :: before, after, rfl, hitem, List.forall_mem_cons.2 ⟨hfront, hbefore⟩⟩

/-- The first item of a list with a property is an item of the list. -/
theorem mem (h : First p items item) : item ∈ items := by
  obtain ⟨before, after, rfl, -, -⟩ := h
  exact List.mem_append_right _ List.mem_cons_self

/-- The first item of a list with a property has the property. -/
theorem property (h : First p items item) : p item := by
  obtain ⟨before, after, -, hitem, -⟩ := h
  exact hitem

end First

/-- Whether a position is the first of a list whose item has a property. -/
def FirstAt {α : Type} (p : α → Prop) (items : List α) (i : Nat) : Prop :=
  (∃ x ∈ items[i]?, p x) ∧ ∀ j < i, ∀ x ∈ items[j]?, ¬p x

/-- Searching with a test of a property finds the first position whose item has it. -/
theorem findIdx?_eq_some_iff_firstAt {α : Type} {p : α → Prop} {items : List α} {i : Nat}
    {test : α → Bool} (htest : ∀ x, test x = true ↔ p x) :
    items.findIdx? test = some i ↔ FirstAt p items i := by
  rw [List.findIdx?_eq_some_iff_getElem]
  constructor
  · rintro ⟨hi, hitem, hbefore⟩
    refine ⟨⟨items[i], List.getElem?_eq_getElem hi, (htest _).1 hitem⟩,
      fun j hj x hx hp => ?_⟩
    obtain ⟨hlt, rfl⟩ := List.getElem?_eq_some_iff.1 hx
    exact hbefore j hj ((htest _).2 hp)
  · rintro ⟨⟨x, hx, hp⟩, hbefore⟩
    obtain ⟨hi, rfl⟩ := List.getElem?_eq_some_iff.1 hx
    refine ⟨hi, (htest _).2 hp, fun j hj htrue => ?_⟩
    exact hbefore j hj _ (List.getElem?_eq_getElem (Nat.lt_trans hj hi)) ((htest _).1 htrue)

/-! ## Last items -/

/-- Whether a position is the last of a list whose item has a property. -/
def LastAt {α : Type} (p : α → Prop) (items : List α) (i : Nat) : Prop :=
  (∃ x ∈ items[i]?, p x) ∧ ∀ j > i, ∀ x ∈ items[j]?, ¬p x

/-- If an item of a list has a property, there is a last one. -/
theorem exists_lastAt {α : Type} {p : α → Prop} {items : List α} (h : ∃ x ∈ items, p x) :
    ∃ i, LastAt p items i := by
  induction items with
  | nil =>
    obtain ⟨x, hx, -⟩ := h
    cases hx
  | cons first rest ih =>
    by_cases hrest : ∃ x ∈ rest, p x
    · obtain ⟨i, hitem, hlater⟩ := ih hrest
      refine ⟨i + 1, hitem, fun j hj => ?_⟩
      cases j with
      | zero => exact absurd hj (Nat.not_lt_zero _)
      | succ j => exact hlater j (Nat.lt_of_succ_lt_succ hj)
    · obtain ⟨x, hx, hp⟩ := h
      have hfirst : x = first := (List.mem_cons.1 hx).resolve_right fun hx => hrest ⟨x, hx, hp⟩
      refine ⟨0, ⟨first, rfl, hfirst ▸ hp⟩, fun j hj y hy hpy => ?_⟩
      cases j with
      | zero => exact absurd hj (Nat.lt_irrefl 0)
      | succ j => exact hrest ⟨y, List.mem_of_getElem? hy, hpy⟩

/-- The last position of a list with a property is one position only. -/
theorem LastAt.unique {α : Type} {p : α → Prop} {items : List α} {i j : Nat}
    (h : LastAt p items i) (h' : LastAt p items j) : i = j := by
  obtain ⟨⟨x, hx, hp⟩, hlater⟩ := h
  obtain ⟨⟨y, hy, hp'⟩, hlater'⟩ := h'
  rcases Nat.lt_trichotomy i j with hlt | heq | hlt
  · exact absurd hp' (hlater j hlt y hy)
  · exact heq
  · exact absurd hp (hlater' i hlt x hx)

/-- The last item with a property is the last of those that pass a test of it. -/
theorem LastAt.getLast?_filter {α : Type} {p : α → Prop} {items : List α} {i : Nat}
    (h : LastAt p items i) {test : α → Bool} (htest : ∀ x, test x = true ↔ p x) {x : α}
    (hx : items[i]? = some x) :
    (items.filter test).getLast? = some x := by
  obtain ⟨⟨y, hy, hp⟩, hlater⟩ := h
  obtain rfl := Option.some.inj (hx.symm.trans hy)
  obtain ⟨hi, rfl⟩ := List.getElem?_eq_some_iff.1 hx
  have hrest : (items.drop (i + 1)).filter test = [] := by
    refine List.filter_eq_nil_iff.2 fun z hz htrue => ?_
    obtain ⟨j, hj, rfl⟩ := List.mem_drop_iff_getElem.1 hz
    exact hlater _ (by omega) _ (List.getElem?_eq_getElem _) ((htest _).1 htrue)
  have hsplit : items = items.take i ++ items[i] :: items.drop (i + 1) := by
    rw [← List.drop_eq_getElem_cons hi, List.take_append_drop]
  have hfilter := congrArg (List.filter test) hsplit
  rw [List.filter_append, List.filter_cons_of_pos ((htest _).2 hp), hrest] at hfilter
  rw [hfilter, List.getLast?_concat]

end ApiModel
