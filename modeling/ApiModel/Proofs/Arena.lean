import ApiModel.Outcome
import Mathlib.Data.List.Nodup

/-!
# Passes over the arrays of the store

A pass goes through places and changes the element at each. The four arrays of the store behave
alike here, so what such passes do is stated once for an arena: a pass over distinct places whose
change does not depend on what the pass has done so far is one map over the array.
-/

namespace ApiModel

/-- One array of the store, and how places name its elements. -/
structure Arena (ref element : Type) where
  /-- The position that a place names. -/
  position : ref → Nat
  /-- The place of a position. -/
  place : Nat → ref
  /-- The array. -/
  elements : Model → Array element
  /-- The model with another array. -/
  replace : Model → Array element → Model
  /-- What stands at a place outside the array. -/
  blank : element
  /-- Places and positions correspond. -/
  place_position : ∀ r, place (position r) = r
  /-- Positions and places correspond. -/
  position_place : ∀ i, position (place i) = i
  /-- The array that was put in is found. -/
  elements_replace : ∀ m xs, elements (replace m xs) = xs
  /-- Putting back the array that is there changes nothing. -/
  replace_elements : ∀ m, replace m (elements m) = m
  /-- The array that was put in last counts. -/
  replace_replace : ∀ m xs ys, replace (replace m xs) ys = replace m ys

/-- A map gives at a position what the view makes of the item there. -/
theorem getD_map {α β : Type} (view : α → β) (xs : Array α) (i : Nat) (blank : α) :
    (xs.map view).getD i (view blank) = view (xs.getD i blank) := by
  rw [Array.getD_eq_getD_getElem?, Array.getD_eq_getD_getElem?, Array.getElem?_map, Option.getD_map]

namespace Arena

variable {ref element : Type} (a : Arena ref element)

/-- The element at a place, if the array has one. -/
def find? (m : Model) (r : ref) : Option element := (a.elements m)[a.position r]?

/-- The element at a place. -/
def get (m : Model) (r : ref) : element := (a.elements m).getD (a.position r) a.blank

/-- Whether the array has an element at a place. -/
def Holds (m : Model) (r : ref) : Prop := a.position r < (a.elements m).size

/-- Changes the element at a place. -/
def modify (m : Model) (r : ref) (change : element → element) : Model :=
  a.replace m ((a.elements m).modify (a.position r) change)

/-- Changes every element, by its place. -/
def map (m : Model) (change : ref → element → element) : Model :=
  a.replace m ((a.elements m).mapIdx fun i x => change (a.place i) x)

/-- Different places name different positions. -/
theorem position_injective {r s : ref} (h : a.position r = a.position s) : r = s := by
  rw [← a.place_position r, ← a.place_position s, h]

/-- The element at a place is the one that is found there, or the blank one. -/
theorem get_eq (m : Model) (r : ref) : a.get m r = (a.find? m r).getD a.blank := by
  rw [get, find?, Array.getD_eq_getD_getElem?]

/-- A place that the array has is one where an element is found. -/
theorem find?_of_holds {m : Model} {r : ref} (h : a.Holds m r) :
    a.find? m r = some (a.get m r) := by
  rw [get, find?, Array.getD_eq_getD_getElem?, Array.getElem?_eq_getElem h, Option.getD_some]

/-- At a place outside the array nothing is found. -/
theorem find?_of_not_holds {m : Model} {r : ref} (h : ¬a.Holds m r) : a.find? m r = none :=
  Array.getElem?_eq_none (Nat.le_of_not_lt h)

/-- Outside the array stands the blank element. -/
theorem get_of_not_holds {m : Model} {r : ref} (h : ¬a.Holds m r) : a.get m r = a.blank := by
  rw [get_eq, a.find?_of_not_holds h, Option.getD_none]

/-- What is stated of all elements of the array, and of the blank one, is so at every place. -/
theorem forall_get {P : element → Prop} {m : Model} (hblank : P a.blank)
    (h : ∀ x ∈ a.elements m, P x) (r : ref) : P (a.get m r) := by
  by_cases hr : a.Holds m r
  · exact h _ (Array.mem_of_getElem? (a.find?_of_holds hr))
  · rw [a.get_of_not_holds hr]
    exact hblank

/-- Arrays of one size show the same if a view shows the same at all places. -/
theorem map_elements_eq {κ : Type} (view : element → κ) {m other : Model}
    (hsize : (a.elements other).size = (a.elements m).size)
    (h : ∀ r, view (a.get other r) = view (a.get m r)) :
    (a.elements other).map view = (a.elements m).map view := by
  refine Array.ext (by simpa only [Array.size_map] using hsize) fun i hi hi' => ?_
  rw [Array.size_map] at hi hi'
  have hget := h (a.place i)
  rw [get, get, a.position_place, Array.getD_eq_getD_getElem?, Array.getD_eq_getD_getElem?,
    Array.getElem?_eq_getElem hi, Array.getElem?_eq_getElem hi'] at hget
  rw [Array.getElem_map, Array.getElem_map]
  exact hget

/-- Arrays of one size with the same elements at all places are the same. -/
theorem elements_eq {m other : Model} (hsize : (a.elements other).size = (a.elements m).size)
    (h : ∀ r, a.get other r = a.get m r) : a.elements other = a.elements m := by
  simpa only [Array.map_id] using a.map_elements_eq id hsize h

/-- Where an element is found, the array has the place. -/
theorem holds_of_find? {m : Model} {r : ref} {x : element} (h : a.find? m r = some x) :
    a.Holds m r := by
  obtain ⟨hlt, -⟩ := Array.getElem?_eq_some_iff.1 h
  exact hlt

/-- Where another element than the blank one stands, the array has the place. -/
theorem holds_of_get_ne {m : Model} {r : ref} (h : a.get m r ≠ a.blank) : a.Holds m r := by
  by_contra hr
  exact h (a.get_of_not_holds hr)

/-- The element that is found at a place is the one there. -/
theorem get_of_find? {m : Model} {r : ref} {x : element} (h : a.find? m r = some x) :
    a.get m r = x := by
  rw [get_eq, h, Option.getD_some]

/-- Listing all places in order comes to the elements in order. -/
theorem map_get_of_positions {m : Model} {refs : List ref}
    (h : refs.map a.position = List.range (a.elements m).size) :
    refs.map (a.get m) = (a.elements m).toList := by
  have hget : refs.map (a.get m) =
      (refs.map a.position).map fun i => (a.elements m).getD i a.blank := by
    rw [List.map_map]
    rfl
  rw [hget, h]
  refine List.ext_getElem (by simp) fun i hi hi' => ?_
  have hsize : i < (a.elements m).size := by simpa using hi'
  simp [hsize]

/-- Models that differ in one array only are equal if the same is found at every place. -/
theorem replace_congr {m : Model} {xs ys : Array element}
    (h : ∀ r, xs[a.position r]? = ys[a.position r]?) : a.replace m xs = a.replace m ys := by
  have hxs : xs = ys := Array.ext_getElem? fun i => by
    simpa only [a.position_place] using h (a.place i)
  rw [hxs]

/-! ## One change -/

/-- A change is found at its own place only. -/
theorem find?_modify (m : Model) (r s : ref) (change : element → element) :
    a.find? (a.modify m r change) s =
      (a.find? m s).map fun x => if a.position r = a.position s then change x else x := by
  rw [find?, find?, modify, a.elements_replace, Array.getElem?_modify]
  split
  · rfl
  · rw [Option.map_id']

/-- A change keeps the places. -/
theorem holds_modify (m : Model) (r s : ref) (change : element → element) :
    a.Holds (a.modify m r change) s ↔ a.Holds m s := by
  rw [Holds, Holds, modify, a.elements_replace, Array.size_modify]

/-- At its own place, a change gives what it makes of the element there. -/
theorem get_modify_self {m : Model} {r : ref} (h : a.Holds m r) (change : element → element) :
    a.get (a.modify m r change) r = change (a.get m r) := by
  rw [get_eq, find?_modify, a.find?_of_holds h, Option.map_some, if_pos rfl, Option.getD_some]

/-- A change leaves the elements at all other places. -/
theorem get_modify_of_ne (m : Model) {r s : ref} (h : s ≠ r) (change : element → element) :
    a.get (a.modify m r change) s = a.get m s := by
  rw [get_eq, find?_modify, get_eq]
  have hp : ¬a.position r = a.position s := fun hrs => h (a.position_injective hrs).symm
  simp only [if_neg hp, Option.map_id']

/-- A change relates the elements at all places if it relates the one at its own. -/
theorem get_modify_relates {R : element → element → Prop} (hrefl : ∀ x, R x x) (m : Model)
    (r s : ref) {change : element → element} (h : R (change (a.get m r)) (a.get m r)) :
    R (a.get (a.modify m r change) s) (a.get m s) := by
  by_cases hs : s = r
  · subst hs
    by_cases hm : a.Holds m s
    · rw [a.get_modify_self hm]
      exact h
    · rw [a.get_of_not_holds hm, a.get_of_not_holds (mt (a.holds_modify m s s change).1 hm)]
      exact hrefl a.blank
  · rw [a.get_modify_of_ne m hs]
    exact hrefl (a.get m s)

/-- What a change keeps of an element at its place, it keeps at all places. -/
theorem get_modify_keeps {κ : Type} (view : element → κ) (m : Model) (r s : ref)
    {change : element → element} (h : view (change (a.get m r)) = view (a.get m r)) :
    view (a.get (a.modify m r change) s) = view (a.get m s) :=
  a.get_modify_relates (R := fun x y => view x = view y) (fun _ => rfl) m r s h

/-- Two changes give the same model if they make the same of the element at their place. -/
theorem modify_congr {m : Model} {r : ref} {change other : element → element}
    (h : a.Holds m r → change (a.get m r) = other (a.get m r)) :
    a.modify m r change = a.modify m r other := by
  refine a.replace_congr fun s => ?_
  rw [Array.getElem?_modify, Array.getElem?_modify]
  split
  · rename_i hrs
    by_cases hm : a.Holds m r
    · have hx : (a.elements m)[a.position s]? = some (a.get m r) := by
        rw [← hrs]
        exact a.find?_of_holds hm
      rw [hx, Option.map_some, Option.map_some, h hm]
    · have hx : (a.elements m)[a.position s]? = none := by
        rw [← hrs]
        exact a.find?_of_not_holds hm
      rw [hx, Option.map_none, Option.map_none]
  · rfl

/-- A change that leaves the element as it is leaves the model as it is. -/
theorem modify_eq_self {m : Model} {r : ref} {change : element → element}
    (h : a.Holds m r → change (a.get m r) = a.get m r) : a.modify m r change = m := by
  have hid : a.modify m r change = a.modify m r id := a.modify_congr h
  rw [hid, modify]
  refine Eq.trans ?_ (a.replace_elements m)
  refine a.replace_congr fun s => ?_
  rw [Array.getElem?_modify]
  split
  · exact Option.map_id_apply
  · rfl

/-! ## One more element -/

/-- The place of the next element. -/
def next (m : Model) : ref := a.place (a.elements m).size

/-- Adds an element. -/
def push (m : Model) (x : element) : Model := a.replace m ((a.elements m).push x)

/-- At the next place of the array nothing is found. -/
theorem find?_next (m : Model) : a.find? m (a.next m) = none := by
  rw [find?, next, a.position_place]
  exact Array.getElem?_eq_none (Nat.le_refl _)

/-- An element that is added is found at the next place. -/
theorem find?_push [DecidableEq ref] (m : Model) (x : element) (r : ref) :
    a.find? (a.push m x) r = if r = a.next m then some x else a.find? m r := by
  rw [find?, find?, push, a.elements_replace, Array.getElem?_push]
  by_cases hr : r = a.next m
  · rw [if_pos hr, if_pos (by rw [hr, next, a.position_place])]
  · have hp : a.position r ≠ (a.elements m).size := fun h =>
      hr (a.position_injective (h.trans (a.position_place _).symm))
    rw [if_neg hr, if_neg hp]

/-- The array has one more place after an element was added. -/
theorem holds_push {m : Model} {x : element} {r : ref} :
    a.Holds (a.push m x) r ↔ a.Holds m r ∨ r = a.next m := by
  have hnew : a.position r = (a.elements m).size ↔ r = a.next m := by
    constructor
    · intro hr
      exact a.position_injective (hr.trans (a.position_place _).symm)
    · intro hr
      rw [hr, next, a.position_place]
  rw [Holds, Holds, push, a.elements_replace, Array.size_push, ← hnew]
  omega

/-- After an element is added, it stands at the next place, and each other element where it stood.
-/
theorem get_push [DecidableEq ref] (m : Model) (x : element) (r : ref) :
    a.get (a.push m x) r = if r = a.next m then x else a.get m r := by
  rw [get_eq, find?_push, get_eq]
  split
  · rfl
  · rfl

/-- An element that is found stays where it is. -/
theorem find?_push_of_find? [DecidableEq ref] {m : Model} {r : ref} {y : element}
    (h : a.find? m r = some y) (x : element) : a.find? (a.push m x) r = some y := by
  rw [find?_push, if_neg, h]
  rintro rfl
  rw [find?_next] at h
  cases h

/-- A change of the element that was added last is one before it is added. -/
theorem modify_push (m : Model) (x : element) (change : element → element) :
    a.modify (a.push m x) (a.next m) change = a.push m (change x) := by
  rw [modify, push, a.elements_replace, a.replace_replace, next, a.position_place]
  refine a.replace_congr fun r => ?_
  rw [Array.getElem?_modify, Array.getElem?_push, Array.getElem?_push]
  by_cases hr : a.position r = (a.elements m).size
  · rw [if_pos hr, if_pos hr.symm, if_pos hr, Option.map_some]
  · rw [if_neg hr, if_neg (Ne.symm hr), if_neg hr]

/-- Whether another model has the elements of one at their places. -/
def Keeps (m other : Model) : Prop := ∀ r x, a.find? m r = some x → a.find? other r = some x

/-- A model keeps its own elements. -/
theorem Keeps.refl (m : Model) : a.Keeps m m := fun _ _ h => h

/-- What a model keeps of another, it keeps of all before. -/
theorem Keeps.trans {m other last : Model} (h : a.Keeps m other) (h' : a.Keeps other last) :
    a.Keeps m last := fun r x hx => h' r x (h r x hx)

/-- Models with the same array keep each other's elements. -/
theorem keeps_of_eq {m other : Model} (h : a.elements other = a.elements m) : a.Keeps m other := by
  intro r x hx
  rw [find?, h]
  exact hx

/-- Adding an element keeps the others. -/
theorem keeps_push [DecidableEq ref] (m : Model) (x : element) : a.Keeps m (a.push m x) :=
  fun _ _ h => a.find?_push_of_find? h x

/-- An element that is kept is among those of the later model. -/
theorem Keeps.mem {m other : Model} (h : a.Keeps m other) {x : element} (hx : x ∈ a.elements m) :
    x ∈ a.elements other := by
  obtain ⟨i, hi⟩ := Array.mem_iff_getElem?.1 hx
  have hfound : a.find? m (a.place i) = some x := by
    rw [find?, a.position_place]
    exact hi
  exact Array.mem_of_getElem? (h _ _ hfound)

/-- What is not there in a model that keeps another's elements is not there in the other. -/
theorem Keeps.find?_eq_none {m other : Model} (h : a.Keeps m other) {r : ref}
    (hr : a.find? other r = none) : a.find? m r = none := by
  cases hx : a.find? m r with
  | none => rfl
  | some x =>
    rw [h r x hx] at hr
    cases hr

/-! ## All changes -/

/-- A map gives at every place what it makes of the element that is found there. -/
theorem find?_map (m : Model) (change : ref → element → element) (r : ref) :
    a.find? (a.map m change) r = (a.find? m r).map (change r) := by
  rw [find?, find?, map, a.elements_replace, Array.getElem?_mapIdx, a.place_position]

/-- A map keeps the places. -/
theorem holds_map (m : Model) (change : ref → element → element) (r : ref) :
    a.Holds (a.map m change) r ↔ a.Holds m r := by
  rw [Holds, Holds, map, a.elements_replace, Array.size_mapIdx]

/-- A map gives at a place of the array what it makes of the element there. -/
theorem get_map {m : Model} {r : ref} (h : a.Holds m r) (change : ref → element → element) :
    a.get (a.map m change) r = change r (a.get m r) := by
  rw [get_eq, find?_map, a.find?_of_holds h, Option.map_some, Option.getD_some]

/-- The element at one of the places of a map that leaves the blank element as it is. -/
theorem get_map_of_mem [DecidableEq ref] (m : Model) {places : List ref} {r : ref}
    (hr : r ∈ places) (change : ref → element → element) (h : change r a.blank = a.blank) :
    a.get (a.map m fun r x => if r ∈ places then change r x else x) r = change r (a.get m r) := by
  by_cases hm : a.Holds m r
  · rw [a.get_map hm, if_pos hr]
  · rw [a.get_of_not_holds hm, a.get_of_not_holds (mt (a.holds_map m _ r).1 hm), h]

/-- A view that a map keeps of every element shows the same at every place. -/
theorem get_map_keeps {κ : Type} (view : element → κ) {m : Model}
    {change : ref → element → element} (h : ∀ r x, view (change r x) = view x) (r : ref) :
    view (a.get (a.map m change) r) = view (a.get m r) := by
  by_cases hm : a.Holds m r
  · rw [a.get_map hm, h]
  · rw [a.get_of_not_holds hm, a.get_of_not_holds (mt (a.holds_map m change r).1 hm)]

/-- Two maps give the same model if they make the same of every element of the array. -/
theorem map_congr {m : Model} {change other : ref → element → element}
    (h : ∀ r, a.Holds m r → change r (a.get m r) = other r (a.get m r)) :
    a.map m change = a.map m other := by
  refine a.replace_congr fun r => ?_
  rw [Array.getElem?_mapIdx, Array.getElem?_mapIdx, a.place_position]
  by_cases hm : a.Holds m r
  · have hx : (a.elements m)[a.position r]? = some (a.get m r) := a.find?_of_holds hm
    rw [hx, Option.map_some, Option.map_some, h r hm]
  · have hx : (a.elements m)[a.position r]? = none := a.find?_of_not_holds hm
    rw [hx, Option.map_none, Option.map_none]

/-- A map that leaves every element as it is leaves the model as it is. -/
theorem map_eq_self {m : Model} {change : ref → element → element}
    (h : ∀ r, a.Holds m r → change r (a.get m r) = a.get m r) : a.map m change = m := by
  have hid : a.map m change = a.map m fun _ x => x := a.map_congr h
  rw [hid, map]
  refine Eq.trans ?_ (a.replace_elements m)
  refine a.replace_congr fun r => ?_
  rw [Array.getElem?_mapIdx, Option.map_id']

/-- Two maps are one, whose change makes the second change of what the first has made. -/
theorem map_map (m : Model) (first second : ref → element → element) :
    a.map (a.map m first) second = a.map m fun r x => second r (first r x) := by
  rw [map, map, map, a.elements_replace, a.replace_replace]
  refine a.replace_congr fun r => ?_
  rw [Array.getElem?_mapIdx, Array.getElem?_mapIdx, Array.getElem?_mapIdx, Option.map_map]
  rfl

/-- A single change is a map. -/
theorem modify_eq_map [DecidableEq ref] (m : Model) (r : ref) (change : element → element) :
    a.modify m r change = a.map m fun s x => if s = r then change x else x := by
  refine a.replace_congr fun s => ?_
  rw [Array.getElem?_modify, Array.getElem?_mapIdx, a.place_position]
  by_cases hs : s = r
  · subst hs
    simp only [reduceIte]
  · have hp : ¬a.position r = a.position s := fun hrs => hs (a.position_injective hrs).symm
    simp only [if_neg hp, if_neg hs, Option.map_id']

/-- What holds of every element and of the change of one holds of what a single change makes of
each. -/
theorem forall_modified [DecidableEq ref] (P : ref → element → element → Prop)
    {m : Model} {r : ref} {change : element → element}
    (hchanged : ∀ x, a.find? m r = some x → P r x (change x))
    (hothers : ∀ s x, a.find? m s = some x → P s x x) :
    ∀ s x, a.find? m s = some x → P s x (if s = r then change x else x) := by
  intro s x hx
  by_cases hs : s = r
  · subst hs
    rw [if_pos rfl]
    exact hchanged x hx
  · rw [if_neg hs]
    exact hothers s x hx

/-! ## Relations that see a view of the elements -/

/-- Whether a relation of models sees the array only through a view of its elements: it holds if the
array is replaced by one of the size that shows the same at every place. -/
def SeenThrough {κ : Type} (view : element → κ) (R : Model → Model → Prop) : Prop :=
  ∀ m xs, xs.size = (a.elements m).size →
    (∀ r, view (a.get (a.replace m xs) r) = view (a.get m r)) → R m (a.replace m xs)

namespace SeenThrough

variable {a} {κ : Type} {view : element → κ} {R : Model → Model → Prop} {m : Model}

/-- A change of one element that does not show is not seen. -/
theorem modify (h : a.SeenThrough view R) {r : ref} {change : element → element}
    (hview : view (change (a.get m r)) = view (a.get m r)) : R m (a.modify m r change) :=
  h m _ Array.size_modify fun s => a.get_modify_keeps view m r s hview

/-- A change of all elements that does not show is not seen. -/
theorem map (h : a.SeenThrough view R) {change : ref → element → element}
    (hview : ∀ r x, view (change r x) = view x) : R m (a.map m change) :=
  h m _ Array.size_mapIdx (a.get_map_keeps view hview)

/-- What is told of a model by what its array shows is the same for models that show the same. -/
theorem of_views {κ told : Type} {view : element → κ} {tell : Model → told}
    (join : Model → Array κ → told)
    (h : ∀ m xs, tell (a.replace m xs) = join m (xs.map view)) :
    a.SeenThrough view fun m other => tell other = tell m := by
  intro m xs hsize hview
  have hviews : xs.map view = (a.elements m).map view := by
    have hshown := a.map_elements_eq view ((a.elements_replace m xs).symm ▸ hsize) hview
    rwa [a.elements_replace] at hshown
  calc tell (a.replace m xs) = join m (xs.map view) := h m xs
    _ = join m ((a.elements m).map view) := by rw [hviews]
    _ = tell m := by rw [← h, a.replace_elements]

end SeenThrough

/-! ## Passes -/

variable [DecidableEq ref]

/-- A pass over distinct places is one map, if its change at a place does not depend on what the
pass has done so far. `Stable` says what of the model the change depends on. -/
theorem foldl_eq_map {Stable : Model → Prop} {step : Model → ref → Model}
    {change : ref → element → element}
    (hstep : ∀ m r, Stable m → step m r = a.modify m r (change r))
    (hkeep : ∀ m r, Stable m → Stable (a.modify m r (change r))) {places : List ref}
    (hplaces : places.Nodup) {m : Model} (hm : Stable m) :
    places.foldl step m = a.map m fun r x => if r ∈ places then change r x else x := by
  induction places generalizing m with
  | nil =>
    refine (a.map_eq_self fun r _ => ?_).symm
    exact if_neg List.not_mem_nil
  | cons r rest ih =>
    obtain ⟨hr, hrest⟩ := List.nodup_cons.1 hplaces
    rw [List.foldl_cons, hstep m r hm, ih hrest (hkeep m r hm), a.modify_eq_map, a.map_map]
    refine a.map_congr fun s _ => ?_
    by_cases hs : s = r
    · subst hs
      simp only [hr, reduceIte, List.mem_cons_self]
    · simp only [List.mem_cons, hs, false_or, reduceIte]

/-- A pass that may fail comes to its end if and only if it succeeds at every place, if what it
makes of an element does not depend on what it has done so far; then it is one map, and else its
error is the one at some place. -/
theorem forEach_eq_map {Stable : Model → Prop} {step : Model → ref → Except Error Model}
    {change : ref → element → Except Error element}
    (hstep : ∀ m r, Stable m →
      step m r = (change r (a.get m r)).map fun y => a.modify m r fun _ => y)
    (hkeep : ∀ m r y, Stable m → change r (a.get m r) = .ok y →
      Stable (a.modify m r fun _ => y))
    {places : List ref} (hplaces : places.Nodup) {m : Model} (hm : Stable m) :
    (∃ made : ref → element, (∀ r ∈ places, change r (a.get m r) = .ok (made r)) ∧
      Outcome.forEach step places m =
        ⟨a.map m fun r x => if r ∈ places then made r else x, none⟩) ∨
    ∃ e, (Outcome.forEach step places m).error? = some e ∧
      ∃ r ∈ places, change r (a.get m r) = .error e := by
  induction places generalizing m with
  | nil =>
    refine .inl ⟨fun _ => a.blank, fun r hr => absurd hr List.not_mem_nil, ?_⟩
    rw [Outcome.forEach, a.map_eq_self fun r _ => if_neg List.not_mem_nil]
  | cons r rest ih =>
    obtain ⟨hr, hrest⟩ := List.nodup_cons.1 hplaces
    rw [Outcome.forEach, hstep m r hm]
    cases hy : change r (a.get m r) with
    | error e => exact .inr ⟨e, rfl, r, List.mem_cons_self, hy⟩
    | ok y =>
      have hothers : ∀ s ∈ rest, a.get (a.modify m r fun _ => y) s = a.get m s := fun s hs =>
        a.get_modify_of_ne m (ne_of_mem_of_not_mem hs hr) _
      rcases ih hrest (hkeep m r y hm hy) with ⟨made, hmade, heq⟩ | ⟨e, he, s, hs, hes⟩
      · refine .inl ⟨fun s => if s = r then y else made s, fun s hs => ?_, ?_⟩
        · beta_reduce
          rcases List.mem_cons.1 hs with rfl | hs
          · rw [hy, if_pos rfl]
          · rw [if_neg (ne_of_mem_of_not_mem hs hr), ← hmade s hs, hothers s hs]
        · change Outcome.forEach step rest (a.modify m r fun _ => y) = _
          rw [heq, a.modify_eq_map, a.map_map]
          refine congrArg (Outcome.mk · none) (a.map_congr fun s _ => ?_)
          by_cases hs : s = r
          · subst hs
            simp only [hr, reduceIte, List.mem_cons_self]
          · simp only [List.mem_cons, hs, false_or, reduceIte]
      · refine .inr ⟨e, he, s, List.mem_cons_of_mem _ hs, ?_⟩
        rw [← hes, hothers s hs]

end Arena

/-! ## The arrays of the store -/

namespace Model

/-- The messages of the store. -/
def messageArena : Arena MessageRef Message where
  position := MessageRef.index
  place := MessageRef.mk
  elements m := m.store.messages
  replace m xs := { m with store := { m.store with messages := xs } }
  blank := default
  place_position _ := rfl
  position_place _ := rfl
  elements_replace _ _ := rfl
  replace_elements _ := rfl
  replace_replace _ _ _ := rfl

/-- The enumerations of the store. -/
def enumArena : Arena EnumRef Enumeration where
  position := EnumRef.index
  place := EnumRef.mk
  elements m := m.store.enums
  replace m xs := { m with store := { m.store with enums := xs } }
  blank := default
  place_position _ := rfl
  position_place _ := rfl
  elements_replace _ _ := rfl
  replace_elements _ := rfl
  replace_replace _ _ _ := rfl

/-- The services of the store. -/
def serviceArena : Arena ServiceRef Service where
  position := ServiceRef.index
  place := ServiceRef.mk
  elements m := m.store.services
  replace m xs := { m with store := { m.store with services := xs } }
  blank := default
  place_position _ := rfl
  position_place _ := rfl
  elements_replace _ _ := rfl
  replace_elements _ := rfl
  replace_replace _ _ _ := rfl

/-- The methods of the store. -/
def methodArena : Arena MethodRef Method where
  position := MethodRef.index
  place := MethodRef.mk
  elements m := m.store.methods
  replace m xs := { m with store := { m.store with methods := xs } }
  blank := default
  place_position _ := rfl
  position_place _ := rfl
  elements_replace _ _ := rfl
  replace_elements _ := rfl
  replace_replace _ _ _ := rfl

/-- Changing one message is found at its own place only. -/
theorem find?_modifyMessage (m : Model) (r s : MessageRef) (change : Message → Message) :
    messageArena.find? (m.modifyMessage r change) s =
      (messageArena.find? m s).map fun x => if s = r then change x else x := by
  change messageArena.find? (messageArena.modify m r change) s = _
  rw [messageArena.modify_eq_map, messageArena.find?_map]

/-- Whether whatever stands at a place of the store of a model stands there in another. -/
structure StaysIn (m other : Model) : Prop where
  /-- The messages. -/
  messages : messageArena.Keeps m other
  /-- The enumerations. -/
  enums : enumArena.Keeps m other
  /-- The services. -/
  services : serviceArena.Keeps m other
  /-- The methods. -/
  methods : methodArena.Keeps m other

/-- Outside the store stands the blank method. -/
theorem method_of_not_holds {m : Model} {r : MethodRef} (h : ¬methodArena.Holds m r) :
    m.method r = default :=
  methodArena.get_of_not_holds h

/-- Stores of as many messages hold the same places. -/
theorem holds_message_iff {m other : Model} (h : other.store.messages.size = m.store.messages.size)
    {r : MessageRef} : messageArena.Holds other r ↔ messageArena.Holds m r := by
  change r.index < other.store.messages.size ↔ r.index < m.store.messages.size
  rw [h]

/-- Stores of as many methods hold the same places. -/
theorem holds_method_iff {m other : Model} (h : other.store.methods.size = m.store.methods.size)
    {r : MethodRef} : methodArena.Holds other r ↔ methodArena.Holds m r := by
  change r.index < other.store.methods.size ↔ r.index < m.store.methods.size
  rw [h]

end Model

end ApiModel
