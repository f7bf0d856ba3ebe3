import ApiModel.Proofs.Assembly.Exactness
import Mathlib.Algebra.Order.BigOperators.Group.Finset
import Mathlib.Logic.Relation

/-!
# Recursive fields are those that lead back

A search marks places, from pending ones to the next ones, and passes over places that are marked.
What it marks is what can be reached, in cyclic graphs too, and it takes at most as many steps as
there are links and pending places. So a field is marked as recursive exactly if the message that
owns it can be reached from the message that it holds.
-/

namespace ApiModel.Model

open Relation

/-! ## Searching -/

section Search

variable {next : Nat → List Nat} {marks : Array Bool} {pending : List Nat}

/-- Whether a place has its mark. -/
def Marked (marks : Array Bool) (i : Nat) : Prop := marks[i]? = some true

/-- A place has its mark after one is set if it is that place or had its mark. -/
theorem marked_set {i j : Nat} (h : i < marks.size) :
    Marked (marks.set i true) j ↔ j = i ∨ Marked marks j := by
  unfold Marked
  rw [Array.getElem?_set]
  by_cases hij : i = j
  · simp [hij]
  · simp [hij, Ne.symm hij]

/-- A place that is not unmarked has its mark. -/
theorem marked_of_ne_false {i : Nat} (h : i < marks.size) (marked : ¬marks[i] = false) :
    Marked marks i := by
  rw [Bool.not_eq_false] at marked
  rw [Marked, Array.getElem?_eq_getElem h, marked]

/-- A search sets no mark outside. -/
theorem size_markReachable : (markReachable next marks pending).size = marks.size := by
  fun_induction markReachable next marks pending with
  | case1 => rfl
  | case2 marks i rest h unmarked ih => rw [ih, Array.size_set]
  | case3 marks i rest h marked ih => exact ih
  | case4 marks i rest h ih => exact ih

/-- A search marks only what was marked or can be reached from a pending place. -/
theorem marked_or_reached {j : Nat} (hj : Marked (markReachable next marks pending) j) :
    Marked marks j ∨ ∃ i ∈ pending, ReflTransGen (fun a b => b ∈ next a) i j := by
  fun_induction markReachable next marks pending with
  | case1 => exact .inl hj
  | case2 marks i rest h unmarked ih =>
    rcases ih hj with hmarked | ⟨k, hk, hreach⟩
    · rcases (marked_set h).1 hmarked with rfl | hmarked
      · exact .inr ⟨_, List.mem_cons_self, .refl⟩
      · exact .inl hmarked
    · rcases List.mem_append.1 hk with hk | hk
      · exact .inr ⟨i, List.mem_cons_self, .head hk hreach⟩
      · exact .inr ⟨k, List.mem_cons_of_mem i hk, hreach⟩
  | case3 marks i rest h marked ih =>
    exact (ih hj).imp_right fun ⟨k, hk, hreach⟩ => ⟨k, List.mem_cons_of_mem i hk, hreach⟩
  | case4 marks i rest h ih =>
    exact (ih hj).imp_right fun ⟨k, hk, hreach⟩ => ⟨k, List.mem_cons_of_mem i hk, hreach⟩

/-- A place that is marked before a search is marked behind it. -/
theorem marked_of_marked {j : Nat} (hj : Marked marks j) :
    Marked (markReachable next marks pending) j := by
  fun_induction markReachable next marks pending with
  | case1 => exact hj
  | case2 marks i rest h unmarked ih => exact ih ((marked_set h).2 (.inr hj))
  | case3 marks i rest h marked ih => exact ih hj
  | case4 marks i rest h ih => exact ih hj

/-- A place that is pending before a search is marked behind it. -/
theorem marked_of_pending {j : Nat} (hj : j ∈ pending) (hsize : j < marks.size) :
    Marked (markReachable next marks pending) j := by
  fun_induction markReachable next marks pending with
  | case1 => exact absurd hj List.not_mem_nil
  | case2 marks i rest h unmarked ih =>
    rcases List.mem_cons.1 hj with rfl | hj
    · exact marked_of_marked ((marked_set h).2 (.inl rfl))
    · exact ih (List.mem_append_right _ hj) (by rwa [Array.size_set])
  | case3 marks i rest h marked ih =>
    rcases List.mem_cons.1 hj with rfl | hj
    · exact marked_of_marked (marked_of_ne_false h marked)
    · exact ih hj hsize
  | case4 marks i rest h ih =>
    rcases List.mem_cons.1 hj with rfl | hj
    · exact absurd hsize h
    · exact ih hj hsize

/-- Whether the places next to marked ones are marked or pending. -/
def Closing (next : Nat → List Nat) (marks : Array Bool) (pending : List Nat) : Prop :=
  ∀ i, Marked marks i → ∀ j ∈ next i, j < marks.size → Marked marks j ∨ j ∈ pending

/-- Behind a search, the places next to marked ones are marked. -/
theorem closing_markReachable (hclosing : Closing next marks pending) :
    Closing next (markReachable next marks pending) [] := by
  fun_induction markReachable next marks pending with
  | case1 => exact hclosing
  | case2 marks i rest h unmarked ih =>
    refine ih fun k hk j hj hsize => ?_
    rw [Array.size_set] at hsize
    rw [marked_set h, List.mem_append]
    rcases (marked_set h).1 hk with rfl | hk
    · exact .inr (.inl hj)
    · rcases hclosing k hk j hj hsize with hmarked | hpending
      · exact .inl (.inr hmarked)
      · rcases List.mem_cons.1 hpending with rfl | hpending
        · exact .inl (.inl rfl)
        · exact .inr (.inr hpending)
  | case3 marks i rest h marked ih =>
    refine ih fun k hk j hj hsize => ?_
    rcases hclosing k hk j hj hsize with hmarked | hpending
    · exact .inl hmarked
    · rcases List.mem_cons.1 hpending with rfl | hpending
      · exact .inl (marked_of_ne_false h marked)
      · exact .inr hpending
  | case4 marks i rest h ih =>
    refine ih fun k hk j hj hsize => ?_
    rcases hclosing k hk j hj hsize with hmarked | hpending
    · exact .inl hmarked
    · rcases List.mem_cons.1 hpending with rfl | hpending
      · exact absurd hsize h
      · exact .inr hpending

/-- A search from one place with no marks marks exactly what can be reached from it, where no place
outside leads anywhere. -/
theorem marked_markReachable_iff {size j : Nat} (start : Nat)
    (houtside : ∀ i, size ≤ i → next i = []) (hj : j < size) :
    Marked (markReachable next (Array.replicate size false) [start]) j ↔
      ReflTransGen (fun a b => b ∈ next a) start j := by
  have hblank : ∀ i, ¬Marked (Array.replicate size false) i := by
    intro i hi
    rw [Marked, Array.getElem?_replicate] at hi
    split at hi <;> cases hi
  constructor
  · intro hmarked
    obtain ⟨i, hi, hreach⟩ := (marked_or_reached hmarked).resolve_left (hblank j)
    rwa [List.mem_singleton.1 hi] at hreach
  · intro hreach
    have hstart : Closing next (Array.replicate size false) [start] :=
      fun i hi => absurd hi (hblank i)
    have hclosing := closing_markReachable hstart
    induction hreach with
    | refl => exact marked_of_pending List.mem_cons_self (by rwa [Array.size_replicate])
    | @tail b c _ hbc ih =>
      have hb : b < size := by
        refine Nat.lt_of_not_le fun hle => ?_
        rw [houtside b hle] at hbc
        exact absurd hbc List.not_mem_nil
      have hc : c < (markReachable next (Array.replicate size false) [start]).size := by
        rwa [size_markReachable, Array.size_replicate]
      exact (hclosing b (ih hb) c hbc hc).resolve_right List.not_mem_nil

/-! ## Steps of a search -/

/-- A search under way. -/
structure Search where
  /-- The marks that are set. -/
  marks : Array Bool
  /-- The places that are pending. -/
  pending : List Nat

/-- One step of a search: the first pending place is marked and its next places are pending, or it
is passed over. -/
def Search.step (next : Nat → List Nat) (s : Search) : Search :=
  match s.pending with
  | [] => s
  | i :: rest =>
    if s.marks[i]? = some false then ⟨s.marks.setIfInBounds i true, next i ++ rest⟩
    else ⟨s.marks, rest⟩

/-- How many links lead from places without a mark. -/
def openLinks (next : Nat → List Nat) (marks : Array Bool) : Nat :=
  ∑ i ∈ (Finset.range marks.size).filter fun i => marks[i]? = some false, (next i).length

/-- The links of a place are no longer open when it is marked. -/
theorem openLinks_set (next : Nat → List Nat) {i : Nat} (h : i < marks.size)
    (unmarked : marks[i] = false) :
    openLinks next (marks.set i true) + (next i).length = openLinks next marks := by
  have hmem : i ∈ (Finset.range marks.size).filter fun i => marks[i]? = some false := by
    rw [Finset.mem_filter, Finset.mem_range, Array.getElem?_eq_getElem h, unmarked]
    exact ⟨h, rfl⟩
  have hrest : ((Finset.range (marks.set i true).size).filter fun j =>
      (marks.set i true)[j]? = some false) =
        ((Finset.range marks.size).filter fun i => marks[i]? = some false).erase i := by
    ext j
    rw [Finset.mem_erase, Finset.mem_filter, Finset.mem_filter, Array.size_set, Array.getElem?_set]
    by_cases hij : i = j
    · simp [hij]
    · simp [hij, Ne.symm hij]
  rw [openLinks, hrest]
  exact Finset.sum_erase_add _ _ hmem

/-- A search comes to its end, and takes at most as many steps as places are pending and links are
open. -/
theorem exists_steps_markReachable (next : Nat → List Nat) (marks : Array Bool)
    (pending : List Nat) :
    ∃ n ≤ pending.length + openLinks next marks,
      (Search.step next)^[n] ⟨marks, pending⟩ = ⟨markReachable next marks pending, []⟩ := by
  fun_induction markReachable next marks pending with
  | case1 marks => exact ⟨0, Nat.zero_le _, rfl⟩
  | case2 marks i rest h unmarked ih =>
    obtain ⟨n, hn, hend⟩ := ih
    have hstep : Search.step next ⟨marks, i :: rest⟩ =
        ⟨marks.set i true, next i ++ rest⟩ := by
      simp [Search.step, h, unmarked, Array.setIfInBounds]
    have hlinks := openLinks_set next h unmarked
    rw [List.length_append] at hn
    refine ⟨n + 1, ?_, ?_⟩
    · rw [List.length_cons]
      omega
    · rw [Function.iterate_succ_apply, hstep, hend]
  | case3 marks i rest h marked ih =>
    obtain ⟨n, hn, hend⟩ := ih
    have hstep : Search.step next ⟨marks, i :: rest⟩ = ⟨marks, rest⟩ := by
      simp [Search.step, h, marked]
    refine ⟨n + 1, ?_, ?_⟩
    · rw [List.length_cons]
      omega
    · rw [Function.iterate_succ_apply, hstep, hend]
  | case4 marks i rest h ih =>
    obtain ⟨n, hn, hend⟩ := ih
    have hstep : Search.step next ⟨marks, i :: rest⟩ = ⟨marks, rest⟩ := by
      simp [Search.step, h]
    refine ⟨n + 1, ?_, ?_⟩
    · rw [List.length_cons]
      omega
    · rw [Function.iterate_succ_apply, hstep, hend]

end Search

/-! ## The graph of messages -/

variable {m : Model}

/-- Whether a field of one message holds another. -/
def HoldsMessage (m : Model) (owner held : MessageRef) : Prop :=
  ∃ f ∈ (m.message owner).fields, f.target = some (.message held)

/-- The messages that a message holds are those of its fields. -/
theorem mem_fieldMessages {owner held : MessageRef} :
    held ∈ m.fieldMessages owner ↔ m.HoldsMessage owner held := by
  unfold fieldMessages HoldsMessage
  rw [List.mem_filterMap]
  refine exists_congr fun f => and_congr_right fun _ => ?_
  constructor
  · intro h
    obtain ⟨target, htarget, hmessage⟩ := Option.bind_eq_some_iff.1 h
    cases target with
    | message r =>
      obtain rfl := Option.some.inj hmessage
      exact htarget
    | enumeration r => cases hmessage
  · intro h
    rw [h]
    rfl

/-- The positions of the messages that the message at a position holds. -/
def nextMessages (m : Model) (i : Nat) : List Nat := (m.fieldMessages ⟨i⟩).map MessageRef.index

/-- A position is next to another if the message there is held by the other. -/
theorem mem_nextMessages {i j : Nat} : j ∈ m.nextMessages i ↔
    m.HoldsMessage ⟨i⟩ ⟨j⟩ := by
  rw [nextMessages, List.mem_map, ← mem_fieldMessages]
  constructor
  · rintro ⟨⟨k⟩, hk, rfl⟩
    exact hk
  · intro h
    exact ⟨⟨j⟩, h, rfl⟩

/-- What can be reached by position can be reached by place. -/
theorem reflTransGen_nextMessages {start goal : MessageRef} :
    ReflTransGen (fun i j => j ∈ m.nextMessages i) start.index goal.index ↔
      ReflTransGen m.HoldsMessage start goal := by
  constructor
  · intro h
    exact h.lift MessageRef.mk fun i j hij => mem_nextMessages.1 hij
  · intro h
    exact h.lift MessageRef.index fun r s hrs => mem_nextMessages.2 hrs

/-- Outside the store, no message holds another. -/
theorem nextMessages_of_size_le {i : Nat} (h : m.store.messages.size ≤ i) :
    m.nextMessages i = [] := by
  have hblank : m.message ⟨i⟩ = default := messageArena.get_of_not_holds (Nat.not_lt.2 h)
  rw [nextMessages, fieldMessages, hblank]
  rfl

/-- A message of the store is found from another if and only if it can be reached from it. -/
theorem reaches_iff {start goal : MessageRef} (h : messageArena.Holds m goal) :
    m.reaches start goal = true ↔ ReflTransGen m.HoldsMessage start goal := by
  have hsearch := marked_markReachable_iff start.index (fun _ => nextMessages_of_size_le) h
  have hmark : m.reaches start goal = true ↔ Marked (m.reachableMessages start) goal.index := by
    rw [reaches, Array.getD_eq_getD_getElem?, Marked]
    cases (m.reachableMessages start)[goal.index]? <;> simp
  exact (hmark.trans hsearch).trans reflTransGen_nextMessages

/-- A field leads back to a message of the store if and only if the message can be reached from the
one that the field holds. -/
theorem leadsBack_iff {owner : MessageRef} (h : messageArena.Holds m owner) (f : Field) :
    m.leadsBack owner f = true ↔
      ∃ t, f.target = some (.message t) ∧ ReflTransGen m.HoldsMessage t owner := by
  unfold leadsBack
  cases f.target with
  | none => simp
  | some target =>
    cases target with
    | message t => simp [reaches_iff h]
    | enumeration t => simp

/-- The search for what can be reached from a message comes to its end, at most one step after as
many steps as fields hold messages. -/
theorem exists_steps_reachableMessages (m : Model) (start : MessageRef) :
    ∃ n ≤ 1 + ∑ i ∈ Finset.range m.store.messages.size, (m.fieldMessages ⟨i⟩).length,
      (Search.step m.nextMessages)^[n]
          ⟨Array.replicate m.store.messages.size false, [start.index]⟩ =
        ⟨m.reachableMessages start, []⟩ := by
  obtain ⟨n, hn, hend⟩ := exists_steps_markReachable m.nextMessages
    (Array.replicate m.store.messages.size false) [start.index]
  have hlinks : openLinks m.nextMessages (Array.replicate m.store.messages.size false) ≤
      ∑ i ∈ Finset.range m.store.messages.size, (m.fieldMessages ⟨i⟩).length := by
    unfold openLinks nextMessages
    simp only [List.length_map, Array.size_replicate]
    exact Finset.sum_le_sum_of_subset_of_nonneg (Finset.filter_subset _ _) fun _ _ _ =>
      Nat.zero_le _
  exact ⟨n, hn.trans (Nat.add_le_add_left hlinks 1), hend⟩

/-! ## After assembly -/

/-- If assembly comes to its end, a field of an indexed message is recursive exactly if it holds a
message from which its owner can be reached; and the search for what can be reached ends in every
graph. -/
theorem recursive_crossReference_iff (h : m.crossReference.error? = none) :
    (∀ r ∈ m.crossReference.model.indexedMessages,
      ∀ f ∈ (m.crossReference.model.message r).fields,
      f.recursive = true ↔
        ∃ t, f.target = some (.message t) ∧
          ReflTransGen m.crossReference.model.HoldsMessage t r) ∧
    ∀ start, ∃ n ≤ 1 + ∑ i ∈ Finset.range m.crossReference.model.store.messages.size,
        (m.crossReference.model.fieldMessages ⟨i⟩).length,
      (Search.step m.crossReference.model.nextMessages)^[n]
          ⟨Array.replicate m.crossReference.model.store.messages.size false, [start.index]⟩ =
        ⟨m.crossReference.model.reachableMessages start, []⟩ := by
  refine ⟨fun r hr f hf => ?_, exists_steps_reachableMessages _⟩
  have hholds : messageArena.Holds m.crossReference.model r := by
    by_contra hout
    have hblank : m.crossReference.model.message r = default := messageArena.get_of_not_holds hout
    rw [hblank] at hf
    exact absurd hf List.not_mem_nil
  rw [(settled_crossReference h).recursive r hr f hf]
  exact leadsBack_iff hholds f

/-- A planet and its moon that hold each other, the moon through an external orbit, and a flag that
holds nothing. -/
def orbits : Model :=
  { messages := [⟨0⟩, ⟨1⟩, ⟨3⟩]
    externalMessages := [⟨2⟩]
    store :=
      { messages :=
          #[{ id := ".p.Planet"
              fields := [
                { id := ".p.Planet.moon", type := .message, typeId := ".p.Moon" },
                { id := ".p.Planet.flag", type := .message, typeId := ".p.Flag" }] },
            { id := ".p.Moon"
              fields := [{ id := ".p.Moon.orbit", type := .message, typeId := ".q.Orbit" }] },
            { id := ".q.Orbit"
              fields := [{ id := ".q.Orbit.center", type := .message, typeId := ".p.Planet" }] },
            { id := ".p.Flag" }] } }

/-- Assembly of the orbits comes to its end, and marks the fields of the cycle. -/
theorem recursive_crossReference_iff_orbits :
    orbits.crossReference.error? = none ∧
    (∀ r ∈ orbits.crossReference.model.indexedMessages,
      ∀ f ∈ (orbits.crossReference.model.message r).fields,
      f.recursive = true ↔
        ∃ t, f.target = some (.message t) ∧
          ReflTransGen orbits.crossReference.model.HoldsMessage t r) ∧
    ∀ start, ∃ n ≤ 1 + ∑ i ∈ Finset.range orbits.crossReference.model.store.messages.size,
        (orbits.crossReference.model.fieldMessages ⟨i⟩).length,
      (Search.step orbits.crossReference.model.nextMessages)^[n]
          ⟨Array.replicate orbits.crossReference.model.store.messages.size false,
            [start.index]⟩ =
        ⟨orbits.crossReference.model.reachableMessages start, []⟩ := by
  have hend : orbits.crossReference.error? = none := by decide +kernel
  exact ⟨hend, recursive_crossReference_iff hend⟩

end ApiModel.Model
