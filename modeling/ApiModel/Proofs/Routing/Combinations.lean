import Mathlib.Algebra.GroupWithZero.Nat
import Mathlib.Data.List.Forall2
import Mathlib.Data.List.Induction
import ApiModel.Model.Query

/-!
# Combinations of routing variants

The combinations of a method are built by one loop over its keys, which goes on with every
combination so far and every variant of the next key. So they are numbered in a mixed radix: the
combination at a position picks for each key the variant at the place that a digit of the position
tells, the last key being the lowest digit. Each choice of places is made at exactly one position.
-/

namespace ApiModel

/-- The choice of the variant at a place. -/
def RoutingInfo.choice? (info : RoutingInfo) (i : Nat) : Option RoutingChoice :=
  info.variants[i]?.map fun variant => ⟨info.name, variant⟩

/-- The numbers of variants of the keys. -/
def variantCounts (infos : List RoutingInfo) : List Nat :=
  infos.map fun info => info.variants.length

/-- The digits of a number in the mixed radix of the counts, the lowest one last. -/
def digits : List Nat → Nat → List Nat
  | [], _ => []
  | count :: counts, p => p / counts.prod % count :: digits counts p

/-- The combination that picks for each key the variant at a place. -/
def pick? (infos : List RoutingInfo) (places : List Nat) : Option (List RoutingChoice) :=
  (infos.zip places).mapM fun (info, i) => info.choice? i

section Digits

variable {counts places : List Nat} {p q : Nat}

/-- A number has as many digits as there are counts. -/
theorem length_digits (counts : List Nat) (p : Nat) : (digits counts p).length = counts.length := by
  induction counts with
  | nil => rfl
  | cons count counts ih => simp only [digits, List.length_cons, ih]

/-- With one more count, the remainder is the lowest digit, and the quotient has the others. -/
theorem digits_concat (counts : List Nat) (count p : Nat) :
    digits (counts ++ [count]) p = digits counts (p / count) ++ [p % count] := by
  induction counts with
  | nil => simp [digits]
  | cons first counts ih =>
    have hquotient : p / (counts.prod * count) = p / count / counts.prod := by
      rw [Nat.mul_comm, Nat.div_div_eq_div_mul]
    have hprod : (counts ++ [count]).prod = counts.prod * count := by
      simp only [List.prod_append, List.prod_cons, List.prod_nil, Nat.mul_one]
    simp only [List.cons_append, digits, ih, hprod, hquotient]

/-- The digits go round after as many numbers as the product of the counts. -/
theorem digits_add_mul (counts : List Nat) (p k : Nat) :
    digits counts (p + k * counts.prod) = digits counts p := by
  induction counts generalizing k with
  | nil => rfl
  | cons count counts ih =>
    have hassoc : k * (count * counts.prod) = k * count * counts.prod := (Nat.mul_assoc _ _ _).symm
    have hfirst : (p + k * count * counts.prod) / counts.prod % count =
        p / counts.prod % count := by
      rcases Nat.eq_zero_or_pos counts.prod with hzero | hpos
      · simp [hzero]
      · rw [Nat.add_mul_div_right _ _ hpos, Nat.add_mul_mod_self_right]
    rw [List.prod_cons, hassoc, digits, digits, hfirst, ih]

/-- Each digit of a number below the product of the counts is below its count. -/
theorem digits_lt (h : p < counts.prod) : List.Forall₂ (· < ·) (digits counts p) counts := by
  induction counts generalizing p with
  | nil => exact .nil
  | cons count counts ih =>
    rw [List.prod_cons] at h
    have hcount : 0 < count := Nat.pos_of_mul_pos_right (Nat.zero_lt_of_lt h)
    have hprod : 0 < counts.prod := Nat.pos_of_mul_pos_left (Nat.zero_lt_of_lt h)
    have hrest : digits counts p = digits counts (p % counts.prod) := by
      have hsplit : p % counts.prod + p / counts.prod * counts.prod = p :=
        Nat.mod_add_div' p counts.prod
      rw [← digits_add_mul counts (p % counts.prod) (p / counts.prod), hsplit]
    rw [digits, hrest]
    exact .cons (Nat.mod_lt _ hcount) (ih (Nat.mod_lt _ hprod))

/-- Digits below their counts are those of exactly one number below the product of the counts. -/
theorem existsUnique_digits (h : List.Forall₂ (· < ·) places counts) :
    ∃! p, p < counts.prod ∧ digits counts p = places := by
  induction h with
  | nil =>
    refine ⟨0, ⟨by simp, rfl⟩, fun p hp => ?_⟩
    have hlt : p < 1 := by simpa using hp.1
    omega
  | @cons place count places counts hplace _ ih =>
    obtain ⟨low, ⟨hlow, hdigits⟩, hunique⟩ := ih
    have hprod : 0 < counts.prod := Nat.zero_lt_of_lt hlow
    refine ⟨low + place * counts.prod, ⟨?_, ?_⟩, fun p hp => ?_⟩
    · have hle : (place + 1) * counts.prod ≤ count * counts.prod := Nat.mul_le_mul_right _ hplace
      rw [Nat.add_mul, Nat.one_mul] at hle
      rw [List.prod_cons]
      omega
    · have hquotient : (low + place * counts.prod) / counts.prod = place := by
        rw [Nat.add_mul_div_right _ _ hprod, Nat.div_eq_of_lt hlow, Nat.zero_add]
      rw [digits, digits_add_mul, hdigits, hquotient, Nat.mod_eq_of_lt hplace]
    · obtain ⟨hlt, hp⟩ := hp
      obtain ⟨hfirst, hrest⟩ := List.cons.inj hp
      have hsplit : p % counts.prod + p / counts.prod * counts.prod = p :=
        Nat.mod_add_div' p counts.prod
      have hquotient : p / counts.prod = place := by
        have hbound : p / counts.prod < count := by
          rwa [Nat.div_lt_iff_lt_mul hprod, ← List.prod_cons]
        rwa [Nat.mod_eq_of_lt hbound] at hfirst
      have hremainder : p % counts.prod = low := by
        refine hunique _ ⟨Nat.mod_lt _ hprod, ?_⟩
        rw [← hrest, ← digits_add_mul counts (p % counts.prod) (p / counts.prod), hsplit]
      rw [← hremainder, ← hquotient, hsplit]

end Digits

section Combinations

variable {infos : List RoutingInfo} {info : RoutingInfo}

/-- Every item with every other one, the second varying fastest, numbered by quotient and
remainder. -/
theorem getElem?_flatMap_map {α β γ : Type} (xs : List α) (ys : List β)
    (f : α → β → γ) (p : Nat) :
    (xs.flatMap fun x => ys.map (f x))[p]? =
      xs[p / ys.length]?.bind fun x => ys[p % ys.length]?.map (f x) := by
  induction xs generalizing p with
  | nil => simp
  | cons x xs ih =>
    rw [List.flatMap_cons, List.getElem?_append, List.length_map]
    by_cases hp : p < ys.length
    · simp [hp, Nat.div_eq_of_lt hp, Nat.mod_eq_of_lt hp]
    · rw [if_neg hp, ih]
      rcases Nat.eq_zero_or_pos ys.length with hzero | hpos
      · simp [List.length_eq_zero_iff.1 hzero]
      · have hle : ys.length ≤ p := Nat.le_of_not_lt hp
        have hquotient : p / ys.length = (p - ys.length) / ys.length + 1 :=
          Nat.div_eq_sub_div hpos hle
        have hremainder : p % ys.length = (p - ys.length) % ys.length := Nat.mod_eq_sub_mod hle
        rw [hquotient, hremainder, List.getElem?_cons_succ]

/-- With one more key, every combination goes on with every variant of it. -/
theorem routingCombos_concat (infos : List RoutingInfo) (info : RoutingInfo) :
    routingCombos (infos ++ [info]) = extendCombos (routingCombos infos) info :=
  List.foldl_concat ..

/-- With one more key, there is one more count. -/
theorem variantCounts_concat (infos : List RoutingInfo) (info : RoutingInfo) :
    variantCounts (infos ++ [info]) = variantCounts infos ++ [info.variants.length] :=
  List.map_append ..

/-- With one more key, one more variant is picked. -/
theorem pick?_concat {places : List Nat} (h : places.length = infos.length) (i : Nat) :
    pick? (infos ++ [info]) (places ++ [i]) =
      (pick? infos places).bind fun combo => (info.choice? i).map fun choice =>
        combo ++ [choice] := by
  unfold pick?
  rw [List.zip_append h.symm, List.mapM_append]
  simp only [List.zip_cons_cons, List.zip_nil_right, List.mapM_cons, List.mapM_nil]
  cases (infos.zip places).mapM fun (info, i) => info.choice? i with
  | none => rfl
  | some combo => cases info.choice? i <;> rfl

/-- One more key multiplies the number of combinations by the number of its variants. -/
theorem length_extendCombos (combos : List (List RoutingChoice)) (info : RoutingInfo) :
    (extendCombos combos info).length = combos.length * info.variants.length := by
  simp [extendCombos, List.length_flatMap]

/-- There are as many combinations as the product of the counts. -/
theorem length_routingCombos (infos : List RoutingInfo) :
    (routingCombos infos).length = (variantCounts infos).prod := by
  induction infos using List.reverseRecOn with
  | nil => rfl
  | append_singleton infos info ih =>
    rw [routingCombos_concat, length_extendCombos, ih, variantCounts_concat]
    simp only [List.prod_append, List.prod_cons, List.prod_nil, Nat.mul_one]

/-- The combination at a position picks the variants at the places that the digits of the position
tell. -/
theorem getElem?_routingCombos {p : Nat} (h : p < (variantCounts infos).prod) :
    (routingCombos infos)[p]? = pick? infos (digits (variantCounts infos) p) := by
  induction infos using List.reverseRecOn generalizing p with
  | nil =>
    have hzero : p = 0 := by simpa [variantCounts] using h
    subst hzero
    rfl
  | append_singleton infos info ih =>
    have hprod : (variantCounts (infos ++ [info])).prod =
        (variantCounts infos).prod * info.variants.length := by
      rw [variantCounts_concat]
      simp only [List.prod_append, List.prod_cons, List.prod_nil, Nat.mul_one]
    rw [hprod] at h
    have hpos : 0 < info.variants.length := Nat.pos_of_mul_pos_left (Nat.zero_lt_of_lt h)
    have hquotient : p / info.variants.length < (variantCounts infos).prod :=
      (Nat.div_lt_iff_lt_mul hpos).2 h
    have hlength : (digits (variantCounts infos) (p / info.variants.length)).length =
        infos.length := by
      rw [length_digits, variantCounts, List.length_map]
    rw [routingCombos_concat, extendCombos, getElem?_flatMap_map, ih hquotient,
      variantCounts_concat, digits_concat, pick?_concat hlength]
    simp only [RoutingInfo.choice?, Option.map_map, Function.comp_def]

/-- The first combination picks the first variant of every key. -/
theorem head?_routingCombos (infos : List RoutingInfo) :
    (routingCombos infos).head? = infos.mapM fun info => info.choice? 0 := by
  induction infos using List.reverseRecOn with
  | nil => rfl
  | append_singleton infos info ih =>
    rw [List.head?_eq_getElem?] at ih
    rw [routingCombos_concat, extendCombos, List.head?_eq_getElem?, getElem?_flatMap_map,
      Nat.zero_div, Nat.zero_mod, ih, List.mapM_append]
    simp only [List.mapM_cons, List.mapM_nil]
    cases infos.mapM fun info => info.choice? 0 with
    | none => rfl
    | some combo => cases hfirst : info.variants[0]? <;> simp [RoutingInfo.choice?, hfirst]

/-- The combinations of a method are the ordered product of its variants: as many as the product of
the counts, each picking the variants at the digits of its position. Each choice of places is made
at exactly one position, and the first combination picks the most important variant of every key. -/
theorem Method.routingCombos_exact (method : Method) :
    method.routingCombos.length = (variantCounts method.routing).prod ∧
      (method.routing = [] → method.routingCombos.length = 1) ∧
      ((∃ info ∈ method.routing, info.variants = []) → method.routingCombos.length = 0) ∧
      (∀ p < (variantCounts method.routing).prod,
        List.Forall₂ (· < ·) (digits (variantCounts method.routing) p)
          (variantCounts method.routing) ∧
          ∃ combo, method.routingCombos[p]? = some combo ∧
            pick? method.routing (digits (variantCounts method.routing) p) = some combo) ∧
      (∀ places, List.Forall₂ (· < ·) places (variantCounts method.routing) →
        ∃! p, p < (variantCounts method.routing).prod ∧
          digits (variantCounts method.routing) p = places) ∧
      method.routingCombos.head? = method.routing.mapM fun info => info.choice? 0 := by
  have hlength : method.routingCombos.length = (variantCounts method.routing).prod :=
    length_routingCombos method.routing
  refine ⟨hlength, ?_, ?_, fun p hp => ?_, fun places => existsUnique_digits,
    head?_routingCombos method.routing⟩
  · intro hnone
    rw [Method.routingCombos, hnone]
    rfl
  · rintro ⟨info, hinfo, hempty⟩
    have hzero : 0 ∈ variantCounts method.routing :=
      List.mem_map.2 ⟨info, hinfo, by rw [hempty]; rfl⟩
    obtain ⟨before, after, hsplit⟩ := List.append_of_mem hzero
    rw [hlength, hsplit, List.prod_append, List.prod_cons, Nat.zero_mul, Nat.mul_zero]
  · have hsome : p < method.routingCombos.length := hlength ▸ hp
    have hget := List.getElem?_eq_getElem hsome
    exact ⟨digits_lt hp, _, hget, (getElem?_routingCombos hp).symm.trans hget⟩

/-- Three variants of one key and two of another have six combinations. The fifth, and no other one,
picks the last variant of the first key and the first of the second. -/
theorem Method.routingCombos_exact_six :
    ∃ method : Method, variantCounts method.routing = [3, 2] ∧
      method.routingCombos.length = 6 ∧
      (∃ combo, method.routingCombos[4]? = some combo ∧
        pick? method.routing [2, 0] = some combo) ∧
      ∃! p, p < 6 ∧ digits [3, 2] p = [2, 0] := by
  have hexact := Method.routingCombos_exact { routing :=
    [⟨"project", [⟨["name"], [], ["*"], []⟩, ⟨["parent"], [], ["*"], []⟩,
      ⟨["id"], [], ["**"], []⟩]⟩,
      ⟨"profile", [⟨["profile"], [], ["**"], []⟩, ⟨["name"], [], ["*"], ["**"]⟩]⟩] }
  obtain ⟨hlength, -, -, hposition, hplaces, -⟩ := hexact
  obtain ⟨-, combo, hget, hpick⟩ := hposition 4 (by decide)
  exact ⟨_, rfl, hlength, ⟨combo, hget, hpick⟩,
    hplaces [2, 0] (.cons (by decide) (.cons (by decide) .nil))⟩

end Combinations

end ApiModel
