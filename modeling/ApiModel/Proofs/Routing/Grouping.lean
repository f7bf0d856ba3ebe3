import Mathlib.Algebra.GroupWithZero.Nat
import ApiModel.Proofs.Attempt
import ApiModel.Proofs.First
import ApiModel.Routing

/-!
# Groups of routing parameters

A routing rule is read one parameter after the other, and each variant is put behind those of its
key. So at any time there is one group for each key that was seen, in the order in which the keys
appeared first, and it holds the variants of its key in the order of declaration. In the end every
group is turned round. A rule is read if and only if each of its parameters is, and else the first
parameter at fault is told.
-/

namespace ApiModel.Routing

/-- Whether a parameter can be read by itself. -/
def Parameter.Reads (p : Parameter) : Prop :=
  ∃ v, p.read = .ok v

/-- The variants of a key in the order of their declaration. -/
def variantsOf (key : String) (variants : List KeyedVariant) : List RoutingVariant :=
  (variants.filter fun v => v.key = key).map KeyedVariant.variant

/-- Whether the groups are those of the variants: one for each key, in the order of first
appearance, with the variants of the key arranged in some way. -/
structure Groups (arrange : List RoutingVariant → List RoutingVariant)
    (variants : List KeyedVariant) (infos : List RoutingInfo) : Prop where
  /-- The names of the groups are the keys. -/
  mem_names : ∀ key, key ∈ infos.map RoutingInfo.name ↔ key ∈ variants.map KeyedVariant.key
  /-- A group stands before another if its key appears earlier. -/
  order : (infos.map RoutingInfo.name).Pairwise fun earlier later =>
    (variants.map KeyedVariant.key).idxOf earlier < (variants.map KeyedVariant.key).idxOf later
  /-- A group has all variants of its key. -/
  variants : ∀ info ∈ infos, info.variants = arrange (variantsOf info.name variants)

section Place

variable {v : KeyedVariant} {infos : List RoutingInfo}

/-- A key that has a group keeps it, another one comes last. -/
theorem names_place (v : KeyedVariant) (infos : List RoutingInfo) :
    (place v infos).map RoutingInfo.name =
      if v.key ∈ infos.map RoutingInfo.name then infos.map RoutingInfo.name
      else infos.map RoutingInfo.name ++ [v.key] := by
  induction infos with
  | nil => rfl
  | cons info infos ih =>
    by_cases hkey : info.name = v.key
    · simp [place, hkey]
    · have hne : ¬ v.key = info.name := fun heq => hkey heq.symm
      simp only [place, if_neg hkey, List.map_cons, ih, List.mem_cons, hne, false_or]
      split <;> rfl

/-- Placing a variant adds one to the number of variants in all groups. -/
theorem sum_place (v : KeyedVariant) (infos : List RoutingInfo) :
    ((place v infos).map fun info => info.variants.length).sum =
      (infos.map fun info => info.variants.length).sum + 1 := by
  induction infos with
  | nil => rfl
  | cons info infos ih =>
    by_cases hkey : info.name = v.key
    · simp only [place, if_pos hkey, List.map_cons, List.sum_cons, List.length_append,
        List.length_singleton]
      omega
    · simp only [place, if_neg hkey, List.map_cons, List.sum_cons, ih]
      omega

/-- If a new variant is the last of its key and other keys have what they had, every group still has
what its key has. -/
theorem forall_place (old new : String → List RoutingVariant)
    (hkey : new v.key = old v.key ++ [v.variant])
    (hother : ∀ key, key ≠ v.key → new key = old key)
    (hempty : v.key ∉ infos.map RoutingInfo.name → old v.key = [])
    (hnodup : (infos.map RoutingInfo.name).Nodup)
    (h : ∀ info ∈ infos, info.variants = old info.name) :
    ∀ info ∈ place v infos, info.variants = new info.name := by
  induction infos with
  | nil =>
    have hnew : new v.key = [v.variant] := by rw [hkey, hempty List.not_mem_nil, List.nil_append]
    simpa [place] using hnew.symm
  | cons first infos ih =>
    obtain ⟨hfirst, hrest⟩ := List.forall_mem_cons.1 h
    rw [List.map_cons, List.nodup_cons] at hnodup
    by_cases hname : first.name = v.key
    · -- the group of the key is found, and it is the only one
      have hothers : ∀ info ∈ infos, info.variants = new info.name := by
        intro info hinfo
        have hne : info.name ≠ v.key := by
          intro heq
          exact hnodup.1 (hname.trans heq.symm ▸ List.mem_map_of_mem hinfo)
        rw [hother info.name hne, hrest info hinfo]
      have hfound : first.variants ++ [v.variant] = new first.name := by
        rw [hname, hkey, hfirst, hname]
      rw [place, if_pos hname]
      exact List.forall_mem_cons.2 ⟨hfound, hothers⟩
    · have hne : ¬ v.key = first.name := fun heq => hname heq.symm
      have hlater : v.key ∉ infos.map RoutingInfo.name → old v.key = [] := by
        intro hnot
        exact hempty
          (by simp only [List.map_cons, List.mem_cons, hne, hnot, or_self, not_false_eq_true])
      have hkept : first.variants = new first.name := by rw [hother first.name hname, hfirst]
      rw [place, if_neg hname]
      exact List.forall_mem_cons.2 ⟨hkept, ih hlater hnodup.2 hrest⟩

end Place

section Groups

variable {arrange : List RoutingVariant → List RoutingVariant} {variants : List KeyedVariant}
  {infos : List RoutingInfo} {v : KeyedVariant}

/-- Groups that stand in an order have names that differ. -/
theorem Groups.nodup_names (h : Groups arrange variants infos) :
    (infos.map RoutingInfo.name).Nodup := by
  refine h.order.imp fun hlt heq => ?_
  rw [heq] at hlt
  exact Nat.lt_irrefl _ hlt

/-- One more variant belongs to its key and to no other. -/
theorem variantsOf_concat (key : String) (variants : List KeyedVariant) (v : KeyedVariant) :
    variantsOf key (variants ++ [v]) =
      variantsOf key variants ++ (if v.key = key then [v.variant] else []) := by
  unfold variantsOf
  rw [List.filter_append, List.map_append]
  by_cases hkey : v.key = key <;> simp [hkey]

/-- A key has variants if and only if it is the key of one. -/
theorem variantsOf_eq_nil_iff {key : String} :
    variantsOf key variants = [] ↔ key ∉ variants.map KeyedVariant.key := by
  simp [variantsOf]

/-- One more key changes nothing in the order of names that are keys already. -/
theorem pairwise_idxOf_concat {keys names : List String} (key : String) (hnames : names ⊆ keys)
    (h : names.Pairwise fun earlier later => keys.idxOf earlier < keys.idxOf later) :
    names.Pairwise fun earlier later => (keys ++ [key]).idxOf earlier <
      (keys ++ [key]).idxOf later := by
  refine h.imp_of_mem fun hearlier hlater hlt => ?_
  rwa [List.idxOf_append_of_mem (hnames hearlier), List.idxOf_append_of_mem (hnames hlater)]

/-- A name that is a new key comes behind all others. -/
theorem pairwise_idxOf_concat_concat {keys names : List String} {key : String}
    (hnames : names ⊆ keys) (hnew : key ∉ keys)
    (h : names.Pairwise fun earlier later => keys.idxOf earlier < keys.idxOf later) :
    (names ++ [key]).Pairwise fun earlier later =>
      (keys ++ [key]).idxOf earlier < (keys ++ [key]).idxOf later := by
  refine List.pairwise_append.2
    ⟨pairwise_idxOf_concat key hnames h, List.pairwise_singleton _ _,
      fun name hname last hlast => ?_⟩
  obtain rfl := List.mem_singleton.1 hlast
  have hlt : keys.idxOf name < keys.length := List.idxOf_lt_length_of_mem (hnames hname)
  rw [List.idxOf_append_of_mem (hnames hname), List.idxOf_append_of_notMem hnew]
  omega

/-- Putting a variant in keeps one group for each key, in the order of first appearance, with the
variants in the order of declaration. -/
theorem Groups.place (h : Groups id variants infos) :
    Groups id (variants ++ [v]) (place v infos) := by
  have hkeys : (variants ++ [v]).map KeyedVariant.key = variants.map KeyedVariant.key ++
      [v.key] := by
    rw [List.map_append, List.map_singleton]
  have hsubset : infos.map RoutingInfo.name ⊆ variants.map KeyedVariant.key :=
    fun name => (h.mem_names name).1
  have hseen : v.key ∈ infos.map RoutingInfo.name ↔ v.key ∈ variants.map KeyedVariant.key :=
    h.mem_names v.key
  refine ⟨fun key => ?_, ?_, ?_⟩
  · rw [names_place, hkeys, List.mem_append, List.mem_singleton, ← h.mem_names key]
    split
    · next hold =>
      constructor
      · exact Or.inl
      · rintro (hkey | rfl)
        · exact hkey
        · exact hold
    · rw [List.mem_append, List.mem_singleton]
  · rw [names_place, hkeys]
    split
    · exact pairwise_idxOf_concat v.key hsubset h.order
    · next hnew =>
      exact pairwise_idxOf_concat_concat hsubset (fun hmem => hnew (hseen.2 hmem)) h.order
  · refine forall_place (fun key => variantsOf key variants)
      (fun key => variantsOf key (variants ++ [v]))
      ?_ ?_ ?_ h.nodup_names h.variants
    · simp [variantsOf_concat]
    · intro key hne
      have hne' : ¬ v.key = key := fun heq => hne heq.symm
      simp [variantsOf_concat, hne']
    · intro hnew
      exact variantsOf_eq_nil_iff.2 fun hmem => hnew (hseen.2 hmem)

/-- Putting variants in one after the other keeps the groups. -/
theorem Groups.foldl_place (h : Groups id variants infos) (more : List KeyedVariant) :
    Groups id (variants ++ more) (more.foldl (fun infos v => Routing.place v infos) infos) := by
  induction more generalizing variants infos with
  | nil => simpa using h
  | cons v more ih =>
    have hrest := ih (h.place (v := v))
    rwa [List.append_assoc, List.singleton_append] at hrest

/-- Placing variants adds as many to the groups as there are. -/
theorem sum_foldl_place (more : List KeyedVariant) (infos : List RoutingInfo) :
    ((more.foldl (fun infos v => place v infos) infos).map fun info => info.variants.length).sum =
      (infos.map fun info => info.variants.length).sum + more.length := by
  induction more generalizing infos with
  | nil => rfl
  | cons v more ih =>
    rw [List.foldl_cons, ih, sum_place, List.length_cons]
    omega

/-- Groups whose variants are turned round are arranged the other way. -/
theorem Groups.lastFirst (h : Groups id variants infos) :
    Groups List.reverse variants (infos.map Routing.lastFirst) := by
  have hnames : (infos.map Routing.lastFirst).map RoutingInfo.name =
      infos.map RoutingInfo.name := by
    rw [List.map_map]
    rfl
  refine ⟨fun key => ?_, ?_, ?_⟩
  · rw [hnames]
    exact h.mem_names key
  · rw [hnames]
    exact h.order
  · intro info hinfo
    obtain ⟨old, hold, rfl⟩ := List.mem_map.1 hinfo
    exact congrArg List.reverse (h.variants old hold)

/-- Every variant is in the group of its key. -/
theorem Groups.exists_mem_variants (h : Groups List.reverse variants infos) (hv : v ∈ variants) :
    ∃ info ∈ infos, info.name = v.key ∧ v.variant ∈ info.variants := by
  have hname : v.key ∈ infos.map RoutingInfo.name :=
    (h.mem_names v.key).2 (List.mem_map_of_mem hv)
  obtain ⟨info, hinfo, hkey⟩ := List.mem_map.1 hname
  have hmem : v.variant ∈ variantsOf v.key variants :=
    List.mem_map_of_mem (List.mem_filter.2 ⟨hv, decide_eq_true rfl⟩)
  refine ⟨info, hinfo, hkey, ?_⟩
  rw [h.variants info hinfo, hkey, List.mem_reverse]
  exact hmem

/-- Every group has a variant. -/
theorem Groups.variants_ne_nil (h : Groups List.reverse variants infos) :
    ∀ info ∈ infos, info.variants ≠ [] := by
  intro info hinfo hnil
  rw [h.variants info hinfo, List.reverse_eq_nil_iff] at hnil
  exact variantsOf_eq_nil_iff.1 hnil ((h.mem_names info.name).1 (List.mem_map_of_mem hinfo))

end Groups

section Reading

variable {parameters : List Parameter} {infos out : List RoutingInfo} {e : Error}

/-- Parameters are read if and only if each of them is, and the variants are put in one after the
other. -/
theorem foldlM_readInto_eq_ok :
    parameters.foldlM readInto infos = .ok out ↔ ∃ variants,
      List.Forall₂ (fun p v => p.read = .ok v) parameters variants ∧
        variants.foldl (fun infos v => place v infos) infos = out := by
  induction parameters generalizing infos with
  | nil =>
    constructor
    · intro h
      exact ⟨[], .nil, Except.ok.inj h⟩
    · rintro ⟨variants, hread, rfl⟩
      rw [List.forall₂_nil_left_iff.1 hread]
      rfl
  | cons p parameters ih =>
    rw [List.foldlM_cons, Attempt.bind_eq_ok]
    constructor
    · rintro ⟨next, hstep, hrest⟩
      obtain ⟨v, hv, rfl⟩ := Attempt.map_eq_ok.1 hstep
      obtain ⟨variants, hread, hout⟩ := ih.1 hrest
      exact ⟨v :: variants, .cons hv hread, hout⟩
    · rintro ⟨variants, hread, hout⟩
      obtain ⟨v, rest, hv, hrest, rfl⟩ := List.forall₂_cons_left_iff.1 hread
      exact ⟨place v infos, Attempt.map_eq_ok.2 ⟨v, hv, rfl⟩, ih.2 ⟨rest, hrest, hout⟩⟩

/-- If parameters are not read, the first that is not is told. -/
theorem foldlM_readInto_eq_error :
    parameters.foldlM readInto infos = .error e ↔
      ∃ p, First (fun p => ¬ p.Reads) parameters p ∧ p.read = .error e := by
  induction parameters generalizing infos with
  | nil =>
    constructor
    · intro h
      cases h
    · rintro ⟨p, hfirst, -⟩
      exact absurd hfirst.mem List.not_mem_nil
  | cons p parameters ih =>
    rw [List.foldlM_cons, Attempt.bind_eq_error]
    simp only [First.cons_iff, not_not]
    constructor
    · rintro (hstep | ⟨next, hstep, hrest⟩)
      · have hread : p.read = .error e := Attempt.map_eq_error.1 hstep
        have hfails : ¬ p.Reads := by
          rintro ⟨v, hv⟩
          rw [hread] at hv
          cases hv
        exact ⟨p, .inl ⟨rfl, hfails⟩, hread⟩
      · obtain ⟨v, hv, -⟩ := Attempt.map_eq_ok.1 hstep
        obtain ⟨q, hfirst, hq⟩ := ih.1 hrest
        exact ⟨q, .inr ⟨⟨v, hv⟩, hfirst⟩, hq⟩
    · rintro ⟨q, ⟨rfl, -⟩ | ⟨⟨v, hv⟩, hfirst⟩, hq⟩
      · exact .inl (Attempt.map_eq_error.2 hq)
      · exact .inr ⟨place v infos, Attempt.map_eq_ok.2 ⟨v, hv, rfl⟩,
          ih.2 ⟨q, hfirst, hq⟩⟩

/-- What is read from a rule are the groups of the variants of its parameters, and no variant is
lost. -/
theorem groups_of_readRule (h : readRule parameters = .ok infos) :
    ∃ variants, List.Forall₂ (fun p v => p.read = .ok v) parameters variants ∧
      Groups List.reverse variants infos ∧
      (infos.map fun info => info.variants.length).sum = parameters.length := by
  obtain ⟨gathered, hgathered, rfl⟩ := Attempt.map_eq_ok.1 h
  obtain ⟨variants, hread, rfl⟩ := foldlM_readInto_eq_ok.1 hgathered
  have hnil : Groups id [] [] := ⟨by simp, .nil, by simp⟩
  have hgroups := (hnil.foldl_place variants).lastFirst
  have hsum : ((variants.foldl (fun infos v => place v infos) []).map fun info =>
      info.variants.length).sum = variants.length := by
    simpa using sum_foldl_place variants []
  refine ⟨variants, hread, hgroups, ?_⟩
  rw [hread.length_eq, ← hsum, List.map_map]
  simp [Function.comp_def, lastFirst]

/-- A rule is read if and only if each of its parameters is. -/
theorem exists_readRule_iff :
    (∃ infos, readRule parameters = .ok infos) ↔ ∀ p ∈ parameters, p.Reads := by
  have hall : (∃ variants, List.Forall₂ (fun p v => p.read = .ok v) parameters variants) ↔
      ∀ p ∈ parameters, p.Reads := Attempt.exists_forall₂_iff
  rw [← hall]
  constructor
  · rintro ⟨infos, h⟩
    obtain ⟨variants, hread, -⟩ := groups_of_readRule h
    exact ⟨variants, hread⟩
  · rintro ⟨variants, hread⟩
    have hgathered : parameters.foldlM readInto [] =
        .ok (variants.foldl (fun infos v => place v infos) []) :=
      foldlM_readInto_eq_ok.2 ⟨variants, hread, rfl⟩
    exact ⟨_, Attempt.map_eq_ok.2 ⟨_, hgathered, rfl⟩⟩

/-- A rule is read if and only if each parameter is, and else the first one at fault is told. What
is read are groups with names that differ, in the order of first appearance, each with the variants
of its key in the reverse order of declaration; no group is empty, and together they have as many
variants as there are parameters. -/
theorem readRule_exact (parameters : List Parameter) :
    ((∃ infos, readRule parameters = .ok infos) ↔ ∀ p ∈ parameters, p.Reads) ∧
      (∀ e, readRule parameters = .error e ↔
        ∃ p, First (fun p => ¬ p.Reads) parameters p ∧ p.read = .error e) ∧
      ∀ infos, readRule parameters = .ok infos → ∃ variants,
        List.Forall₂ (fun p v => p.read = .ok v) parameters variants ∧
          (infos.map RoutingInfo.name).Nodup ∧ Groups List.reverse variants infos ∧
          (infos.map fun info => info.variants.length).sum = parameters.length ∧
          ∀ info ∈ infos, info.variants ≠ [] := by
  refine ⟨exists_readRule_iff, fun e => ?_, fun infos h => ?_⟩
  · rw [readRule, Attempt.map_eq_error, foldlM_readInto_eq_error]
  · obtain ⟨variants, hread, hgroups, hsum⟩ := groups_of_readRule h
    exact ⟨variants, hread, hgroups.nodup_names, hgroups, hsum, hgroups.variants_ne_nil⟩

/-- The four parameters of the tables are grouped under their two keys. -/
theorem readRule_exact_tables :
    ∃ infos, readRule [⟨"name", "\x7brouting_id=projects/*\x7d/**"⟩,
      ⟨"app_profile_id", ""⟩, ⟨"name", "\x7brouting_id=projects/*/instances/*\x7d/**"⟩,
      ⟨"parent.name", "\x7brouting_id\x7d"⟩] = .ok infos ∧
      infos.map RoutingInfo.name = ["routing_id", "app_profile_id"] ∧
      (infos.map fun info => info.variants.length).sum = 4 ∧
      ∀ info ∈ infos, info.variants ≠ [] := by
  have hread :
    readRule [⟨"name", "\x7brouting_id=projects/*\x7d/**"⟩, ⟨"app_profile_id", ""⟩,
      ⟨"name", "\x7brouting_id=projects/*/instances/*\x7d/**"⟩,
        ⟨"parent.name", "\x7brouting_id\x7d"⟩] =
      .ok [⟨"routing_id", [⟨["parent", "name"], [], ["*"], []⟩,
        ⟨["name"], [], ["projects", "*", "instances", "*"], ["**"]⟩,
          ⟨["name"], [], ["projects", "*"], ["**"]⟩]⟩,
        ⟨"app_profile_id", [⟨["app_profile_id"], [], ["**"], []⟩]⟩] := by
    decide +kernel
  obtain ⟨-, -, -, -, hsum, hvariants⟩ := (readRule_exact _).2.2 _ hread
  exact ⟨_, hread, rfl, hsum, hvariants⟩

end Reading

end ApiModel.Routing
