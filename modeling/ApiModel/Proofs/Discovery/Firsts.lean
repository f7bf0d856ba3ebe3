import ApiModel.Proofs.Discovery.Walk
import Mathlib.Data.String.Basic
import Mathlib.Order.Defs.LinearOrder

/-!
# The first resources of their names

Of the resources with methods that have one name, the reader makes a service of the first one in the
walk. If the resources are in order, that is the one with the least path.
-/

namespace ApiModel.Discovery

/-- A place of a resource tree. -/
abbrev ResourcePlace := List String × Resource

/-- Whether a resource with methods stands at a place of a document. -/
def Document.Serves (d : Document) (place : ResourcePlace) : Prop :=
  LiesAt d.resources place.1 place.2 ∧ place.2.methods ≠ []

/-- Whether a place comes before all others of its name where resources with methods stand. -/
structure Document.ServesFirst (d : Document) (place : ResourcePlace) : Prop where
  /-- A resource with methods stands there. -/
  serves : d.Serves place
  /-- No other place of the name comes before it. -/
  least : ∀ other, d.Serves other → lastName other.1 = lastName place.1 → place.1 ≤ other.1

/-- Whether no earlier place has the name of a place. -/
def FirstAmong (places : List ResourcePlace) (seen : List String) (place : ResourcePlace) : Prop :=
  ∃ before after, places = before ++ place :: after ∧ lastName place.1 ∉ seen ∧
    ∀ other ∈ before, lastName other.1 ≠ lastName place.1

/-- What comes first behind a place whose name was seen is what comes first with it. -/
theorem firstAmong_cons {first place : ResourcePlace} {rest : List ResourcePlace}
    {seen : List String} :
    FirstAmong (first :: rest) seen place ↔
      (place = first ∧ lastName first.1 ∉ seen) ∨
      FirstAmong rest (lastName first.1 :: seen) place := by
  constructor
  · rintro ⟨before, after, hsplit, hseen, hbefore⟩
    cases before with
    | nil =>
      obtain rfl : first = place := (List.cons.inj hsplit).1
      exact .inl ⟨rfl, hseen⟩
    | cons other before =>
      obtain ⟨rfl, hrest⟩ := List.cons.inj hsplit
      obtain ⟨hfirst, hothers⟩ := List.forall_mem_cons.1 hbefore
      refine .inr ⟨before, after, hrest, fun hmem => ?_, hothers⟩
      rcases List.mem_cons.1 hmem with hsame | hmem
      · exact hfirst hsame.symm
      · exact hseen hmem
  · rintro (⟨rfl, hseen⟩ | ⟨before, after, hrest, hseen, hbefore⟩)
    · exact ⟨[], rest, rfl, hseen, fun other hother => absurd hother List.not_mem_nil⟩
    · refine ⟨first :: before, after, by rw [hrest, List.cons_append],
        fun hmem => hseen (List.mem_cons_of_mem _ hmem),
          List.forall_mem_cons.2 ⟨fun hsame => ?_, hbefore⟩⟩
      exact hseen (hsame ▸ List.mem_cons_self)

/-- Taking the first resource of each name takes the places of which no earlier one has the name, in
order. -/
theorem exists_firsts (places : List ResourcePlace) (seen : List String) :
    ∃ firsts : List ResourcePlace, firsts.Sublist places ∧
      firstOfEachName seen (places.map namedAt) = firsts.map namedAt ∧
      ∀ place, place ∈ firsts ↔ FirstAmong places seen place := by
  induction places generalizing seen with
  | nil =>
    refine ⟨[], .slnil, rfl, fun place => iff_of_false List.not_mem_nil ?_⟩
    rintro ⟨before, after, hsplit, -⟩
    exact absurd hsplit.symm (List.append_ne_nil_of_right_ne_nil _ (List.cons_ne_nil _ _))
  | cons first rest ih =>
    have hname : (namedAt first).name = lastName first.1 := rfl
    by_cases hseen : lastName first.1 ∈ seen
    · obtain ⟨firsts, hsub, htaken, hfirsts⟩ := ih seen
      refine ⟨firsts, hsub.cons first, ?_, fun place => ?_⟩
      · rw [List.map_cons, firstOfEachName, hname, if_pos (List.contains_iff_mem.2 hseen), htaken]
      · have hsame : lastName place.1 ∈ lastName first.1 :: seen ↔
            lastName place.1 ∈ seen := by
          simp only [List.mem_cons, or_iff_right_iff_imp]
          exact fun hname => hname ▸ hseen
        rw [hfirsts, firstAmong_cons]
        simp only [FirstAmong, hsame, hseen, not_true_eq_false, and_false, false_or]
    · obtain ⟨firsts, hsub, htaken, hfirsts⟩ := ih (lastName first.1 :: seen)
      refine ⟨first :: firsts, hsub.cons_cons first, ?_, fun place => ?_⟩
      · rw [List.map_cons, firstOfEachName, hname, if_neg fun h =>
          hseen (List.contains_iff_mem.1 h), htaken, List.map_cons]
      · rw [List.mem_cons, hfirsts, firstAmong_cons]
        simp [hseen]

/-! ## The places of a document -/

variable {d : Document}

/-- The places where resources with methods stand, in the order of the walk. -/
def Document.servingPlaces (d : Document) : List ResourcePlace :=
  (Resource.locatedAll d.resources).filter fun place => !place.2.methods.isEmpty

/-- Exactly the places where resources with methods stand are listed. -/
theorem Document.mem_servingPlaces {place : ResourcePlace} : place ∈ d.servingPlaces ↔
    d.Serves place := by
  simp [Document.servingPlaces, Document.Serves, mem_locatedAll]

/-- The reader takes the resources with methods from these places. -/
theorem Document.servingResources_eq (d : Document) :
    d.servingResources = d.servingPlaces.map namedAt := by
  rw [Document.servingResources, walkAll_eq, List.filter_map]
  rfl

/-- In the order of a document, what no earlier place has the name of is the first place of its
name. -/
theorem Document.firstAmong_iff (hordered : Ordered d.resources) {place : ResourcePlace} :
    FirstAmong d.servingPlaces [] place ↔ d.ServesFirst place := by
  have hascending : d.servingPlaces.Pairwise fun first second => first.1 < second.1 :=
    (List.pairwise_map.1 (ascending_locatedAll d.resources hordered)).filter _
  constructor
  · rintro ⟨before, after, hsplit, -, hbefore⟩
    have hmem : place ∈ d.servingPlaces := hsplit ▸ List.mem_append_right _ List.mem_cons_self
    refine ⟨d.mem_servingPlaces.1 hmem, fun other hother hname => ?_⟩
    have hother := d.mem_servingPlaces.2 hother
    rw [hsplit] at hother hascending
    rcases List.mem_append.1 hother with hother | hother
    · exact absurd hname (hbefore other hother)
    · rcases List.mem_cons.1 hother with rfl | hother
      · exact le_refl _
      · have hafter := (List.pairwise_append.1 hascending).2.1
        exact le_of_lt ((List.pairwise_cons.1 hafter).1 other hother)
  · rintro ⟨hserves, hleast⟩
    obtain ⟨before, after, hsplit⟩ := List.append_of_mem (d.mem_servingPlaces.2 hserves)
    refine ⟨before, after, hsplit, List.not_mem_nil, fun other hother hname => ?_⟩
    have hmem : other ∈ d.servingPlaces := hsplit ▸ List.mem_append_left _ hother
    have hle := hleast other (d.mem_servingPlaces.1 hmem) hname
    rw [hsplit] at hascending
    have hlt := (List.pairwise_append.1 hascending).2.2 other hother place List.mem_cons_self
    exact absurd hlt (not_lt_of_ge hle)

/-- The resources that services are made of are those at the first places of their names, in the
order of their paths. -/
theorem Document.exists_firstPlaces (hordered : Ordered d.resources) :
    ∃ places : List ResourcePlace, places.Pairwise (fun first second => first.1 < second.1) ∧
      (∀ place, place ∈ places ↔ d.ServesFirst place) ∧
      firstOfEachName [] d.servingResources = places.map namedAt := by
  obtain ⟨places, hsub, htaken, hplaces⟩ := exists_firsts d.servingPlaces []
  have hascending : d.servingPlaces.Pairwise fun first second => first.1 < second.1 :=
    (List.pairwise_map.1 (ascending_locatedAll d.resources hordered)).filter _
  refine ⟨places, hascending.sublist hsub, fun place => ?_, ?_⟩
  · rw [hplaces, d.firstAmong_iff hordered]
  · rw [d.servingResources_eq, htaken]

/-- Different first places of resources have different names. -/
theorem Document.nodup_firstPlaces {places : List ResourcePlace}
    (hascending : places.Pairwise fun first second => first.1 < second.1)
    (hplaces : ∀ place, place ∈ places ↔ d.ServesFirst place) :
    (places.map fun place => lastName place.1).Nodup := by
  refine List.pairwise_map.2
    (hascending.imp_of_mem fun {first second} hfirst hsecond hlt hname => ?_)
  have hfirst := (hplaces first).1 hfirst
  have hle := ((hplaces second).1 hsecond).least first hfirst.serves hname
  exact absurd hlt (not_lt_of_ge hle)

/-- Every name of a resource with methods has a first place. -/
theorem Document.exists_servesFirst (hordered : Ordered d.resources) {place : ResourcePlace}
    (h : d.Serves place) : ∃ first, d.ServesFirst first ∧
    lastName first.1 = lastName place.1 := by
  have hsome : (d.servingPlaces.find? fun other => lastName other.1 == lastName place.1).isSome :=
    List.find?_isSome.2 ⟨place, d.mem_servingPlaces.2 h, beq_self_eq_true _⟩
  obtain ⟨first, hfirst⟩ := Option.isSome_iff_exists.1 hsome
  obtain ⟨hname, before, after, hsplit, hbefore⟩ := List.find?_eq_some_iff_append.1 hfirst
  have hname : lastName first.1 = lastName place.1 := beq_iff_eq.1 hname
  refine ⟨first, (d.firstAmong_iff hordered).1 ⟨before, after, hsplit, List.not_mem_nil, ?_⟩,
    hname⟩
  intro other hother hsame
  have hother := hbefore other hother
  rw [hsame, hname] at hother
  simp at hother

end ApiModel.Discovery
