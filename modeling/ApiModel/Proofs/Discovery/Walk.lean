import ApiModel.Discovery.Build
import Mathlib.Data.List.Basic

/-!
# Where resources lie

A resource lies at the path of the names that lead to it. The walk of a resource tree lists every
place of the tree once, and if the resources at every level are in the order of their names, it
lists the paths in ascending order: a resource before those below it, and with all of them before
the next one.
-/

namespace ApiModel.Discovery

/-- Whether a resource lies at a path of names among resources and those below them. -/
inductive LiesAt : List (String × Resource) → List String → Resource → Prop
  /-- It is one of the resources. -/
  | here {resources : List (String × Resource)} {name : String} {resource : Resource}
    (h : (name, resource) ∈ resources) : LiesAt resources [name] resource
  /-- It lies below one of the resources. -/
  | inside {resources : List (String × Resource)} {name : String} {outer : Resource}
      {path : List String}
    {resource : Resource} (h : (name, outer) ∈ resources)
    (hbelow : LiesAt outer.resources path resource) :
    LiesAt resources (name :: path) resource

/-- The methods of a document: those outside every resource, and those of all resources at any
depth. -/
def Document.Offers (d : Document) (entry : String × Method) : Prop :=
  entry ∈ d.methods ∨ ∃ path resource, LiesAt d.resources path resource ∧
    entry ∈ resource.methods

mutual

/-- A resource of a name and those below it with their paths, in the order of the walk. -/
def Resource.located (name : String) : Resource → List (List String × Resource)
  | ⟨methods, resources⟩ =>
    ([name], ⟨methods, resources⟩) ::
      (Resource.locatedAll resources).map fun place => (name :: place.1, place.2)

/-- Resources and those below them with their paths, in the order of the walk. -/
def Resource.locatedAll : List (String × Resource) → List (List String × Resource)
  | [] => []
  | (name, resource) :: rest => resource.located name ++ Resource.locatedAll rest

end

/-- The last name of a path. -/
def lastName (path : List String) : String :=
  path.getLast?.getD ""

variable {resources : List (String × Resource)} {path : List String} {resource : Resource}

/-- Nothing lies among no resources. -/
theorem not_liesAt_nil : ¬LiesAt [] path resource := by
  intro h
  cases h with
  | here h => exact absurd h List.not_mem_nil
  | inside h _ => exact absurd h List.not_mem_nil

/-- What lies among resources is the first one, lies below it, or lies among the others. -/
theorem liesAt_cons {name : String} {first : Resource} {rest : List (String × Resource)} :
    LiesAt ((name, first) :: rest) path resource ↔
      (path = [name] ∧ resource = first) ∨
      (∃ inner, path = name :: inner ∧ LiesAt first.resources inner resource) ∨
      LiesAt rest path resource := by
  constructor
  · intro h
    cases h with
    | here h =>
      rcases List.mem_cons.1 h with hfirst | hrest
      · cases hfirst
        exact .inl ⟨rfl, rfl⟩
      · exact .inr (.inr (.here hrest))
    | inside h hbelow =>
      rcases List.mem_cons.1 h with hfirst | hrest
      · cases hfirst
        exact .inr (.inl ⟨_, rfl, hbelow⟩)
      · exact .inr (.inr (.inside hrest hbelow))
  · rintro (⟨rfl, rfl⟩ | ⟨inner, rfl, hbelow⟩ | hrest)
    · exact .here List.mem_cons_self
    · exact .inside List.mem_cons_self hbelow
    · cases hrest with
      | here h => exact .here (List.mem_cons_of_mem _ h)
      | inside h hbelow => exact .inside (List.mem_cons_of_mem _ h) hbelow

/-- Paths are not empty. -/
theorem LiesAt.ne_nil (h : LiesAt resources path resource) : path ≠ [] := by
  cases h with
  | here _ => exact List.cons_ne_nil _ _
  | inside _ _ => exact List.cons_ne_nil _ _

mutual

/-- What is listed for a resource is itself or lies below it. -/
theorem mem_located (name : String) (first : Resource) (place : List String × Resource) :
    place ∈ first.located name ↔ place = ([name], first) ∨
      ∃ inner, place.1 = name :: inner ∧ LiesAt first.resources inner place.2 := by
  match first with
  | ⟨methods, resources⟩ =>
    have hbelow : place ∈ (Resource.locatedAll resources).map
      (fun inner => (name :: inner.1, inner.2)) ↔
        ∃ inner, place.1 = name :: inner ∧ LiesAt resources inner place.2 := by
      constructor
      · intro h
        obtain ⟨inner, hinner, rfl⟩ := List.mem_map.1 h
        have hlies := (mem_locatedAll resources inner).1 hinner
        exact ⟨inner.1, rfl, hlies⟩
      · rintro ⟨inner, hpath, hlies⟩
        have hinner := (mem_locatedAll resources (inner, place.2)).2 hlies
        exact List.mem_map.2 ⟨(inner, place.2), hinner, Prod.ext hpath.symm rfl⟩
    rw [Resource.located, List.mem_cons, hbelow]

/-- What is listed for resources lies among them. -/
theorem mem_locatedAll (resources : List (String × Resource)) (place : List String × Resource) :
    place ∈ Resource.locatedAll resources ↔ LiesAt resources place.1 place.2 := by
  match resources with
  | [] => exact iff_of_false List.not_mem_nil not_liesAt_nil
  | (name, first) :: rest =>
    rw [Resource.locatedAll, List.mem_append, mem_located name first place,
      mem_locatedAll rest place, liesAt_cons, or_assoc, Prod.ext_iff]

end

/-! ## The walk -/

/-- The resource of the walk at a place. -/
def namedAt (place : List String × Resource) : NamedResource :=
  ⟨lastName place.1, place.2.methods⟩

/-- A further name before a path does not change its last name. -/
theorem lastName_cons {name : String} (h : path ≠ []) :
    lastName (name :: path) = lastName path := by
  obtain ⟨front, last, rfl⟩ := (List.eq_nil_or_concat' path).resolve_left h
  rw [lastName, lastName, ← List.cons_append, List.getLast?_concat, List.getLast?_concat]

mutual

/-- The walk of a resource goes through the places listed for it. -/
theorem walk_eq (name : String) (first : Resource) :
    first.walk name = (first.located name).map namedAt := by
  match first with
  | ⟨methods, resources⟩ =>
    rw [Resource.walk, Resource.located, List.map_cons, walkAll_eq resources, List.map_map]
    refine congrArg₂ List.cons rfl (List.map_congr_left fun place hplace => ?_)
    have hpath : place.1 ≠ [] := ((mem_locatedAll resources place).1 hplace).ne_nil
    rw [Function.comp_apply, namedAt, namedAt, lastName_cons hpath]

/-- The walk of resources goes through the places listed for them. -/
theorem walkAll_eq (resources : List (String × Resource)) :
    Resource.walkAll resources = (Resource.locatedAll resources).map namedAt := by
  match resources with
  | [] => rfl
  | (name, first) :: rest =>
    rw [Resource.walkAll, Resource.locatedAll, List.map_append, walk_eq name first,
      walkAll_eq rest]

end

/-! ## The order of the walk -/

/-- Whether the resources and all those below them are in the order of their names, level by
level. -/
structure Ordered (resources : List (String × Resource)) : Prop where
  /-- The names at the top ascend. -/
  names : Index.Ascending resources
  /-- So do the names directly below each resource. -/
  inner : ∀ path resource, LiesAt resources path resource → Index.Ascending resource.resources

/-- What is directly below a resource is in order. -/
theorem Ordered.inside (h : Ordered resources) {entry : String × Resource}
    (hentry : entry ∈ resources) :
    Ordered entry.2.resources :=
  ⟨h.inner _ _ (.here hentry), fun _ _ hbelow => h.inner _ _ (.inside hentry hbelow)⟩

/-- The resources behind the first are in order. -/
theorem Ordered.tail {entry : String × Resource} {rest : List (String × Resource)}
    (h : Ordered (entry :: rest)) : Ordered rest :=
  ⟨(List.pairwise_cons.1 h.names).2, fun path resource hrest =>
    h.inner path resource (liesAt_cons.2 (.inr (.inr hrest)))⟩

/-- A path begins with the name of one of the resources. -/
theorem LiesAt.exists_head (h : LiesAt resources path resource) :
    ∃ entry ∈ resources, ∃ inner, path = entry.1 :: inner := by
  cases h with
  | here h => exact ⟨_, h, [], rfl⟩
  | inside h _ => exact ⟨_, h, _, rfl⟩

mutual

/-- The paths listed for a resource ascend if all below it is in order. -/
theorem ascending_located (name : String) (first : Resource) (h : Ordered first.resources) :
    ((first.located name).map Prod.fst).Pairwise (· < ·) := by
  match first with
  | ⟨methods, resources⟩ =>
    rw [Resource.located, List.map_cons, List.map_map]
    have hbelow := ascending_locatedAll resources h
    refine List.pairwise_cons.2 ⟨fun path hpath => ?_, ?_⟩
    · obtain ⟨place, hplace, rfl⟩ := List.mem_map.1 hpath
      obtain ⟨c, inner, hinner⟩ :=
        List.exists_cons_of_ne_nil ((mem_locatedAll resources place).1 hplace).ne_nil
      rw [Function.comp_apply, hinner]
      exact List.cons_lt_cons_iff.2 (.inr ⟨rfl, List.nil_lt_cons c inner⟩)
    · rw [List.pairwise_map] at hbelow ⊢
      exact hbelow.imp fun hlt => List.cons_lt_cons_iff.2 (.inr ⟨rfl, hlt⟩)

/-- The paths listed for resources ascend if they and all below them are in order. -/
theorem ascending_locatedAll (resources : List (String × Resource)) (h : Ordered resources) :
    ((Resource.locatedAll resources).map Prod.fst).Pairwise (· < ·) := by
  match resources with
  | [] => exact List.Pairwise.nil
  | (name, first) :: rest =>
    rw [Resource.locatedAll, List.map_append]
    have hfirst := ascending_located name first (h.inside List.mem_cons_self)
    have hrest := ascending_locatedAll rest h.tail
    refine List.pairwise_append.2 ⟨hfirst, hrest, fun path hpath other hother => ?_⟩
    -- a path below the first begins with its name, and every other path with a later one
    obtain ⟨place, hplace, rfl⟩ := List.mem_map.1 hpath
    obtain ⟨later, hlater, rfl⟩ := List.mem_map.1 hother
    have hhead : ∃ inner, place.1 = name :: inner := by
      rcases (mem_located name first place).1 hplace with rfl | ⟨inner, hpath, -⟩
      · exact ⟨[], rfl⟩
      · exact ⟨inner, hpath⟩
    obtain ⟨inner, hinner⟩ := hhead
    obtain ⟨entry, hentry, last, hlast⟩ := ((mem_locatedAll rest later).1 hlater).exists_head
    have hlt : name < entry.1 := (List.pairwise_cons.1 h.names).1 entry hentry
    rw [hinner, hlast]
    exact List.cons_lt_cons_iff.2 (.inl hlt)

end

end ApiModel.Discovery
