import ApiModel.Proofs.Decoding
import ApiModel.Proofs.Discovery.Walk

/-!
# The order of what is read

The maps of a document that is read are in the order of their keys: its schemas, and at every level
of its resources the resources and the methods.
-/

namespace ApiModel.Discovery

open Json Decoder

/-- Whether the methods of a resource and what lies below it are in the order of their names. -/
structure Resource.InOrder (resource : Resource) : Prop where
  /-- The resources below it are in order, level by level. -/
  resources : Ordered resource.resources
  /-- Its methods ascend. -/
  methods : Index.Ascending resource.methods
  /-- So do those of every resource below it. -/
  inner : ∀ path inner, LiesAt resource.resources path inner → Index.Ascending inner.methods

/-- Whether the maps of a document are in the order of their keys. -/
structure Document.InOrder (d : Document) : Prop where
  /-- The schemas ascend. -/
  schemas : Index.Ascending d.schemas
  /-- The resources are in order, level by level. -/
  resources : Ordered d.resources
  /-- The methods of every resource ascend. -/
  methods : ∀ path resource, LiesAt d.resources path resource → Index.Ascending resource.methods

/-- Resources that ascend are in order if each is. -/
theorem ordered_of_forall {resources : List (String × Resource)}
    (hnames : Index.Ascending resources) (hinner : ∀ entry ∈ resources, entry.2.InOrder) :
    Ordered resources ∧
      ∀ path resource, LiesAt resources path resource → Index.Ascending resource.methods := by
  constructor
  · refine ⟨hnames, fun path resource hlies => ?_⟩
    cases hlies with
    | here h => exact (hinner _ h).resources.names
    | inside h hbelow => exact (hinner _ h).resources.inner _ _ hbelow
  · intro path resource hlies
    cases hlies with
    | here h => exact (hinner _ h).methods
    | inside h hbelow => exact (hinner _ h).inner _ _ hbelow

/-- A resource that is read is in order, however deep reading may go. -/
theorem inOrder_readWithin {fuel levels : Nat} {value : Value} {resource : Resource}
    (h : Resource.readWithin fuel levels value = some resource) : resource.InOrder := by
  induction fuel generalizing levels value resource with
  | zero => cases h
  | succ fuel ih =>
    obtain ⟨given, rest, h⟩ := of_record h
    obtain ⟨methods, hmethods, h⟩ := Option.bind_eq_some_iff.1 h
    obtain ⟨resources, hresources, h⟩ := Option.bind_eq_some_iff.1 h
    obtain rfl := Option.some.inj h
    obtain ⟨hnames, hread⟩ := ascending_memberOr hresources
    have hinner : ∀ entry ∈ resources, entry.2.InOrder := by
      intro entry hentry
      obtain ⟨levels, value, hvalue⟩ := hread entry hentry
      exact ih hvalue
    obtain ⟨hordered, hbelow⟩ := ordered_of_forall hnames hinner
    exact ⟨hordered, (ascending_memberOr hmethods).1, hbelow⟩

/-- A document that is read is in order. -/
theorem inOrder_read {levels : Nat} {value : Value} {d : Document}
    (h : Document.read levels value = some d) : d.InOrder := by
  obtain ⟨given, rest, h⟩ := of_record h
  obtain ⟨name, -, h⟩ := Option.bind_eq_some_iff.1 h
  obtain ⟨title, -, h⟩ := Option.bind_eq_some_iff.1 h
  obtain ⟨description, -, h⟩ := Option.bind_eq_some_iff.1 h
  obtain ⟨rootUrl, -, h⟩ := Option.bind_eq_some_iff.1 h
  obtain ⟨servicePath, -, h⟩ := Option.bind_eq_some_iff.1 h
  obtain ⟨schemas, hschemas, h⟩ := Option.bind_eq_some_iff.1 h
  obtain ⟨resources, hresources, h⟩ := Option.bind_eq_some_iff.1 h
  obtain ⟨methods, -, h⟩ := Option.bind_eq_some_iff.1 h
  obtain rfl := Option.some.inj h
  obtain ⟨hnames, hread⟩ := ascending_memberOr hresources
  have hinner : ∀ entry ∈ resources, entry.2.InOrder := by
    intro entry hentry
    obtain ⟨levels, value, hvalue⟩ := hread entry hentry
    exact inOrder_readWithin hvalue
  obtain ⟨hordered, hmethods⟩ := ordered_of_forall hnames hinner
  exact ⟨(ascending_memberOr hschemas).1, hordered, hmethods⟩

end ApiModel.Discovery
