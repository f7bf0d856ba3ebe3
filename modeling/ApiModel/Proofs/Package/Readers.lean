import ApiModel.Proofs.Descriptor.Correspondence
import ApiModel.Proofs.Descriptor.Nesting
import ApiModel.Proofs.Descriptor.Steps
import ApiModel.Proofs.Package.Documents

/-!
# Readers agree on one package

A set of files generates the files of the package of its last file, unless it is told which ones,
and what is nested is declared in the file of the message around it. So the model of a set agrees on
its package, as those of documents do. It is valid as it was read, and stays so whatever calls
follow; only naming the files to generate can lead to a mismatch.
-/

namespace ApiModel

open Model

variable {m k : Model}

namespace Descriptor

/-! ## The package of a set -/

/-- Without a list of files to include, all files to generate are in one package. -/
theorem FileSet.packageName_of_selects {set : FileSet} {file : File} (h : set.selects [] file) :
    file.packageName = set.packageName [] := by
  have hselects : ∀ other : File, set.selects [] other ↔
      ∃ last ∈ set.files.getLast?, last.packageName = other.packageName := by
    intro other
    rw [FileSet.selects_iff]
    simp
  obtain ⟨last, hlast, hpackage⟩ := (hselects file).1 h
  -- the last file is among those to generate, so there is a first
  have hmem : last ∈ set.files.filter (set.selects []) :=
    List.mem_filter.2 ⟨List.mem_of_getLast? hlast, (hselects last).2 ⟨last, hlast, rfl⟩⟩
  rw [FileSet.packageName]
  cases hfiles : set.files.filter (set.selects []) with
  | nil =>
    rw [hfiles] at hmem
    cases hmem
  | cons generated rest =>
    have hgenerated : generated ∈ set.files.filter (set.selects []) :=
      hfiles ▸ List.mem_cons_self
    obtain ⟨same, hsame, heq⟩ := (hselects generated).1 (List.mem_filter.1 hgenerated).2
    obtain rfl := Option.some.inj (hlast.symm.trans hsame)
    exact hpackage.symm.trans heq

/-- Reading a set keeps the package of the model. -/
theorem keptByReading_packageName (package : String) :
    KeptByReading fun m => m.packageName = package where
  message _ hm := hm
  enumeration _ hm := hm
  nested _ _ _ hm := hm
  marked _ hm := hm
  method _ hm := hm
  service _ hm := hm
  listed _ _ _ _ _ hm := hm

/-- The model of a set is in the package of the set. -/
theorem packageName_model {set : FileSet} {config : Option ServiceConfig} {included : List String}
    (h : set.model config included = .ok m) : m.packageName = set.packageName included := by
  have hempty : (identity (set.packageName included) config).packageName =
    set.packageName included := rfl
  obtain ⟨k, hk, hm⟩ := (keptByReading_packageName _).exists_model hempty h
  rw [hm, (registered_register k).packageName]
  exact hk

/-! ## The model of a set -/

/-- What stands at the top of files has a place among what is declared. -/
theorem exists_of_mem_findIdxs {α : Type} {selected : File → Bool}
    {ds : List (Declared α)} {i : Nat} (h : i ∈ ds.findIdxs (Declared.atTopOf selected)) :
    ∃ d, ds[i]? = some d ∧ selected d.file := by
  obtain ⟨hi, hat⟩ := List.mem_findIdxs_iff_exists_getElem_pos.1 h
  exact ⟨ds[i], List.getElem?_eq_getElem hi, (Bool.and_eq_true_iff.1 hat).2⟩

/-- A message that is found is made from the declaration at its place. -/
theorem MirrorsTypes.exists_message {selected : File → Bool} {ds : List (Declared Message)}
    {es : List (Declared Enumeration)} (h : MirrorsTypes selected ds es k) {r : MessageRef}
    {x : ApiModel.Message} (hx : messageArena.find? k r = some x) :
    ∃ d, ds[r.index]? = some d ∧ MessageYields d x :=
  exists_getElem?_of_forall₂ h.messages ((Array.getElem?_toList ..).trans hx)

/-- An enumeration that is found is made from the declaration at its place. -/
theorem MirrorsTypes.exists_enumeration {selected : File → Bool} {ds : List (Declared Message)}
    {es : List (Declared Enumeration)} (h : MirrorsTypes selected ds es k) {r : EnumRef}
    {x : ApiModel.Enumeration} (hx : enumArena.find? k r = some x) :
    ∃ d, es[r.index]? = some d ∧ EnumYields d x :=
  exists_getElem?_of_forall₂ h.enums ((Array.getElem?_toList ..).trans hx)

/-- What a message is made into is found at the position of its declaration. -/
theorem MirrorsTypes.exists_find?_message {selected : File → Bool} {ds : List (Declared Message)}
    {es : List (Declared Enumeration)} (h : MirrorsTypes selected ds es k) {i : Nat}
    {d : Declared Message} (hd : ds[i]? = some d) : ∃ x, messageArena.find? k ⟨i⟩ = some x ∧
    MessageYields d x := by
  obtain ⟨x, hx, hyields⟩ := exists_getElem?_of_forall₂ h.messages.flip hd
  exact ⟨x, (Array.getElem?_toList ..).symm.trans hx, hyields⟩

/-- What an enumeration is made into is found at the position of its declaration. -/
theorem MirrorsTypes.exists_find?_enumeration {selected : File → Bool}
    {ds : List (Declared Message)} {es : List (Declared Enumeration)}
    (h : MirrorsTypes selected ds es k) {i : Nat} {d : Declared Enumeration}
    (hd : es[i]? = some d) : ∃ x, enumArena.find? k ⟨i⟩ = some x ∧ EnumYields d x := by
  obtain ⟨x, hx, hyields⟩ := exists_getElem?_of_forall₂ h.enums.flip hd
  exact ⟨x, (Array.getElem?_toList ..).symm.trans hx, hyields⟩

/-- What corresponds to a set agrees on the package of the files to generate, if there is only
one. -/
theorem Corresponds.foundInPackage {set : FileSet} {selected : File → Bool}
    (h : Corresponds set selected k)
    (hone : ∀ file, selected file → file.packageName = k.packageName) : FoundInPackage k := by
  -- what is nested in the message of a declaration is declared in the file of that one
  have haround : ∀ {α : Type} {own : String} {d : Declared α} {p : Declared Message}
    {r : MessageRef},
      d.LiesIn set.preorder own → d.parent.map MessageRef.mk = some r →
        set.preorder[r.index]? = some p →
      d.file = p.file := by
    rintro α own d p r ⟨scope, hlevel, -⟩ hparent hp
    obtain ⟨j, hj, rfl⟩ := Option.map_eq_some_iff.1 hparent
    rw [hj] at hlevel
    obtain ⟨q, hq, hfile, -⟩ := hlevel.exists_getElem?
    obtain rfl := Option.some.inj (hq.symm.trans hp)
    exact hfile.symm
  constructor
  case services =>
    intro r hr x hx
    have hmem : x ∈ k.store.services.toList := Array.mem_toList_iff.2 (Array.mem_of_getElem? hx)
    obtain ⟨d, hd, hyields⟩ := Attempt.exists_mem_left h.services.services x hmem
    obtain ⟨file, hfile, hd⟩ := List.mem_flatMap.1 hd
    obtain ⟨service, -, rfl⟩ := List.mem_map.1 hd
    exact hyields.package.trans (hone file (List.mem_filter.1 hfile).2)
  case messages =>
    intro r hr x hx
    obtain ⟨d, hd, hyields⟩ := h.types.exists_message hx
    have hplace := h.types.ownMessages ▸ List.mem_map_of_mem (f := MessageRef.index) hr
    obtain ⟨own, hown, hselected⟩ := exists_of_mem_findIdxs hplace
    obtain rfl := Option.some.inj (hd.symm.trans hown)
    exact hyields.package.trans (hone _ hselected)
  case enums =>
    intro r hr x hx
    obtain ⟨d, hd, hyields⟩ := h.types.exists_enumeration hx
    have hplace := h.types.ownEnums ▸ List.mem_map_of_mem (f := EnumRef.index) hr
    obtain ⟨own, hown, hselected⟩ := exists_of_mem_findIdxs hplace
    obtain rfl := Option.some.inj (hd.symm.trans hown)
    exact hyields.package.trans (hone _ hselected)
  case nestedMessages =>
    intro r x hx c _ y hy hparent
    obtain ⟨p, hp, houter⟩ := h.types.exists_message hx
    obtain ⟨d, hd, hinner⟩ := h.types.exists_message hy
    have hfile := haround (set.nested_preorder.liesIn_of_mem (List.mem_of_getElem? hd))
      (hinner.parent.symm.trans hparent) hp
    rw [hinner.package, houter.package, hfile]
  case nestedEnums =>
    intro r x hx c _ y hy hparent
    obtain ⟨p, hp, houter⟩ := h.types.exists_message hx
    obtain ⟨d, hd, hinner⟩ := h.types.exists_enumeration hy
    have hfile := haround (FileSet.liesIn_preorder (List.mem_of_getElem? hd))
      (hinner.parent.symm.trans hparent) hp
    rw [hinner.package, houter.package, hfile]

/-- Without a list of files to include, the model of a set agrees on its package. -/
theorem inPackage_model {set : FileSet} {config : Option ServiceConfig}
    (h : set.model config [] = .ok m) : InPackage m := by
  have hsound : Sound m := (built_model h).toSound
  have hpackage := packageName_model h
  obtain ⟨k, hm, hcorresponds⟩ := corresponds_model h
  have hregistered : Registered k m := hm ▸ registered_register k
  refine hregistered.inPackage hsound (hcorresponds.foundInPackage fun file hselected => ?_)
  rw [FileSet.packageName_of_selects hselected, ← hpackage, hregistered.packageName]

end Descriptor

/-! ## Models that were read whole -/

namespace Model

/-- Whether a model was read from a document, or from a set of files without a list of files to
include. -/
inductive ReadWhole : Model → Prop
  /-- It was read from a discovery document. -/
  | discovery {d : Discovery.Document} {config : Option ServiceConfig} {m : Model}
    (h : d.model config = .ok m) : ReadWhole m
  /-- It was read from an interface description. -/
  | openApi {d : OpenApi.Document} {config : Option ServiceConfig} {m : Model}
    (h : d.model config = .ok m) : ReadWhole m
  /-- It was read from a descriptor set, and no files were named. -/
  | descriptor {set : Descriptor.FileSet} {config : Option ServiceConfig} {m : Model}
    (h : set.model config [] = .ok m) : ReadWhole m

/-- A model that was read whole agrees on its package. -/
theorem ReadWhole.inPackage (h : ReadWhole m) : InPackage m := by
  cases h with
  | discovery h => exact Discovery.inPackage_model h
  | openApi h => exact OpenApi.inPackage_model h
  | descriptor h => exact Descriptor.inPackage_model h

/-- Without a list of files to include, the reader of a configured format reads specifications
whole. -/
theorem readWhole_readSource {config : ModelConfig} {service : Option ServiceConfig}
    {contents : Bytes} (h : config.readSource service contents = .ok m)
    (hall : config.format = .protobuf →
      config.options.listOption SourceOptions.includeList = []) :
    ReadWhole m := by
  unfold ModelConfig.readSource at h
  split at h
  · unfold Discovery.readModel at h
    split at h
    · cases h
    · exact .discovery h
  · unfold OpenApi.readModel at h
    split at h
    · cases h
    · exact .openApi h
  · rename_i hformat
    rw [hall hformat] at h
    unfold Descriptor.readModel at h
    split at h
    · cases h
    · exact .descriptor h

/-- If a model that was read ends in a mismatch, a list named the files to include. -/
theorem named_of_mismatch {config : ModelConfig} {service : Option ServiceConfig} {contents : Bytes}
    (h : config.readSource service contents = .ok m) {kind : ElementKind}
    {id actual expected : String}
    (hfinish : config.finish service m = .error (.packageMismatch kind id actual expected)) :
    config.format = .protobuf ∧ config.options.listOption SourceOptions.includeList ≠ [] := by
  by_contra hnamed
  have hwhole := readWhole_readSource h fun hformat => by
    by_contra hlist
    exact hnamed ⟨hformat, hlist⟩
  exact hwhole.inPackage.finish_ne_mismatch config service kind id actual expected hfinish

/-- A model that was read whole is valid as it was read, and stays so after every sequence of calls,
also of failing ones; whatever the configuration, it does not end in a mismatch of packages. -/
theorem valid_calls_of_readWhole (h : ReadWhole m) :
    (∀ calls : List Call, (calls.foldl call m).validate = .ok ()) ∧
      ∀ (config : ModelConfig) (service : Option ServiceConfig) (kind : ElementKind)
        (id actual expected : String),
        config.finish service m ≠ .error (.packageMismatch kind id actual expected) :=
  ⟨fun calls => (h.inPackage.calls calls).validate, h.inPackage.finish_ne_mismatch⟩

/-- The shelves behind a file of another package, whose message is nested in nothing. -/
def lending : Descriptor.FileSet :=
  ⟨[{ name := some "reader.proto"
      package := some "people"
      messages := [.mk (some "Reader") [] [] [] none []] },
    shelves]⟩

/-- The model of the lending library is valid, also after calls, though one of its messages is of
another package. -/
theorem valid_calls_of_readWhole_lending :
    ∃ m, lending.model none [] = .ok m ∧ ReadWhole m ∧
      (∃ r ∈ m.externalMessages, (m.message r).package = "people") ∧
      (shelfCalls.foldl call m).validate = .ok () := by
  have hread : (lending.model none []).toOption.any (fun m =>
      (m.externalMessages.map fun r => (m.message r).package).contains "people") = true := by
    decide +kernel
  obtain ⟨m, hm, hcontains⟩ := Attempt.exists_ok_of_any hread
  have hwhole : ReadWhole m := .descriptor hm
  obtain ⟨r, hr, hpackage⟩ := List.mem_map.1 (List.contains_iff_mem.1 hcontains)
  exact ⟨m, hm, hwhole, ⟨r, hr, hpackage⟩, (valid_calls_of_readWhole hwhole).1 shelfCalls⟩

/-- If both files are named, the service of the second is a mismatch. -/
example : (lending.model none ["reader.proto", "shelves.proto"]).bind validate =
    .error (.packageMismatch .service ".lib.Library" "lib" "people") := by
  decide +kernel

end Model

end ApiModel
