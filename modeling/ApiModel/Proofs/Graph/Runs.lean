import ApiModel.Creation
import ApiModel.Proofs.Graph.Descriptions
import ApiModel.Proofs.Graph.DescriptorSets
import ApiModel.Proofs.Graph.Ownership

/-!
# Runs

Every model that is read from a specification is well-formed: all that it refers to exists,
ownership is a forest, and what is owned knows its owner. It stays so however often it is then
assembled, reduced and documented, also by calls that fail, and from the first assembly on listed
methods know their services.
-/

namespace ApiModel.Model

variable {before : Nat → Nat → Prop} {m other : Model} {rank : MessageRef → Nat}

/-! ## Models that were read -/

/-- Whether a model was read from a specification. -/
inductive Parsed : Model → Prop
  /-- It was read from a discovery document. -/
  | discovery {d : Discovery.Document} {config : Option ServiceConfig} {m : Model}
    (h : d.model config = .ok m) : Parsed m
  /-- It was read from an interface description. -/
  | openApi {d : OpenApi.Document} {config : Option ServiceConfig} {m : Model}
    (h : d.model config = .ok m) : Parsed m
  /-- It was read from a descriptor set. -/
  | descriptor {set : Descriptor.FileSet} {config : Option ServiceConfig} {included : List String}
    {m : Model} (h : set.model config included = .ok m) : Parsed m

/-- What the reader of a configured format gives was read from a specification. -/
theorem parsed_readSource {config : ModelConfig} {service : Option ServiceConfig} {contents : Bytes}
    (h : config.readSource service contents = .ok m) : Parsed m := by
  unfold ModelConfig.readSource at h
  split at h
  · unfold Discovery.readModel at h
    split at h
    · cases h
    · exact .discovery h
  · unfold OpenApi.readModel at h
    split at h
    · cases h
    · exact .openApi h
  · unfold Descriptor.readModel at h
    split at h
    · cases h
    · exact .descriptor h

/-- A message in which another is nested is found. -/
theorem find?_of_mem_messages {r c : MessageRef} (hc : c ∈ (m.message r).messages) :
    messageArena.find? m r = some (m.message r) := by
  by_cases hr : messageArena.Holds m r
  · exact messageArena.find?_of_holds hr
  · change c ∈ (messageArena.get m r).messages at hc
    rw [messageArena.get_of_not_holds hr] at hc
    exact absurd hc List.not_mem_nil

/-- A message in which an enumeration is nested is found. -/
theorem find?_of_mem_enums {r : MessageRef} {c : EnumRef} (hc : c ∈ (m.message r).enums) :
    messageArena.find? m r = some (m.message r) := by
  by_cases hr : messageArena.Holds m r
  · exact messageArena.find?_of_holds hr
  · change c ∈ (messageArena.get m r).enums at hc
    rw [messageArena.get_of_not_holds hr] at hc
    exact absurd hc List.not_mem_nil

/-- Messages that are nested in later places have ranks within the store. -/
theorem Built.exists_rank_of_lt (h : Built (· < ·) m) :
    ∃ rank, Ranked rank m ∧ ∀ r, messageArena.Holds m r →
    rank r < m.store.messages.size := by
  refine ⟨fun r => m.store.messages.size - 1 - r.index, fun r c hc => ?_, fun r hr => ?_⟩
  · have hfind := find?_of_mem_messages hc
    have horder := h.order r _ hfind c hc
    obtain ⟨n, hslot⟩ := (h.message r _ hfind).messages c hc
    have hheld : c.index < m.store.messages.size := hasMessage_iff_holds.1 ⟨_, hslot⟩
    beta_reduce
    omega
  · have hheld : r.index < m.store.messages.size := hr
    beta_reduce
    omega

/-- Messages that are nested in earlier places have ranks within the store. -/
theorem Built.exists_rank_of_gt (h : Built (fun parent child => child < parent) m) :
    ∃ rank, Ranked rank m ∧ ∀ r, messageArena.Holds m r → rank r < m.store.messages.size :=
  ⟨MessageRef.index, fun r c hc => h.order r _ (find?_of_mem_messages hc) c hc, fun _ hr => hr⟩

/-- A model that was read is sound and fresh, and its messages have ranks within the store. -/
theorem Parsed.built (h : Parsed m) :
    (∃ before, Built before m) ∧
      ∃ rank, Ranked rank m ∧ ∀ r, messageArena.Holds m r →
      rank r < m.store.messages.size := by
  cases h with
  | discovery h =>
    have hbuilt : Built (· < ·) m := Discovery.built_model h
    exact ⟨⟨_, hbuilt⟩, hbuilt.exists_rank_of_lt⟩
  | openApi h =>
    have hbuilt := OpenApi.built_model h
    exact ⟨⟨_, hbuilt⟩, hbuilt.exists_rank_of_gt⟩
  | descriptor h =>
    have hbuilt := Descriptor.built_model h
    exact ⟨⟨_, hbuilt⟩, hbuilt.exists_rank_of_lt⟩

/-! ## Calls -/

/-- A call that changes a model. -/
inductive Call where
  /-- Assembles it. -/
  | crossReference
  /-- Skips what the options of the source do not select. -/
  | skip (options : SourceOptions)
  /-- Applies the rules of a service configuration to its documentation. -/
  | applyRules (config : ServiceConfig)
  /-- Overrides its documentation. -/
  | patch (overrides : List DocumentationOverride)

/-- The model after a call, as far as that got. -/
def call (m : Model) : Call → Model
  | .crossReference => m.crossReference.model
  | .skip options =>
    match m.skipElements options with
    | .ok other => other
    | .error _ => m
  | .applyRules config => m.applyRules config
  | .patch overrides => (m.patchAll overrides).model

/-- Whether all that a model refers to exists, and ownership is a forest. -/
structure WellFormed (m : Model) : Prop extends Sound m, Forest m

/-- Skipping that fails leaves the model as it is. -/
theorem call_skip (m : Model) (options : SourceOptions) :
    m.skipElements options = .ok (m.call (.skip options)) ∨ m.call (.skip options) = m := by
  cases hskip : m.skipElements options with
  | ok other =>
    left
    simp only [call, hskip]
  | error e =>
    right
    simp only [call, hskip]

/-- Every call keeps a model sound. -/
theorem Sound.call (h : Sound m) (c : Call) : Sound (m.call c) := by
  cases c with
  | crossReference => exact h.crossReference
  | skip options =>
    rcases call_skip m options with hskip | hskip
    · exact h.skipElements hskip
    · rw [hskip]
      exact h
  | applyRules config => exact h.applyRules config
  | patch overrides => exact h.patchAll overrides

/-- Every call keeps the ranks. -/
theorem Ranked.call (h : Ranked rank m) (c : Call) : Ranked rank (m.call c) := by
  cases c with
  | crossReference => exact h.crossReference
  | skip options =>
    rcases call_skip m options with hskip | hskip
    · exact h.skipElements hskip
    · rw [hskip]
      exact h
  | applyRules config => exact h.of_sameListing (sameButTexts_applyRules m config).toSameListing
  | patch overrides => exact h.of_sameListing (sameButTexts_patchAll m overrides).toSameListing

/-- No call forgets the services of methods. -/
theorem Owned.call (h : Owned m) (hsound : Sound m) (c : Call) : Owned (m.call c) := by
  cases c with
  | crossReference => exact .crossReference hsound
  | skip options =>
    rcases call_skip m options with hskip | hskip
    · exact h.skipElements hsound hskip
    · rw [hskip]
      exact h
  | applyRules config => exact h.of_sameButTexts (sameButTexts_applyRules m config)
  | patch overrides => exact h.of_sameButTexts (sameButTexts_patchAll m overrides)

/-! ## Sequences of calls -/

/-- Every sequence of calls keeps a model sound and its ranks. -/
theorem sound_calls (h : Sound m) (hrank : Ranked rank m) (calls : List Call) :
    Sound (calls.foldl call m) ∧ Ranked rank (calls.foldl call m) := by
  induction calls generalizing m with
  | nil => exact ⟨h, hrank⟩
  | cons c rest ih => exact ih (h.call c) (hrank.call c)

/-- Methods know their services from the first assembly on. -/
theorem owned_calls (h : Sound m) {calls : List Call}
    (hassembled : Owned m ∨ Call.crossReference ∈ calls) :
    Owned (calls.foldl call m) := by
  induction calls generalizing m with
  | nil => exact hassembled.resolve_right List.not_mem_nil
  | cons c rest ih =>
    refine ih (h.call c) ?_
    rcases hassembled with howned | hmem
    · exact .inl (howned.call h c)
    · rcases List.mem_cons.1 hmem with rfl | hmem
      · exact .inl (.crossReference h)
      · exact .inr hmem

/-- A model that was read from a specification is well-formed after every sequence of calls, also of
failing ones, and its methods know their services from the first assembly on. -/
theorem wellFormed_calls (h : Parsed m) (calls : List Call) :
    WellFormed (calls.foldl call m) ∧
      (Call.crossReference ∈ calls → Owned (calls.foldl call m)) := by
  obtain ⟨⟨before, hbuilt⟩, rank, hrank, -⟩ := h.built
  obtain ⟨hsound, hlast⟩ := sound_calls hbuilt.toSound hrank calls
  exact ⟨⟨hsound, hsound.forest hlast⟩, fun hmem => owned_calls hbuilt.toSound (.inr hmem)⟩

/-- A schema file with a message, the message and the enumeration nested in it, and a service. -/
def shelves : Descriptor.File :=
  { name := some "shelves.proto"
    package := some "lib"
    messages :=
      [.mk (some "Shelf")
        [{ name := some "books", type := some 11, typeName := some ".lib.Shelf.Book"
           label := some 3 },
          { name := some "kind", type := some 14, typeName := some ".lib.Shelf.Kind" }]
        [.mk (some "Book")
          [{ name := some "shelf", type := some 11, typeName := some ".lib.Shelf" }] [] [] none []]
        [{ name := some "Kind", values := [{ name := some "OPEN", number := some 0 }] }] none []]
    services :=
      [{ name := some "Library"
         methods :=
          [{ name := some "Read", inputType := some ".lib.Shelf", outputType := some ".lib.Shelf" }]
            }] }

/-- Assembly, skipping the nested enumeration, and an override of what is not there. -/
def shelfCalls : List Call :=
  [.crossReference, .skip (Index.empty.insert SourceOptions.skippedIds ".lib.Shelf.Kind"),
    .patch [⟨".lib.Missing", "old", "new"⟩]]

/-- The model of the shelves is well-formed after the calls on it, and its method knows its service.
-/
theorem wellFormed_calls_shelves :
    ∃ m, Descriptor.FileSet.model ⟨[shelves]⟩ none [] = .ok m ∧
      WellFormed (shelfCalls.foldl call m) ∧ Owned (shelfCalls.foldl call m) := by
  have hok : (Descriptor.FileSet.model ⟨[shelves]⟩ none []).isOk = true := by decide +kernel
  cases hm : Descriptor.FileSet.model ⟨[shelves]⟩ none [] with
  | error e =>
    rw [hm] at hok
    cases hok
  | ok m =>
    obtain ⟨hwell, howned⟩ := wellFormed_calls (.descriptor hm) shelfCalls
    exact ⟨m, rfl, hwell, howned List.mem_cons_self⟩

end ApiModel.Model
