import ApiModel.Descriptor.Build
import ApiModel.Proofs.Attempt

/-!
# What reading a set of files keeps

The reader of descriptor sets changes a model in a few ways only: it adds the elements that it has
converted, puts the places of nested types into their message, marks fields that clients fill in,
and lists what is at the top. What each of these keeps is so in the model of every set, up to the
well-known types.
-/

namespace ApiModel.Descriptor

/-- The package of the model of a set: that of the first file to generate. -/
def FileSet.packageName (set : FileSet) (included : List String) : String :=
  ((set.files.filter (set.selects included)).head?.map File.packageName).getD ""

/-- Whether every change that is made while a set is read keeps a property of the model. -/
structure KeptByReading (P : Model → Prop) : Prop where
  /-- A converted message is added. -/
  message : ∀ {m context scope parent place message x},
    convertMessage context scope parent place message = .ok x → P m → P (m.addMessage x).model
  /-- An enumeration is added. -/
  enumeration : ∀ {m} x, P m → P (m.addEnum x).model
  /-- The places of nested types are put into a message. -/
  nested : ∀ {m} r messages enums, P m →
    P (m.modifyMessage r fun x => { x with messages := messages, enums := enums })
  /-- A field is marked as one that clients fill in. -/
  marked : ∀ {m} r, P m → P (markAutoPopulated m r)
  /-- A method is added. -/
  method : ∀ {m} x, P m → P (m.addMethod x).model
  /-- A service is added. -/
  service : ∀ {m} x, P m → P (m.addService x).model
  /-- Elements at the top are listed. -/
  listed : ∀ {m} messages enums externalMessages externalEnums services, P m →
    P { m with
        messages := messages
        enums := enums
        externalMessages := externalMessages
        externalEnums := externalEnums
        services := services }

namespace KeptByReading

variable {P : Model → Prop} {m k : Model}

/-- Adding enumerations keeps what is kept. -/
theorem addEnums (h : KeptByReading P) (context : FileContext) (scope : String)
    (parent : Option MessageRef) (placeOf : Nat → Place) (hm : P m) (enums : List Enumeration) :
    P (Descriptor.addEnums context scope parent placeOf m enums).model := by
  suffices hall : ∀ (entries : List (Enumeration × Nat)) (state : AddedAll EnumRef),
    P state.model →
      P (entries.foldl
        (fun state entry =>
          let added :=
            state.model.addEnum (convertEnum context scope parent (placeOf entry.2) entry.1)
          (⟨state.refs ++ [added.ref], added.model⟩ : AddedAll EnumRef)) state).model from
    hall _ ⟨[], m⟩ hm
  intro entries
  induction entries with
  | nil => exact fun _ hstate => hstate
  | cons entry rest ih => exact fun state hstate => ih _ (h.enumeration _ hstate)

mutual

/-- Adding a message with what is nested in it keeps what is kept. -/
theorem addMessageTree (h : KeptByReading P) {context : FileContext} {scope : String}
    {parent : Option MessageRef} {place : Place} {m : Model} {added : Added MessageRef}
    (message : Message) (hm : P m)
    (hadd : Descriptor.addMessageTree context scope parent place m message = .ok added) :
    P added.model := by
  match message with
  | .mk name fields messages enums options oneofs =>
    rw [Descriptor.addMessageTree] at hadd
    obtain ⟨element, helement, hadd⟩ := Attempt.bind_eq_ok.1 hadd
    obtain ⟨nested, hnested, hadd⟩ := Attempt.bind_eq_ok.1 hadd
    obtain rfl := Except.ok.inj hadd
    have hinner := h.addMessageTrees messages (h.message helement hm) hnested
    exact h.nested _ _ _ (h.addEnums _ _ _ _ hinner enums)

/-- Adding messages with what is nested in them keeps what is kept. -/
theorem addMessageTrees (h : KeptByReading P) {context : FileContext} {scope : String}
    {parent : Option MessageRef} {placeOf : Nat → Place} {position : Nat} {m : Model}
    {added : AddedAll MessageRef} (messages : List Message) (hm : P m)
    (hadd : Descriptor.addMessageTrees context scope parent placeOf position m messages =
      .ok added) :
    P added.model := by
  match messages with
  | [] =>
    rw [Descriptor.addMessageTrees] at hadd
    obtain rfl := Except.ok.inj hadd
    exact hm
  | message :: rest =>
    rw [Descriptor.addMessageTrees] at hadd
    obtain ⟨first, hfirst, hadd⟩ := Attempt.bind_eq_ok.1 hadd
    obtain ⟨others, hothers, hadd⟩ := Attempt.bind_eq_ok.1 hadd
    obtain rfl := Except.ok.inj hadd
    have hrest : P others.model :=
      h.addMessageTrees rest (h.addMessageTree message hm hfirst) hothers
    exact hrest

end

/-- Adding the types of a file keeps what is kept. -/
theorem addTypes (h : KeptByReading P) {selected : File → Bool} {file : File} (hm : P m)
    (hadd : Descriptor.addTypes selected m file = .ok k) : P k := by
  obtain ⟨messages, hmessages, hadd⟩ := Attempt.bind_eq_ok.1 hadd
  have henums := h.addEnums file.context (scopeOf file.packageName) none Place.fileEnum
    (h.addMessageTrees file.messages hm hmessages) file.enums
  split at hadd
  · obtain rfl := Except.ok.inj hadd
    exact h.listed _ _ _ _ _ henums
  · obtain rfl := Except.ok.inj hadd
    exact h.listed _ _ _ _ _ henums

/-- Adding methods keeps what is kept. -/
theorem addMethods (h : KeptByReading P) {context : ServiceContext} {package serviceId : String}
    {comments : Comments} {placeOf : Nat → Place} {position : Nat} {methods : List Method}
    {added : AddedAll MethodRef} (hm : P m)
    (hadd : Descriptor.addMethods context package serviceId comments placeOf position m methods =
      .ok added) :
    P added.model := by
  induction methods generalizing m position added with
  | nil =>
    obtain rfl := Except.ok.inj hadd
    exact hm
  | cons method rest ih =>
    rw [Descriptor.addMethods] at hadd
    obtain ⟨x, -, hadd⟩ := Attempt.bind_eq_ok.1 hadd
    obtain ⟨others, hothers, hadd⟩ := Attempt.bind_eq_ok.1 hadd
    obtain rfl := Except.ok.inj hadd
    have hmarked : P (x.autoPopulated.foldl markAutoPopulated m) :=
      List.foldlRecOn x.autoPopulated markAutoPopulated hm fun _ hk r _ => h.marked r hk
    have hrest : P others.model := ih (h.method x hmarked) hothers
    exact hrest

/-- What is kept, and is so before any element is added, is so in the model of a set before the
well-known types are added. -/
theorem exists_model (h : KeptByReading P) {set : FileSet} {config : Option ServiceConfig}
    {included : List String}
    (hempty : P (identity (set.packageName included) config))
    (hmodel : set.model config included = .ok m) : ∃ k, P k ∧ m = WellKnown.register k := by
  obtain ⟨types, htypes, hmodel⟩ := Attempt.bind_eq_ok.1 hmodel
  obtain ⟨k, hk, hmodel⟩ := Attempt.bind_eq_ok.1 hmodel
  refine ⟨k, ?_, (Except.ok.inj hmodel).symm⟩
  have hfirst : P types :=
    Attempt.foldlM_keeps (fun _ _ _ hb hadd => h.addTypes hb hadd) hempty htypes
  refine Attempt.foldlM_keeps (fun _ file _ hb hfile => ?_) hfirst hk
  refine Attempt.foldlM_keeps (fun _ entry _ hc hadd => ?_) hb hfile
  obtain ⟨added, hadded, hadd⟩ := Attempt.bind_eq_ok.1 hadd
  obtain rfl := Except.ok.inj hadd
  exact h.listed _ _ _ _ _ (h.service _ (h.addMethods hc hadded))

end KeptByReading

end ApiModel.Descriptor
