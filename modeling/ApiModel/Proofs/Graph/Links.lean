import ApiModel.Proofs.Assembly.Settled
import ApiModel.Proofs.Graph.Growth

/-!
# Links of assembled models

Assembly gives places to indexed elements only. So in a model that was fresh before, every place of
a type is the one that the indices give its name, or missing.
-/

namespace ApiModel

/-- What of a field tells its link: its type, its name, and the place of it. -/
def Field.typing (f : Field) : FieldType × String × Option TypeRef :=
  (f.type, f.typeId, f.target)

namespace Model

/-- Whether no place is any other than the one that the indices give the name. -/
structure Linked (m : Model) : Prop where
  /-- The places of the types of fields. -/
  fields : ∀ r, ∀ f ∈ (m.message r).fields, f.target = none ∨ f.target = m.namedType? f
  /-- The places of the types of methods. -/
  methods : ∀ r, Unresolved (m.method r) ∨ m.linkedMethod (m.method r) = m.method r

variable {m other : Model}

/-- What a field resolves to is told by its type and its name. -/
theorem namedType?_of_typing {f g : Field} (h : f.typing = g.typing) :
    m.namedType? f = m.namedType? g := by
  obtain ⟨htype, hrest⟩ := Prod.mk.inj h
  unfold namedType?
  rw [htype, (Prod.mk.inj hrest).1]

/-- The places of fields are those from before maps and recursion were marked. -/
theorem typings_assembled (h : Indexed m) (r : MessageRef) :
    (m.assembled.message r).fields.map Field.typing =
      (m.withTargets.message r).fields.map Field.typing := by
  have hindexed := h.of_sameOutline (sameSource_withTargets m).toSameOutline
  have hmarked : ∀ r x, (if r ∈ m.withTargets.indexedMessages then m.withTargets.markedMessage x
      else x).fields.map Field.typing = x.fields.map Field.typing := by
    intro r x
    split
    · rw [markedMessage, List.map_map]
      refine List.map_congr_left fun f _ => ?_
      exact markedField_keeps Field.typing (fun _ => rfl) m.withTargets f
    · rfl
  have hrecursive : ∀ r x,
      (if r ∈ m.withTargets.markAllMaps.withCalls.indexedMessages then
        m.withTargets.markAllMaps.withCalls.recursiveMessage r x else x).fields.map Field.typing =
        x.fields.map Field.typing := by
    intro r x
    split
    · rw [recursiveMessage, List.map_map]
      rfl
    · rfl
  rw [assembled, fields_annotate_eq (indexed_withCalls h),
    markAllRecursive_eq (indexed_withCalls h).nodup_indexedMessages]
  refine (messageArena.get_map_keeps (fun x : Message => x.fields.map Field.typing)
    hrecursive r).trans ?_
  change (m.withTargets.markAllMaps.message r).fields.map Field.typing = _
  rw [markAllMaps_eq hindexed.nodup_indexedMessages]
  exact messageArena.get_map_keeps (fun x : Message => x.fields.map Field.typing) hmarked r

/-- The fields of a message keep their types, and those of indexed messages get the places of
them. -/
theorem typings_assembled_eq (h : Indexed m) {r : MessageRef} (hr : messageArena.Holds m r) :
    (m.assembled.message r).fields.map Field.typing = (m.message r).fields.map fun f =>
      (f.type, f.typeId, if r ∈ m.indexedMessages then m.namedType? f else f.target) := by
  have htargets : m.withTargets.message r =
      if r ∈ m.indexedMessages then m.linkedMessage (m.message r) else m.message r :=
    messageArena.get_map hr fun r x => if r ∈ m.indexedMessages then m.linkedMessage x else x
  rw [typings_assembled h, htargets]
  by_cases hindexed : r ∈ m.indexedMessages
  · simp only [if_pos hindexed, linkedMessage, List.map_map]
    rfl
  · simp only [if_neg hindexed]
    rfl

/-- Giving fields their places gives fresh fields no other places. -/
theorem target_withTargets (hfresh : ∀ r, ∀ f ∈ (m.message r).fields, f.target = none)
    {r : MessageRef} {f : Field} (hf : f ∈ (m.withTargets.message r).fields) :
    f.target = none ∨ f.target = m.namedType? f := by
  change f ∈ (messageArena.get m.withTargets r).fields at hf
  by_cases hr : messageArena.Holds m r
  · rw [withTargets, messageArena.get_map hr] at hf
    split at hf
    · obtain ⟨g, -, rfl⟩ := List.mem_map.1 hf
      exact .inr rfl
    · exact .inl (hfresh r f hf)
  · have hout : ¬messageArena.Holds m.withTargets r := mt (messageArena.holds_map m _ r).1 hr
    rw [messageArena.get_of_not_holds hout] at hf
    exact absurd hf List.not_mem_nil

/-- A method that differs in pages only has no places either. -/
theorem unresolved_of_withoutPages {x y : Method} (h : y.withoutPages = x.withoutPages)
    (hx : Unresolved x) : Unresolved y := by
  have hinput := congrArg Method.inputType h
  have houtput := congrArg Method.outputType h
  have hoperation := congrArg Method.operationInfo h
  exact hx.congr hinput houtput hoperation

/-- Assembly gives fresh elements no other places than those of their names. -/
theorem linked_assembled (h : Indexed m)
    (hfields : ∀ r, ∀ f ∈ (m.message r).fields, f.target = none)
    (hmethods : ∀ r, Unresolved (m.method r)) : Linked m.assembled := by
  have hsame := sameSource_assembled m
  constructor
  case fields =>
    intro r f hf
    have htyping : f.typing ∈ (m.withTargets.message r).fields.map Field.typing := by
      rw [← typings_assembled h]
      exact List.mem_map.2 ⟨f, hf, rfl⟩
    obtain ⟨g, hg, hgf⟩ := List.mem_map.1 htyping
    have htarget : f.target = g.target := (Prod.mk.inj (Prod.mk.inj hgf).2).2.symm
    rw [hsame.namedType?, htarget, ← namedType?_of_typing hgf]
    exact target_withTargets hfields hg
  case methods =>
    intro r
    by_cases hr : methodArena.Holds m r
    · have hmethod := withoutPages_assembled h hr
      by_cases hmem : r ∈ m.indexedMethods
      · rw [if_pos hmem] at hmethod
        rw [hsame.linkedMethod]
        exact .inr (linkedMethod_eq_self_of_withoutPages hmethod)
      · rw [if_neg hmem] at hmethod
        exact .inl (unresolved_of_withoutPages hmethod (hmethods r))
    · have hout : ¬methodArena.Holds m.assembled r := mt (holds_method_iff hsame.methodCount).1 hr
      rw [method_of_not_holds hout]
      refine .inl ⟨rfl, rfl, ?_, ?_⟩
      · rintro info ⟨⟩
      · rintro info ⟨⟩

end Model

end ApiModel
