import ApiModel.Proofs.Selection.Effect

/-!
# Skipped names and the indices

After skipping, a full name that the skipped patterns match is a key of no index, with one
exception: the external roots are never taken off their lists, so the name of an external message or
enumeration at the top still resolves. Below an external root, and everywhere else, skipped names
are gone.
-/

namespace ApiModel

open Model Relation IdFilter

namespace Selection

variable {s : Selection} {m other : Model} {options : SourceOptions}

/-- A selection retains a message whose name is skipped only as an external root. -/
theorem Retains.external_of_skipped {r : MessageRef} (h : s.Retains m (.message r))
    (hskipped : s.skipped.Matches (m.message r).id) : r ∈ m.externalMessages := by
  cases h with
  | message hr hkept => exact absurd hskipped (keeps_iff.1 hkept).1
  | externalMessage hr => exact hr
  | nestedMessage hp hr hkept => exact absurd hskipped (covers_eq_false_iff.1 hkept)

namespace Filtered

variable (h : Filtered s m other)

include h

/-- A live message of filtered lists whose name is skipped is an external root. -/
theorem external_of_liveMessage (hfinite : FiniteNesting other) {r : MessageRef}
    (hr : other.LiveMessage r) (hskipped : s.skipped.Matches (m.message r).id) :
    r ∈ m.externalMessages :=
  (h.retains_visitedMessages (hfinite.mem_visitedMessages.2 hr)).external_of_skipped hskipped

/-- A live enumeration of filtered lists whose name is skipped is an external root. -/
theorem external_of_liveEnum {r : EnumRef} (hr : other.LiveEnum r)
    (hskipped : s.skipped.Matches (m.enumeration r).id) : r ∈ m.externalEnums := by
  rcases hr with hr | ⟨p, -, hr⟩
  · rcases List.mem_append.1 hr with hr | hr
    · rw [h.enums] at hr
      exact absurd hskipped (keeps_iff.1 (List.mem_filter.1 hr).2).1
    · exact h.externalEnums ▸ hr
  · rw [h.nestedEnums] at hr
    have hkept := (Bool.not_eq_true' _).mp (List.mem_filter.1 hr).2
    exact absurd hskipped (covers_eq_false_iff.1 hkept)

end Filtered

/-- The name of a service that is left is not skipped. -/
theorem not_skipped_service {r : ServiceRef} (hr : r ∈ (s.apply m).services) :
    ¬s.skipped.Matches (m.service r).id := by
  rw [services_apply] at hr
  exact (of_decide_eq_true (List.mem_filter.1 hr).2).1

/-- The name of a method of a service that is left is not skipped. -/
theorem not_skipped_method {r : MethodRef} (hr : (s.apply m).LiveMethod r) :
    ¬s.skipped.Matches (m.method r).id := by
  obtain ⟨service, hservice, hr⟩ := hr
  rw [service_apply, if_pos hservice] at hr
  exact (of_decide_eq_true (List.mem_filter.1 hr).2).1

/-- Where a name is skipped, something is selected. -/
theorem apply_of_skipped {id : String} (hskip : m.skipElements options = .ok other)
    (hskipped : (ofOptions options).skipped.Matches id) : other = (ofOptions options).apply m := by
  rcases skipElements_eq_ok.1 hskip with ⟨hempty, -⟩ | ⟨-, -, happly⟩
  · have hcovers := IdFilter.covers_of_isEmpty (Bool.and_eq_true_iff.1 hempty).1 id
    exact absurd hskipped (covers_eq_false_iff.1 hcovers)
  · exact happly

end Selection

namespace Model

open Selection

variable {m other : Model} {options : SourceOptions} {id : String}

/-- After skipping, a skipped name is a key of the index of messages or enumerations if and only if
it is that of an external root, and never a key of the index of services or methods. -/
theorem skipped_resolves_iff (h : FiniteNesting m) (hskip : m.skipElements options = .ok other)
    (hskipped : (ofOptions options).skipped.Matches id) :
    (id ∈ other.store.messageById.keys ↔ ∃ r ∈ m.externalMessages,
      (m.message r).id = id) ∧
      (id ∈ other.store.enumById.keys ↔ ∃ r ∈ m.externalEnums,
        (m.enumeration r).id = id) ∧
      id ∉ other.store.serviceById.keys ∧ id ∉ other.store.methodById.keys := by
  obtain rfl := apply_of_skipped hskip hskipped
  have hfewer := (ofOptions options).reduction_apply m
  have hfiltered := filtered_apply (ofOptions options) m
  have hfinite := h.of_reduction hfewer
  have hindexed : Indexed ((ofOptions options).apply m) := indexed_buildIndices _
  have hlive := hindexed.indexesLive hfinite
  refine ⟨?_, ?_, fun hkey => ?_, fun hkey => ?_⟩
  · rw [hlive.messages.keys]
    constructor
    · rintro ⟨r, hr, rfl⟩
      rw [hfewer.messageId] at hskipped ⊢
      exact ⟨r, hfiltered.external_of_liveMessage hfinite hr hskipped, rfl⟩
    · rintro ⟨r, hr, rfl⟩
      rw [← hfewer.externalMessages] at hr
      exact ⟨r, ⟨r, List.mem_append_right _ hr, .refl⟩, hfewer.messageId r⟩
  · rw [hlive.enums.keys]
    constructor
    · rintro ⟨r, hr, rfl⟩
      rw [hfewer.enumeration] at hskipped ⊢
      exact ⟨r, hfiltered.external_of_liveEnum hr hskipped, rfl⟩
    · rintro ⟨r, hr, rfl⟩
      rw [← hfewer.externalEnums] at hr
      exact ⟨r, .inl (List.mem_append_right _ hr),
        congrArg Enumeration.id (hfewer.enumeration r)⟩
  · obtain ⟨r, hr, rfl⟩ := (hlive.services.keys id).1 hkey
    have hname := congrArg Service.id (hfewer.service r)
    exact not_skipped_service hr (hname ▸ hskipped)
  · obtain ⟨r, hr, rfl⟩ := (hlive.methods.keys id).1 hkey
    exact not_skipped_method hr (hfewer.methodId r ▸ hskipped)

/-- A document with one schema, which has a point in time. -/
def diary : Discovery.Document :=
  { name := "diary"
    schemas := [
      ("Entry",
        { Discovery.Schema.blank with
          kind := "object"
          properties := [
            ("written",
              { Discovery.Schema.blank with kind := "string", format := "google-datetime" })] })] }

/-- Options that skip some full names. -/
def skippingOnly (ids : String) : SourceOptions :=
  Index.empty.insert SourceOptions.skippedIds ids

/-- The entry of the diary does not resolve after it is skipped, as its name is that of no external
root. -/
theorem skipped_resolves_iff_diary :
    ∃ m other, diary.model none = .ok m ∧ m.crossReference.error? = none ∧
      FiniteNesting m.crossReference.model ∧
      m.crossReference.model.skipElements (skippingOnly ".Entry") = .ok other ∧
      (ofOptions (skippingOnly ".Entry")).skipped.Matches ".Entry" ∧
      ".Entry" ∈ m.crossReference.model.store.messageById.keys ∧
      ".Entry" ∉ other.store.messageById.keys := by
  have hread : (diary.model none).toOption.any (fun m => m.crossReference.error?.isNone &&
      (m.crossReference.model.skipElements (skippingOnly ".Entry")).toOption.any fun _ =>
        decide (".Entry" ∈ m.crossReference.model.store.messageById.keys) &&
        decide (∀ r ∈ m.crossReference.model.externalMessages,
          (m.crossReference.model.message r).id ≠ ".Entry")) = true := by decide +kernel
  obtain ⟨m, hm, hread⟩ := Attempt.exists_ok_of_any hread
  obtain ⟨hlinked, hskip⟩ := Bool.and_eq_true_iff.1 hread
  obtain ⟨other, hother, hread⟩ := Attempt.exists_ok_of_any hskip
  obtain ⟨hkey, hothers⟩ := Bool.and_eq_true_iff.1 hread
  have hfinite : FiniteNesting m.crossReference.model :=
    (Parsed.discovery hm).finiteNesting.call .crossReference
  have hskipped : (ofOptions (skippingOnly ".Entry")).skipped.Matches ".Entry" :=
    covers_iff.1 (by decide +kernel)
  have hgone : ".Entry" ∉ other.store.messageById.keys := fun hkept => by
    obtain ⟨r, hr, hid⟩ := (skipped_resolves_iff hfinite hother hskipped).1.1 hkept
    exact of_decide_eq_true hothers r hr hid
  exact ⟨m, other, hm, Option.isNone_iff_eq_none.1 hlinked, hfinite, hother, hskipped,
    of_decide_eq_true hkey, hgone⟩

/-- The point in time still resolves after all well-known types are skipped, as it is an external
root. -/
theorem skipped_resolves_diary :
    ∃ m other, diary.model none = .ok m ∧ m.crossReference.error? = none ∧
      m.crossReference.model.skipElements (skippingOnly ".google.protobuf.*") = .ok other ∧
      (ofOptions (skippingOnly ".google.protobuf.*")).skipped.Matches
        ".google.protobuf.Timestamp" ∧
      ".google.protobuf.Timestamp" ∈ other.store.messageById.keys := by
  have hread : (diary.model none).toOption.any (fun m => m.crossReference.error?.isNone &&
      (m.crossReference.model.skipElements (skippingOnly ".google.protobuf.*")).toOption.any
        fun other =>
        decide (".google.protobuf.Timestamp" ∈ other.store.messageById.keys)) = true := by
    decide +kernel
  obtain ⟨m, hm, hread⟩ := Attempt.exists_ok_of_any hread
  obtain ⟨hlinked, hskip⟩ := Bool.and_eq_true_iff.1 hread
  obtain ⟨other, hother, hkey⟩ := Attempt.exists_ok_of_any hskip
  exact ⟨m, other, hm, Option.isNone_iff_eq_none.1 hlinked, hother,
    covers_iff.1 (by decide +kernel), of_decide_eq_true hkey⟩

end Model

end ApiModel
