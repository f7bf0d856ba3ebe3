import ApiModel.Text.Basic
import Mathlib.Data.List.Infix

/-!
# Beginnings and endings of texts

Taking a beginning or an ending off a text gives what makes the text together with it.
-/

namespace ApiModel

namespace Text

/-- What is before an ending makes the text with it. -/
theorem stripSuffix?_eq_some {ending text start : String} :
    stripSuffix? ending text = some start ↔ text = start ++ ending := by
  rw [stripSuffix?, Option.map_eq_some_iff, ← String.toList_inj, String.toList_append]
  constructor
  · rintro ⟨before, hbefore, rfl⟩
    rw [String.toList_ofList, List.isSuffixOf?_eq_some_iff_append_eq.1 hbefore]
  · intro h
    refine ⟨start.toList, List.isSuffixOf?_eq_some_iff_append_eq.2 h.symm, String.ofList_toList⟩

/-- A text without an ending has nothing before it. -/
theorem stripSuffix?_eq_none {ending text : String} :
    stripSuffix? ending text = none ↔ ∀ start, text ≠ start ++ ending := by
  rw [Option.eq_none_iff_forall_ne_some]
  exact forall_congr' fun start => not_congr stripSuffix?_eq_some

/-- What is after a beginning makes the text with it. -/
theorem stripPrefix?_eq_some {start text rest : String} :
    stripPrefix? start text = some rest ↔ text = start ++ rest := by
  rw [stripPrefix?, Option.map_eq_some_iff, ← String.toList_inj, String.toList_append]
  constructor
  · rintro ⟨after, hafter, rfl⟩
    rw [String.toList_ofList, List.isPrefixOf?_eq_some_iff_append_eq.1 hafter]
  · intro h
    exact ⟨rest.toList, List.isPrefixOf?_eq_some_iff_append_eq.2 h.symm, String.ofList_toList⟩

/-- A text that begins with another goes on after it. -/
theorem beginsWith_iff {start text : String} :
    beginsWith start text = true ↔ ∃ rest, text = start ++ rest := by
  rw [beginsWith, List.isPrefixOf_iff_prefix]
  constructor
  · rintro ⟨rest, hrest⟩
    refine ⟨String.ofList rest, ?_⟩
    rw [← String.toList_inj, String.toList_append, String.toList_ofList, hrest]
  · rintro ⟨rest, rfl⟩
    exact ⟨rest.toList, String.toList_append.symm⟩

/-- A text that ends with another begins with something before it. -/
theorem endsWith_iff {ending text : String} :
    endsWith ending text = true ↔ ∃ start, text = start ++ ending := by
  rw [endsWith, List.isSuffixOf_iff_suffix]
  constructor
  · rintro ⟨start, hstart⟩
    refine ⟨String.ofList start, ?_⟩
    rw [← String.toList_inj, String.toList_append, String.toList_ofList, hstart]
  · rintro ⟨start, rfl⟩
    exact ⟨start.toList, String.toList_append.symm⟩

/-- A text that does not begin with a dot stays alone when the dots before it are dropped. -/
theorem dropDots_dot_append {text : String} (h : beginsWith "." text = false) :
    dropDots ("." ++ text) = text := by
  have hdot : ".".toList = ['.'] := rfl
  rw [dropDots, String.toList_append, hdot, List.singleton_append, List.dropWhile_cons_of_pos rfl]
  rw [beginsWith, hdot] at h
  cases htext : text.toList with
  | nil => rw [List.dropWhile_nil, ← htext, String.ofList_toList]
  | cons c rest =>
    rw [htext, List.isPrefixOf_cons_cons, List.isPrefixOf_nil_left, Bool.and_true,
      beq_eq_false_iff_ne] at h
    have hc : (c == '.') = false := beq_eq_false_iff_ne.2 (Ne.symm h)
    rw [List.dropWhile_cons, hc, if_neg Bool.false_ne_true, ← htext, String.ofList_toList]

/-- Whether a text begins with a dot is told by its first part, unless that is empty. -/
theorem beginsWith_dot_append {first : String} (hne : first ≠ "") (rest : String) :
    beginsWith "." (first ++ rest) = beginsWith "." first := by
  have hdot : ".".toList = ['.'] := rfl
  rw [beginsWith, beginsWith, hdot, String.toList_append]
  cases hfirst : first.toList with
  | nil => exact absurd (String.toList_eq_nil_iff.1 hfirst) hne
  | cons c cs =>
    rw [List.cons_append, List.isPrefixOf_cons_cons, List.isPrefixOf_cons_cons,
      List.isPrefixOf_nil_left, List.isPrefixOf_nil_left]

end Text

end ApiModel
