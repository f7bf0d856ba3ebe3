import ApiModel.Text.Basic
import Mathlib.Data.List.Infix

/-!
# Occurrences in texts

Splitting a text at the last occurrence of a character gives the only parts of which the second does
not have it. Replacing the first occurrence of a pattern gives the text with the replacement in its
place, where the pattern occurs at all.
-/

namespace ApiModel

namespace Text

variable {separator : Char} {text before after pattern : List Char}

/-- A text is not split at a character that it does not have. -/
theorem splitLast?_eq_none : splitLast? separator text = none ↔ separator ∉ text := by
  induction text with
  | nil => exact iff_of_true rfl List.not_mem_nil
  | cons c rest ih =>
    rw [splitLast?, List.mem_cons, not_or, ← ih]
    cases splitLast? separator rest with
    | some parts => exact iff_of_false (fun h => by cases h) fun h => by cases h.2
    | none =>
      change (if c == separator then some ([], rest) else none) = none ↔
        separator ≠ c ∧ none = none
      rw [ite_eq_right_iff, beq_iff_eq, and_iff_left rfl, ne_comm]
      exact imp_congr_right fun _ => iff_of_false (fun h => by cases h) id

/-- A text is split at a character that the part behind it does not have. -/
theorem splitLast?_eq_some :
    splitLast? separator text = some (before, after) ↔
      text = before ++ separator :: after ∧ separator ∉ after := by
  induction text generalizing before after with
  | nil => simp [splitLast?]
  | cons c rest ih =>
    rw [splitLast?]
    cases hrest : splitLast? separator rest with
    | some parts =>
      obtain ⟨start, tail⟩ := parts
      dsimp only
      have hsplit := ih.1 hrest
      constructor
      · intro h
        obtain ⟨rfl, rfl⟩ := Prod.mk.inj (Option.some.inj h)
        exact ⟨congrArg (c :: ·) hsplit.1, hsplit.2⟩
      · rintro ⟨hparts, hafter⟩
        cases before with
        | nil =>
          obtain ⟨-, rfl⟩ := List.cons.inj hparts
          exact absurd (hsplit.1 ▸ List.mem_append_right _ List.mem_cons_self) hafter
        | cons d front =>
          obtain ⟨rfl, htail⟩ := List.cons.inj hparts
          have hsame := hrest.symm.trans (ih.2 ⟨htail, hafter⟩)
          obtain ⟨rfl, rfl⟩ := Prod.mk.inj (Option.some.inj hsame)
          rfl
    | none =>
      have hnone := splitLast?_eq_none.1 hrest
      dsimp only
      constructor
      · intro h
        split at h
        · rename_i hc
          obtain ⟨rfl, rfl⟩ := Prod.mk.inj (Option.some.inj h)
          exact ⟨by rw [beq_iff_eq.1 hc, List.nil_append], hnone⟩
        · cases h
      · rintro ⟨hparts, -⟩
        cases before with
        | nil =>
          obtain ⟨rfl, rfl⟩ := List.cons.inj hparts
          rw [if_pos (beq_self_eq_true _)]
        | cons d start =>
          obtain ⟨-, rfl⟩ := List.cons.inj hparts
          exact absurd (List.mem_append_right _ List.mem_cons_self) hnone

/-- Replacing a pattern that occurs replaces it where it occurs first. -/
theorem exists_replaceFirst? (replacement : List Char) (h : pattern <:+: text) :
    ∃ before after, text = before ++ pattern ++ after ∧
      (∀ other rest, text = other ++ pattern ++ rest → before.length ≤ other.length) ∧
      replaceFirst? pattern replacement text = some (before ++ replacement ++ after) := by
  induction text with
  | nil =>
    obtain rfl := List.infix_nil.1 h
    exact ⟨[], [], rfl, fun _ _ _ => Nat.zero_le _, by simp [replaceFirst?]⟩
  | cons c rest ih =>
    rw [replaceFirst?]
    cases hstart : pattern.isPrefixOf? (c :: rest) with
    | some after =>
      have hsplit := List.isPrefixOf?_eq_some_iff_append_eq.1 hstart
      exact ⟨[], after, hsplit.symm, fun _ _ _ => Nat.zero_le _, rfl⟩
    | none =>
      -- the pattern is not at the beginning, so every occurrence is one in the rest
      have hlater : ∀ other tail, c :: rest = other ++ pattern ++ tail →
          ∃ start, other = c :: start ∧ rest = start ++ pattern ++ tail := by
        intro other tail hother
        cases other with
        | nil =>
          have hprefix := List.isPrefixOf?_eq_some_iff_append_eq.2 hother.symm
          rw [List.nil_append, hstart] at hprefix
          cases hprefix
        | cons d start =>
          obtain ⟨rfl, hrest⟩ := List.cons.inj hother
          exact ⟨start, rfl, hrest⟩
      obtain ⟨other, tail, hother⟩ := h
      obtain ⟨start, -, hrest⟩ := hlater other tail hother.symm
      obtain ⟨before, after, hsplit, hfirst, hreplaced⟩ := ih ⟨start, tail, hrest.symm⟩
      refine ⟨c :: before, after, congrArg (c :: ·) hsplit, fun other tail hother => ?_, ?_⟩
      · obtain ⟨start, rfl, hrest⟩ := hlater other tail hother
        exact Nat.succ_le_succ (hfirst start tail hrest)
      · rw [hreplaced]
        rfl

/-- Whether a text has a pattern behind one part and before another, and not earlier. -/
structure FirstOccurrence (pattern text before after : String) : Prop where
  /-- The parts and the pattern make up the text. -/
  split : text = before ++ pattern ++ after
  /-- The pattern does not occur earlier. -/
  first : ∀ other rest, text = other ++ pattern ++ rest → before.length ≤ other.length

/-- Replacing a pattern that occurs in a text replaces its first occurrence. -/
theorem exists_firstOccurrence {pattern text : String} (replacement : String)
    (h : ∃ before after, text = before ++ pattern ++ after) :
    ∃ before after, FirstOccurrence pattern text before after ∧
      replaceFirst? pattern.toList replacement.toList text.toList =
        some (before ++ replacement ++ after).toList := by
  have hinfix : pattern.toList <:+: text.toList := by
    obtain ⟨before, after, rfl⟩ := h
    exact ⟨before.toList, after.toList, by rw [String.toList_append, String.toList_append]⟩
  obtain ⟨before, after, hsplit, hfirst, hreplaced⟩ :=
    exists_replaceFirst? replacement.toList hinfix
  refine ⟨String.ofList before, String.ofList after, ⟨?_, fun other rest hother => ?_⟩, ?_⟩
  · rw [← String.toList_inj, hsplit]
    simp only [String.toList_append, String.toList_ofList]
  · have hearlier := hfirst other.toList rest.toList (by
      rw [hother, String.toList_append, String.toList_append])
    rwa [String.length_ofList, ← String.length_toList]
  · rw [hreplaced]
    simp only [String.toList_append, String.toList_ofList]

/-- There is one first occurrence. -/
theorem FirstOccurrence.unique {pattern text before after other rest : String}
    (h : FirstOccurrence pattern text before after) (h' : FirstOccurrence pattern text other rest) :
    other = before ∧ rest = after := by
  have hlength : other.length = before.length :=
    Nat.le_antisymm (h'.first before after h.split) (h.first other rest h'.split)
  have hsame := congrArg String.toList (h'.split.symm.trans h.split)
  simp only [String.toList_append, List.append_assoc] at hsame
  obtain ⟨hbefore, hbehind⟩ := List.append_inj hsame hlength
  exact ⟨String.toList_inj.1 hbefore, String.toList_inj.1 (List.append_cancel_left hbehind)⟩

/-- Where a pattern is replaced, it occurs. -/
theorem infix_of_replaceFirst? {replacement result : List Char}
    (h : replaceFirst? pattern replacement text = some result) : pattern <:+: text := by
  induction text generalizing result with
  | nil =>
    rw [replaceFirst?] at h
    split at h
    · rename_i hempty
      rw [List.isEmpty_iff.1 hempty]
    · cases h
  | cons c rest ih =>
    rw [replaceFirst?] at h
    cases hstart : pattern.isPrefixOf? (c :: rest) with
    | some after => exact ⟨[], after, List.isPrefixOf?_eq_some_iff_append_eq.1 hstart⟩
    | none =>
      rw [hstart] at h
      obtain ⟨later, hlater, -⟩ := Option.map_eq_some_iff.1 h
      exact List.infix_cons (ih hlater)

/-- What replacing a pattern comes to: the text with its first occurrence replaced. -/
theorem replaceFirst?_eq_some_iff {pattern replacement text : String} {result : List Char} :
    replaceFirst? pattern.toList replacement.toList text.toList = some result ↔
      ∃ before after, FirstOccurrence pattern text before after ∧
        result = (before ++ replacement ++ after).toList := by
  constructor
  · intro h
    obtain ⟨before, after, hsplit⟩ := infix_of_replaceFirst? h
    have hoccurs : text = String.ofList before ++ pattern ++ String.ofList after := by
      rw [← String.toList_inj, ← hsplit]
      simp only [String.toList_append, String.toList_ofList]
    obtain ⟨before, after, hfirst, hreplaced⟩ :=
      exists_firstOccurrence replacement ⟨_, _, hoccurs⟩
    exact ⟨before, after, hfirst, Option.some.inj (h.symm.trans hreplaced)⟩
  · rintro ⟨before, after, hfirst, rfl⟩
    obtain ⟨other, rest, hother, hreplaced⟩ :=
      exists_firstOccurrence replacement ⟨_, _, hfirst.split⟩
    obtain ⟨rfl, rfl⟩ := hfirst.unique hother
    exact hreplaced

end Text

end ApiModel
