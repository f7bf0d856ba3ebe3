import ApiModel.Proofs.Decoding
import ApiModel.Proofs.OpenApi.Catalog
import ApiModel.Proofs.Text.Occurrences
import Mathlib.Data.String.Basic

/-!
# Names of map entries

The entry of a map is named for its property behind the component schema, and a name in Pascal case
has no dot. So two entries have one full name only if they belong to one component and their
properties have one name in Pascal case. A component schema can have the full name of an entry, too,
but it comes behind the component of the entry then, since the schemas that are read ascend in their
names.
-/

namespace ApiModel

/-! ## Pascal case -/

namespace Text

/-- A part of a text between separators contains no separator. -/
theorem separator_of_mem_pieces {separator : Char → Bool} {text piece : List Char}
    (h : piece ∈ pieces separator text) {c : Char} (hc : c ∈ piece) : separator c = false := by
  induction text generalizing piece with
  | nil =>
    obtain rfl := List.mem_singleton.1 h
    exact absurd hc List.not_mem_nil
  | cons d rest ih =>
    rw [pieces] at h
    split at h
    · rcases List.mem_cons.1 h with rfl | h
      · exact absurd hc List.not_mem_nil
      · exact ih h hc
    · rename_i hd
      have hfirst : separator d = false := eq_false_of_ne_true hd
      split at h
      · obtain rfl := List.mem_singleton.1 h
        rw [List.mem_singleton.1 hc]
        exact hfirst
      · rename_i first more hmore
        rw [hmore] at ih
        rcases List.mem_cons.1 h with rfl | h
        · rcases List.mem_cons.1 hc with rfl | hc
          · exact hfirst
          · exact ih List.mem_cons_self hc
        · exact ih (List.mem_cons_of_mem first h) hc

/-- The only code point of the dot is `0x2E`. -/
theorem eq_of_ofNat_eq_dot {code : Nat} (h : Char.ofNat code = '.') : code = 0x2E := by
  by_cases hvalid : code.isValidChar
  · have hcode := congrArg Char.toNat h
    rw [Char.ofNat, dif_pos hvalid] at hcode
    exact hcode
  · rw [Char.ofNat, dif_neg hvalid] at h
    cases h

/-- No code point beyond those of ASCII has the dot as its upper case. -/
theorem dot_notMem_mapCode {code : Nat} (h : 0x80 ≤ code) :
    0x2E ∉ mapCode upperRuns upperExpansions code := by
  have hexpansions : ∀ expansion ∈ upperExpansions, 0x2E ∉ expansion.2 := by decide +kernel
  have hruns : ∀ run ∈ upperRuns, 0x2E < (run.first : Int) + run.delta := by decide +kernel
  unfold mapCode
  split
  · rename_i codes hcodes
    obtain ⟨before, after, hsplit, -⟩ := List.lookup_eq_some_iff.1 hcodes
    exact hexpansions (code, codes) (hsplit ▸ List.mem_append_right _ List.mem_cons_self)
  · split
    · rename_i run hrun
      have hfirst : run.first ≤ code := by
        have htest := List.find?_some hrun
        simp only [Bool.and_eq_true, decide_eq_true_eq] at htest
        exact htest.1.1
      have hlarge := hruns run (List.mem_of_find?_eq_some hrun)
      intro hdot
      have hcode := List.mem_singleton.1 hdot
      omega
    · intro hdot
      have hcode := List.mem_singleton.1 hdot
      omega

/-- Only the dot has the dot as its upper case. -/
theorem dot_notMem_upperChar {c : Char} (h : c ≠ '.') : '.' ∉ upperChar c := by
  unfold upperChar
  split
  · intro hdot
    have hupper := List.mem_singleton.1 hdot
    unfold Char.toUpper at hupper
    split at hupper
    · rename_i hletter
      obtain ⟨hfirst, hlast⟩ := hletter
      rw [UInt32.le_iff_toNat_le] at hfirst hlast
      have hcode := congrArg (fun d : Char => d.val.toNat) hupper
      simp at hfirst hlast hcode
      omega
    · exact h hupper.symm
  · rename_i hlarge
    intro hdot
    obtain ⟨code, hcode, hchar⟩ := List.mem_map.1 hdot
    obtain rfl := eq_of_ofNat_eq_dot hchar
    exact dot_notMem_mapCode (Nat.le_of_not_lt hlarge) hcode

end Text

/-- A name in Pascal case has no dot. -/
theorem dot_notMem_pascalCase (name : String) : '.' ∉ (pascalCase name).toList := by
  rw [pascalCase, String.toList_ofList, List.mem_flatMap]
  rintro ⟨piece, hpiece, hdot⟩
  have hparts : ∀ c ∈ piece, c ≠ '.' := by
    rintro c hc rfl
    exact Bool.noConfusion (Text.separator_of_mem_pieces hpiece hc)
  cases piece with
  | nil => exact absurd hdot List.not_mem_nil
  | cons first rest =>
    rcases List.mem_append.1 hdot with hdot | hdot
    · exact Text.dot_notMem_upperChar (hparts first List.mem_cons_self) hdot
    · exact hparts '.' (List.mem_cons_of_mem first hdot) rfl

namespace OpenApi

/-! ## Full names -/

/-- The name of an entry has no dot. -/
theorem dot_notMem_entryName (name : String) : '.' ∉ (entryName name).toList := by
  rw [entryName, String.toList_append, List.mem_append, not_or]
  exact ⟨dot_notMem_pascalCase name, by decide⟩

variable {package first second : String} {name other : String}

/-- A full name that goes on with a dot and a name of an entry tells both parts. -/
theorem entryId_inj : first ++ "." ++ entryName name = second ++ "." ++ entryName other ↔
    first = second ∧ entryName name = entryName other :=
  append_dot_inj (dot_notMem_entryName name) (dot_notMem_entryName other)

/-- A text comes before what goes on after it with a dot. -/
theorem lt_append_dot (start rest : String) : start < start ++ "." ++ rest := by
  rw [String.lt_iff_toList_lt, String.toList_append, String.toList_append, List.append_assoc]
  have hlater := List.Lex.append_left (fun c d : Char => c < d)
    (List.Lex.nil (a := '.') (l := rest.toList)) start.toList
  rwa [List.append_nil] at hlater

/-- A component schema with the full name of an entry has a name behind that of the entry's
component. -/
theorem eq_of_qualify_eq_entryId :
    qualify package other = qualify package first ++ "." ++ entryName name ↔
      other = first ++ "." ++ entryName name := by
  rw [String.append_assoc, ← qualify_append, qualify_inj, String.append_assoc]

/-! ## Names that are read -/

open Json.Decoder

/-- The component schemas that are read ascend in their names. -/
theorem ascending_schemas {levels : Nat} {value : Json.Value} {d : Document}
    (h : Document.read levels value = some d) : Index.Ascending d.schemas := by
  obtain ⟨given, rest, h⟩ := of_record h
  obtain ⟨info, -, h⟩ := Option.bind_eq_some_iff.1 h
  obtain ⟨servers, -, h⟩ := Option.bind_eq_some_iff.1 h
  obtain ⟨paths, -, h⟩ := Option.bind_eq_some_iff.1 h
  obtain ⟨schemas, hschemas, h⟩ := Option.bind_eq_some_iff.1 h
  obtain rfl := Option.some.inj h
  rcases memberOr_cases hschemas with rfl | ⟨components, hcomponents⟩
  · exact List.Pairwise.nil
  · obtain ⟨members, inner, hmembers⟩ := of_record hcomponents
    exact (ascending_memberOr hmembers).1

end OpenApi

end ApiModel
