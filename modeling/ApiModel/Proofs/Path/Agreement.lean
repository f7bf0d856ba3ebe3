import ApiModel.Proofs.Path.Placeholders

/-!
# Resource paths in the annotation spelling

A resource path and an annotation have one printed form. What is read from a resource path is
printed as an annotation and read again: the same segments and the same verb come back, only the
permission for reserved characters has no sign in that spelling. It comes back exactly if the
annotation spelling can express the segments, which asks for field names in variables and for no
literal that is a bare wildcard.
-/

namespace ApiModel.Path

/-- The variable without the permission for reserved characters. -/
def Variable.unreserved (v : Variable) : Variable :=
  { v with allowReserved := false }

/-- The segment without the permission for reserved characters. -/
def Segment.unreserved : Segment → Segment
  | .literal text => .literal text
  | .variable v => .variable v.unreserved

/-- The template without the permission for reserved characters in any variable. -/
def Template.unreserved (t : Template) : Template :=
  { t with segments := t.segments.map Segment.unreserved }

/-- Whether a segment of a resource path can be written in an annotation: a variable with a field
name, or a literal that is no wildcard. -/
def Segment.Annotatable : Segment → Prop
  | .literal text => text ≠ oneSegment ∧ text ≠ manySegments
  | .variable v => FieldName v.fieldName

section Segments

variable {text : List Char} {x : Segment}

/-- A segment is displayed alike with and without the permission for reserved characters. -/
theorem Segment.display_unreserved (x : Segment) : x.unreserved.display = x.display := by
  cases x with
  | literal text => rfl
  | «variable» v => rfl

/-- A variable with one name and one wildcard is well formed if and only if the name is a field
name. -/
theorem Variable.wellFormed_single_iff (name : String) {wildcard : String}
    (hwildcard : wildcard = oneSegment ∨ wildcard = manySegments) :
    (⟨[name], [wildcard], false⟩ : Variable).WellFormed ↔ FieldName name := by
  have hcapture : Capture wildcard := by
    rcases hwildcard with rfl | rfl <;> simp [Capture, Avoids, oneSegment, manySegments]
  constructor
  · intro h
    exact h.fieldPath name List.mem_cons_self
  · intro h
    exact ⟨by simp, by simpa using h, by simp, by simpa using hcapture, rfl⟩

/-- A segment of a resource path is well formed without permissions if and only if it can be written
in an annotation. -/
theorem ReadsAs.wellFormed_unreserved_iff (h : ReadsAs text x) :
    x.unreserved.WellFormed ↔ x.Annotatable := by
  cases h with
  | @literal literal h =>
    have hliteral : literal ≠ "" ∧ Avoids ['/', '\x7b', '\x7d'] literal.toList :=
      ⟨by simpa using h.1, h.2⟩
    constructor
    · intro hwell
      exact hwell.2.2
    · intro hwild
      exact ⟨hliteral.1, hliteral.2, hwild⟩
  | @one name hplus =>
    have hname : (⟨[name], [oneSegment], false⟩ : Variable).fieldName = name := by
      simp [Variable.fieldName]
    have hwell := Variable.wellFormed_single_iff name (.inl (rfl : oneSegment = oneSegment))
    rw [Segment.Annotatable, hname]
    exact hwell
  | @many name =>
    have hname : (⟨[name], [manySegments], true⟩ : Variable).fieldName = name := by
      simp [Variable.fieldName]
    have hwell := Variable.wellFormed_single_iff name (.inr (rfl : manySegments = manySegments))
    rw [Segment.Annotatable, hname]
    exact hwell

end Segments

namespace Template

variable {text : String} {t : Template} {s : Spelling}

/-- A template is displayed alike with and without the permission for reserved characters. -/
theorem display_unreserved (t : Template) : t.unreserved.display = t.display := by
  unfold display unreserved
  simp only [List.map_map, Function.comp_def, Segment.display_unreserved]

/-- Without a verb, a literal at the end of a resource path has no colon. -/
theorem ReadFrom.notMem_colon (h : t.ReadFrom text s) (hverb : t.verb = none) {literal : String}
    (hlast : t.segments.getLast? = some (.literal literal)) : ':' ∉ literal.toList := by
  have hnone : s.verb = none := by simpa [hverb] using h.verb.symm
  obtain ⟨init, piece, hpieces⟩ :=
    (List.eq_nil_or_concat' _).resolve_left h.exact.segments_ne_nil
  have hread := h.segments
  rw [hpieces] at hread
  obtain ⟨front, x, hsegments, hx⟩ := exists_concat_of_forall₂ hread
  obtain rfl : x = .literal literal := by simpa [hsegments] using hlast
  have hcolon : Solid ':' 0 piece := h.exact.last hnone piece (by simp [hpieces])
  cases hx with
  | literal hliteral =>
    have hbraces : Avoids ['\x7b', '\x7d'] literal.toList := hliteral.2.of_subset (by simp)
    exact (solid_iff_notMem hbraces).1 hcolon

/-- The verb of a resource path is one that an annotation can have. -/
theorem ReadFrom.verb_of_eq_some (h : t.ReadFrom text s) {verb : String}
    (hverb : t.verb = some verb) :
    Verb verb := by
  obtain ⟨word, hword, rfl⟩ : ∃ word, s.verb = some word ∧ String.ofList word = verb := by
    simpa [hverb, eq_comm] using h.verb
  obtain ⟨hne, hslash, hcolon⟩ := h.exact.verb word hword
  rw [Verb, String.toList_ofList]
  exact ⟨by simpa using hne, hslash.1, hslash.2, hcolon.2⟩

/-- A template that is read from a resource path is well formed without permissions if and only if
its segments can be written in an annotation. -/
theorem ReadFrom.wellFormed_unreserved_iff (h : t.ReadFrom text s) :
    t.unreserved.WellFormed ↔ ∀ x ∈ t.segments, x.Annotatable := by
  have hsegments : ∀ x ∈ t.segments, (x.unreserved.WellFormed ↔ x.Annotatable) := by
    intro x hx
    obtain ⟨piece, -, hread⟩ := Attempt.exists_mem_left h.segments x hx
    exact hread.wellFormed_unreserved_iff
  constructor
  · intro hwell x hx
    have hmem : x.unreserved ∈ t.unreserved.segments := List.mem_map_of_mem hx
    exact (hsegments x hx).1 (hwell.segments x.unreserved hmem)
  · intro hall
    refine ⟨?_, ?_, ?_, fun verb => h.verb_of_eq_some⟩
    · have hne : t.segments ≠ [] := by
        intro hnil
        have hread := h.segments
        rw [hnil] at hread
        exact h.exact.segments_ne_nil (List.forall₂_nil_right_iff.1 hread)
      simpa [unreserved] using hne
    · intro y hy
      obtain ⟨x, hx, rfl⟩ := List.mem_map.1 hy
      exact (hsegments x hx).2 (hall x hx)
    · intro hverb literal hlast
      have hlast' : t.segments.getLast?.map Segment.unreserved = some (.literal literal) := by
        simpa [unreserved] using hlast
      obtain ⟨x, hx, hliteral⟩ := Option.map_eq_some_iff.1 hlast'
      cases x with
      | literal other =>
        obtain rfl : other = literal := by simpa [Segment.unreserved] using hliteral
        exact h.notMem_colon hverb hx
      | «variable» v => cases hliteral

/-- All segments can be written in an annotation if and only if all variables have field names and
no literal is a bare wildcard. -/
theorem forall_annotatable_iff : (∀ x ∈ t.segments, x.Annotatable) ↔
    (∀ v ∈ t.variableList, FieldName v.fieldName) ∧
      ∀ literal, .literal literal ∈ t.segments → literal ≠ oneSegment ∧
      literal ≠ manySegments := by
  constructor
  · intro h
    refine ⟨fun v hv => ?_, fun literal hmem => h (.literal literal) hmem⟩
    obtain ⟨x, hx, hsome⟩ := List.mem_filterMap.1 hv
    cases x with
    | literal text => cases hsome
    | «variable» w =>
      obtain rfl : w = v := Option.some.inj hsome
      exact h (.variable w) hx
  · rintro ⟨hvariables, hliterals⟩ x hx
    cases x with
    | literal text => exact hliterals text hx
    | «variable» v => exact hvariables v (List.mem_filterMap.2 ⟨.variable v, hx, rfl⟩)

/-- What is read from a resource path comes back from its shown text, only without the permissions
for reserved characters, if and only if its variables have field names and its literals are no bare
wildcards. -/
theorem parse_display_iff_of_parseResource (h : parseResource text = .ok t) :
    parse t.display = .ok t.unreserved ↔
      (∀ v ∈ t.variableList, FieldName v.fieldName) ∧
        ∀ literal, .literal literal ∈ t.segments → literal ≠ oneSegment ∧
        literal ≠ manySegments := by
  obtain ⟨s, hs⟩ := parseResource_eq_ok_iff.1 h
  have hspelled : t.unreserved.Spelled t.display := by
    have hshown := t.unreserved.spelled_display
    rwa [display_unreserved] at hshown
  calc parse t.display = .ok t.unreserved
      ↔ t.unreserved.WellFormed ∧ t.unreserved.Spelled t.display := parse_eq_ok_iff
    _ ↔ t.unreserved.WellFormed := and_iff_left hspelled
    _ ↔ ∀ x ∈ t.segments, x.Annotatable := hs.wellFormed_unreserved_iff
    _ ↔ _ := forall_annotatable_iff

/-- A path with a colon in an earlier segment, both kinds of placeholders and a verb comes back. -/
theorem parse_display_iff_of_parseResource_move :
    ∃ t, parseResource "v1:beta/\x7bzone\x7d/disks/\x7b+rest\x7d:move" = .ok t ∧
      (∀ v ∈ t.variableList, FieldName v.fieldName) ∧
      parse t.display = .ok t.unreserved ∧
      t.display = "/v1:beta/\x7bzone\x7d/disks/\x7brest=**\x7d:move" ∧ t.unreserved ≠ t := by
  have hread : parseResource "v1:beta/\x7bzone\x7d/disks/\x7b+rest\x7d:move" =
      .ok ⟨[.literal "v1:beta", .variable ⟨["zone"], ["*"], false⟩, .literal "disks",
        .variable ⟨["rest"], ["**"], true⟩], some "move"⟩ := by
    decide +kernel
  have hnames : ∀ v ∈ [(⟨["zone"], ["*"], false⟩ : Variable), ⟨["rest"], ["**"], true⟩],
      FieldName v.fieldName := by
    intro v hv
    rcases List.mem_pair.1 hv with rfl | rfl
    · exact isIdentifier_toList.1 (by decide +kernel)
    · exact isIdentifier_toList.1 (by decide +kernel)
  have hliterals : ∀ literal, Segment.literal literal ∈ [.literal "v1:beta",
      .variable ⟨["zone"], ["*"], false⟩, .literal "disks",
        .variable ⟨["rest"], ["**"], true⟩] →
      literal ≠ oneSegment ∧ literal ≠ manySegments := by
    intro literal hmem
    obtain rfl | rfl : literal = "v1:beta" ∨ literal = "disks" := by simpa using hmem
    · decide
    · decide
  exact ⟨_, hread, hnames, (parse_display_iff_of_parseResource hread).2 ⟨hnames, hliterals⟩,
    by decide +kernel, by decide⟩

end Template

end ApiModel.Path
