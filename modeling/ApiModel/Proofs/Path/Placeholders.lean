import ApiModel.Proofs.Path.Derivation

/-!
# Placeholders of resource paths

A segment of the resource spelling that begins and ends with a brace is read as one variable,
whatever stands between them. So a variable stands for one placeholder exactly if its segment is
one: a name between braces, with a plus before it or not, that is not empty and has neither braces
nor slashes.
-/

namespace ApiModel.Path

/-- A placeholder: a name between braces, with a plus before it if it captures any number of
segments. -/
inductive Grammar.Placeholder : List Char → Prop
  /-- The placeholder for one segment. -/
  | one {name : List Char} (h : Literal name) (hplus : name.head? ≠ some '+') :
    Placeholder ('\x7b' :: (name ++ ['\x7d']))
  /-- The placeholder for any number of segments. -/
  | many {name : List Char} (h : Literal name) : Placeholder ('\x7b' :: '+' :: (name ++ ['\x7d']))

/-- Whether a variable is named as one placeholder could name it. -/
def Variable.Single (v : Variable) : Prop :=
  ∃ name, v.fieldPath = [name] ∧ Grammar.Literal name.toList

/-- What a segment of the resource spelling is read as. -/
inductive ReadsAs : List Char → Segment → Prop
  /-- A literal stands for itself. -/
  | literal {text : String} (h : Grammar.Literal text.toList) : ReadsAs text.toList (.literal text)
  /-- A text between braces names a variable that captures one segment. -/
  | one {name : String} (hplus : name.toList.head? ≠ some '+') :
    ReadsAs ('\x7b' :: (name.toList ++ ['\x7d'])) (.variable ⟨[name], [oneSegment], false⟩)
  /-- Behind a plus, it names a variable that captures any number of segments. -/
  | many {name : String} :
    ReadsAs ('\x7b' :: '+' :: (name.toList ++ ['\x7d']))
      (.variable ⟨[name], [manySegments], true⟩)

/-- Whether a path is the one of a spelling whose segments and verb are those of a template. The
first slash may be left out. -/
structure Template.ReadFrom (t : Template) (text : String) (s : Spelling) : Prop where
  /-- The spelling is exact. -/
  exact : s.Exact
  /-- The path is the one of the spelling. -/
  path : text.toList = s.path ∨ text.toList = '/' :: s.path
  /-- Each segment is read. -/
  segments : List.Forall₂ ReadsAs s.segments t.segments
  /-- The verb is taken as it stands. -/
  verb : t.verb = s.verb.map String.ofList

section Segments

variable {text : List Char} {x : Segment}

/-- A text that has braces at both ends is read as a variable. -/
theorem readsAs_of_readResourceSegment (hsolid : Solid '/' 0 text)
    (h : readResourceSegment text = .ok x) : ReadsAs text x := by
  unfold readResourceSegment at h
  split at h
  case isTrue => cases h
  case isFalse hne =>
    split at h
    case h_1 name hbraced =>
      obtain rfl := Except.ok.inj h
      rw [braced?_eq_some_iff.1 hbraced]
      simpa using @ReadsAs.many (String.ofList name)
    case h_2 name hplus hbraced =>
      obtain rfl := Except.ok.inj h
      rw [braced?_eq_some_iff.1 hbraced]
      have hhead : (String.ofList name).toList.head? ≠ some '+' := by
        rw [String.toList_ofList]
        rintro hhead
        obtain ⟨rest, rfl⟩ := List.head?_eq_some_iff.1 hhead
        exact hplus rest rfl
      simpa using ReadsAs.one hhead
    case h_3 hbraced =>
      split at h
      case isTrue => cases h
      case isFalse hbrace =>
        obtain rfl := Except.ok.inj h
        have hbraces : Avoids ['\x7b', '\x7d'] text :=
          hasBrace_eq_false_iff.1 (by simpa using hbrace)
        have hslash : '/' ∉ text := (solid_iff_notMem hbraces).1 hsolid
        have hliteral : Grammar.Literal text := by
          refine ⟨by simpa using hne, fun c hc hmem => ?_⟩
          rcases List.mem_cons.1 hmem with rfl | hmem
          · exact hslash hc
          · exact hbraces c hc hmem
        simpa using @ReadsAs.literal (String.ofList text) (by simpa using hliteral)

/-- A segment that reads as a template segment is read as that. -/
theorem readResourceSegment_of_readsAs (h : ReadsAs text x) : readResourceSegment text = .ok x := by
  cases h with
  | @literal literal h =>
    have hbraces : Avoids ['\x7b', '\x7d'] literal.toList := h.2.of_subset (by simp)
    have hbraced : braced? literal.toList = none := by
      cases hinner : braced? literal.toList with
      | none => rfl
      | some inner =>
        have htext := braced?_eq_some_iff.1 hinner
        exact absurd (htext ▸ List.mem_cons_self) fun hmem => hbraces _ hmem (by simp)
    have hne : ¬ literal.toList.isEmpty = true := by simpa using h.1
    rw [readResourceSegment, if_neg hne, hbraced]
    simp [hasBrace_eq_false_iff.2 hbraces]
  | @one name hplus =>
    have hbraced := braced?_eq_some_iff.2 (rfl : '\x7b' :: (name.toList ++ ['\x7d']) = _)
    rw [readResourceSegment, if_neg (by simp), hbraced]
    split
    · rename_i rest heq
      rw [Option.some.inj heq] at hplus
      exact absurd rfl hplus
    · rename_i other _ heq
      rw [← Option.some.inj heq, String.ofList_toList]
    · rename_i heq
      cases heq
  | @many name =>
    have hbraced := braced?_eq_some_iff.2 (rfl : '\x7b' :: (('+' :: name.toList) ++ ['\x7d']) = _)
    rw [List.cons_append] at hbraced
    rw [readResourceSegment, if_neg (by simp), hbraced]
    simp

/-- A segment that is read is not empty. -/
theorem ReadsAs.ne_nil (h : ReadsAs text x) : text ≠ [] := by
  cases h with
  | literal h => exact h.1
  | one => simp
  | many => simp

/-- A segment is a literal or a placeholder if and only if it is not read as a variable that a
placeholder could not name. -/
theorem ReadsAs.single_iff (h : ReadsAs text x) :
    (∀ v ∈ x.variable?, v.Single) ↔ Grammar.Literal text ∨ Grammar.Placeholder text := by
  have hopen : ∀ rest : List Char, ¬ Grammar.Literal ('\x7b' :: rest) := fun rest hliteral =>
    hliteral.2 '\x7b' List.mem_cons_self (by simp)
  cases h with
  | literal h =>
    constructor
    · exact fun _ => .inl h
    · rintro - v ⟨⟩
  | @one name hplus =>
    constructor
    · intro hsingle
      obtain ⟨other, hname, hliteral⟩ := hsingle _ rfl
      obtain rfl : name = other := by simpa using hname
      exact .inr (.one hliteral hplus)
    · rintro (hliteral | hplaceholder) v ⟨⟩
      · exact absurd hliteral (hopen _)
      · refine ⟨name, rfl, ?_⟩
        generalize hend : name.toList ++ ['\x7d'] = inner at hplaceholder
        cases hplaceholder with
        | one h => rwa [List.append_cancel_right hend]
        | @many rest h =>
          obtain hname : name.toList = '+' :: rest :=
            List.append_cancel_right (hend.trans (List.cons_append ..).symm)
          exact absurd (by simp [hname]) hplus
  | @many name =>
    constructor
    · intro hsingle
      obtain ⟨other, hname, hliteral⟩ := hsingle _ rfl
      obtain rfl : name = other := by simpa using hname
      exact .inr (.many hliteral)
    · rintro (hliteral | hplaceholder) v ⟨⟩
      · exact absurd hliteral (hopen _)
      · refine ⟨name, rfl, ?_⟩
        generalize hend : '+' :: (name.toList ++ ['\x7d']) = inner at hplaceholder
        cases hplaceholder with
        | @one rest h hplus =>
          obtain hname : '+' :: name.toList = rest :=
            List.append_cancel_right ((List.cons_append ..).trans hend)
          exact absurd (by simp [← hname]) hplus
        | many h => rwa [List.append_cancel_right (List.cons.inj hend).2]

end Segments

namespace Template

variable {text : String} {t : Template} {s : Spelling}

/-- The path of segments that are read does not begin with a slash. -/
theorem ReadFrom.head?_path (h : t.ReadFrom text s) : s.path.head? ≠ some '/' := by
  obtain ⟨segments, verb⟩ := s
  obtain ⟨first, rest, rfl⟩ := List.exists_cons_of_ne_nil h.exact.segments_ne_nil
  obtain ⟨x, -, hx, -, -⟩ := List.forall₂_cons_left_iff.1 h.segments
  obtain ⟨c, tail, rfl⟩ := List.exists_cons_of_ne_nil hx.ne_nil
  have hsolid : Solid '/' 0 (c :: tail) := h.exact.segments _ List.mem_cons_self
  have hhead : (Spelling.path ⟨(c :: tail) :: rest, verb⟩).head? = some c := by
    cases rest <;> simp [Spelling.path]
  rw [hhead]
  rintro ⟨⟩
  exact ((solid_cons_iff depthBehind?_slash).1 hsolid).1 ⟨rfl, rfl⟩

/-- A path behind a slash that may be left out is read if and only if it has a spelling that is
read. -/
theorem readBody_resource_eq_ok_iff {body : List Char} :
    readBody readResourceSegment body = .ok t ↔ ∃ s : Spelling, s.Exact ∧ s.path = body ∧
      List.Forall₂ ReadsAs s.segments t.segments ∧ t.verb = s.verb.map String.ofList := by
  rw [readBody_eq_ok_iff]
  refine exists_congr fun s => and_congr_right fun hexact => and_congr_right fun _ =>
    and_congr_left' ?_
  constructor
  · intro hread
    have hsolid := (List.forall₂_and_left _ _).2 ⟨hexact.segments, hread⟩
    exact hsolid.imp fun piece x hpiece => readsAs_of_readResourceSegment hpiece.1 hpiece.2
  · exact fun hread => hread.imp fun piece x hpiece => readResourceSegment_of_readsAs hpiece

/-- A path is read as a template if and only if it has a spelling from which the template is
read. -/
theorem parseResource_eq_ok_iff : parseResource text = .ok t ↔ ∃ s, t.ReadFrom text s := by
  rw [parseResource, Attempt.mapError_eq_ok]
  constructor
  · intro h
    unfold parseResourceFault at h
    split at h
    case h_1 body htext =>
      obtain ⟨s, hexact, rfl, hsegments, hverb⟩ := readBody_resource_eq_ok_iff.1 h
      exact ⟨s, hexact, .inr htext, hsegments, hverb⟩
    case h_2 =>
      obtain ⟨s, hexact, hpath, hsegments, hverb⟩ := readBody_resource_eq_ok_iff.1 h
      exact ⟨s, hexact, .inl hpath.symm, hsegments, hverb⟩
  · rintro ⟨s, h⟩
    have hread : readBody readResourceSegment s.path = .ok t :=
      readBody_resource_eq_ok_iff.2 ⟨s, h.exact, rfl, h.segments, h.verb⟩
    rcases h.path with htext | htext
    · have hhead : text.toList.head? ≠ some '/' := htext ▸ h.head?_path
      unfold parseResourceFault
      split
      case h_1 body hbody => exact absurd (by simp [hbody]) hhead
      case h_2 => rwa [htext]
    · simp only [parseResourceFault, htext]
      exact hread

/-- All variables are single if and only if each segment is a literal or a placeholder. -/
theorem ReadFrom.single_iff (h : t.ReadFrom text s) :
    (∀ v ∈ t.variableList, v.Single) ↔
      ∀ piece ∈ s.segments, Grammar.Literal piece ∨ Grammar.Placeholder piece := by
  have hall : ∀ {pieces : List (List Char)} {segments : List Segment},
      List.Forall₂ ReadsAs pieces segments →
      ((∀ v ∈ segments.filterMap Segment.variable?, v.Single) ↔
        ∀ piece ∈ pieces, Grammar.Literal piece ∨ Grammar.Placeholder piece) := by
    intro pieces segments hread
    induction hread with
    | nil => simp
    | @cons piece x pieces segments hfirst _ ih =>
      rw [List.forall_mem_cons, ← ih, ← hfirst.single_iff]
      cases x <;> simp [ Segment.variable?]
  exact hall h.segments

/-- Which paths are read, and as what: a template is read from a path exactly if it is read from a
spelling of it, segment by segment, and a segment with braces at both ends is one variable. All
variables of a template that is read are single if and only if each segment of the path is a literal
or one placeholder. -/
theorem parseResource_exact (text : String) (t : Template) :
    (parseResource text = .ok t ↔ ∃ s, t.ReadFrom text s) ∧
      ∀ s, t.ReadFrom text s → ((∀ v ∈ t.variableList, v.Single) ↔
        ∀ piece ∈ s.segments, Grammar.Literal piece ∨ Grammar.Placeholder piece) :=
  ⟨parseResource_eq_ok_iff, fun _ => ReadFrom.single_iff⟩

/-- In the path of a zone and the rest behind it, each segment is a literal or one placeholder. -/
theorem parseResource_exact_zone :
    ∃ t s, parseResource "zones/\x7bzone\x7d/\x7b+rest\x7d:stop" = .ok t ∧
      t.ReadFrom "zones/\x7bzone\x7d/\x7b+rest\x7d:stop" s ∧
      ∀ piece ∈ s.segments, Grammar.Literal piece ∨ Grammar.Placeholder piece := by
  have hread : parseResource "zones/\x7bzone\x7d/\x7b+rest\x7d:stop" =
      .ok ⟨[.literal "zones", .variable ⟨["zone"], ["*"], false⟩,
        .variable ⟨["rest"], ["**"], true⟩], some "stop"⟩ := by
    decide +kernel
  have hexact := parseResource_exact "zones/\x7bzone\x7d/\x7b+rest\x7d:stop"
    ⟨[.literal "zones", .variable ⟨["zone"], ["*"], false⟩,
      .variable ⟨["rest"], ["**"], true⟩], some "stop"⟩
  obtain ⟨s, hs⟩ := hexact.1.1 hread
  refine ⟨_, s, hread, hs, (hexact.2 s hs).1 ?_⟩
  have hvariables : ∀ v ∈ [(⟨["zone"], ["*"], false⟩ : Variable),
      ⟨["rest"], ["**"], true⟩], v.Single := by
    intro v hv
    rcases List.mem_pair.1 hv with rfl | rfl
    · exact ⟨"zone", rfl, by decide⟩
    · exact ⟨"rest", rfl, by decide⟩
  exact hvariables

/-- Two placeholders in one segment are read as one variable, which no placeholder could name. -/
theorem not_single_joinedPlaceholders :
    parseResource "zones/\x7bzone\x7d-\x7bdisk\x7d" =
        .ok ⟨[.literal "zones", .variable ⟨["zone\x7d-\x7bdisk"], ["*"], false⟩], none⟩ ∧
      ¬ (⟨["zone\x7d-\x7bdisk"], ["*"], false⟩ : Variable).Single := by
  refine ⟨by decide +kernel, ?_⟩
  rintro ⟨name, hname, hliteral⟩
  obtain rfl : "zone\x7d-\x7bdisk" = name := by simpa using hname
  exact absurd hliteral (by decide)

end Template

end ApiModel.Path
