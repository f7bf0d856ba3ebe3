import ApiModel.Proofs.Path.Grammar

/-!
# Derivations of path templates

The grammar of the annotation spelling, as derivations of texts from its rules. Every text that is
read is derived if a verb may be a balanced text. The grammar has literals for verbs, and a text
that is read is derived from it exactly if there is no brace in the verb that was read: all other
parts of a template have none, but nothing looks for braces behind the colon.
-/

namespace ApiModel.Path

namespace Grammar

/-- A literal: a run of characters other than slashes and braces, at least one. -/
def Literal (text : List Char) : Prop :=
  text ≠ [] ∧ Avoids ['/', '\x7b', '\x7d'] text

instance (text : List Char) : Decidable (Literal text) :=
  inferInstanceAs (Decidable (text ≠ [] ∧ Avoids ['/', '\x7b', '\x7d'] text))

/-- Items with a separator between them, at least one. -/
inductive Items (separator : Char) (item : List Char → Prop) : List Char → Prop
  /-- One item. -/
  | one {text : List Char} (h : item text) : Items separator item text
  /-- An item before others. -/
  | cons {first rest : List Char} (h : item first) (hrest : Items separator item rest) :
    Items separator item (first ++ separator :: rest)

/-- A field path: field names with dots between them. -/
def FieldPath : List Char → Prop :=
  Items '.' fun name => FieldName (String.ofList name)

/-- A capture: a wildcard or a literal. -/
inductive Capture : List Char → Prop
  /-- The wildcard for one segment. -/
  | one : Capture oneSegment.toList
  /-- The wildcard for any number of segments. -/
  | many : Capture manySegments.toList
  /-- A literal. -/
  | literal {text : List Char} (h : Literal text) : Capture text

/-- A variable: a field path between braces, which captures may follow. -/
inductive Variable : List Char → Prop
  /-- A field path alone. -/
  | plain {path : List Char} (h : FieldPath path) : Variable ('\x7b' :: (path ++ ['\x7d']))
  /-- A field path with captures behind an equals sign. -/
  | capturing {path captures : List Char} (h : FieldPath path)
      (hcaptures : Items '/' Capture captures) :
    Variable ('\x7b' :: (path ++ '=' :: captures ++ ['\x7d']))

/-- A segment: a literal or a variable. -/
inductive Segment : List Char → Prop
  /-- A literal. -/
  | literal {text : List Char} (h : Literal text) : Segment text
  /-- A variable. -/
  | variable {text : List Char} (h : Variable text) : Segment text

/-- A template: segments behind slashes, which a verb may follow. -/
inductive Template (verb : List Char → Prop) : List Char → Prop
  /-- Segments alone. -/
  | plain {segments : List Char} (h : Items '/' Segment segments) : Template verb ('/' :: segments)
  /-- Segments with a verb behind a colon. -/
  | withVerb {segments text : List Char} (h : Items '/' Segment segments) (hverb : verb text) :
    Template verb ('/' :: (segments ++ ':' :: text))

variable {separator : Char} {item : List Char → Prop} {text : List Char}

/-- Items that are joined are items with the separator between them. -/
theorem items_intercalate {pieces : List (List Char)} (hne : pieces ≠ [])
    (h : ∀ piece ∈ pieces, item piece) :
    Items separator item ([separator].intercalate pieces) := by
  induction pieces with
  | nil => exact absurd rfl hne
  | cons piece more ih =>
    obtain ⟨hpiece, hmore⟩ := List.forall_mem_cons.1 h
    cases more with
    | nil => simpa using Items.one hpiece
    | cons other more => simpa using Items.cons hpiece (ih (by simp) hmore)

/-- Texts that are joined are items with the separator between them. -/
theorem items_intercalate_toList {texts : List String} (hne : texts ≠ [])
    (h : ∀ piece ∈ texts, item piece.toList) :
    Items separator item (String.intercalate (String.singleton separator) texts).toList := by
  rw [String.toList_intercalate]
  have hall : ∀ piece ∈ texts.map String.toList, item piece := by simpa using h
  simpa using items_intercalate (by simpa using hne) hall

/-! ## What is read is derived -/

/-- A capture of a well-formed variable is a literal. -/
theorem literal_of_capture {capture : String} (h : Path.Capture capture) : Literal capture.toList :=
  ⟨by simpa using h.1, h.2.of_subset (by simp)⟩

/-- A literal segment of a well-formed template is a literal. -/
theorem literal_of_wellFormed {literal : String} (h : (Path.Segment.literal literal).WellFormed) :
    Literal literal.toList :=
  ⟨by simpa using h.1, h.2.1⟩

/-- What spells a well-formed variable is derived. -/
theorem variable_of_spelled {v : Path.Variable} (hwell : v.WellFormed) {text : String}
    (h : v.Spelled text) : Variable text.toList := by
  have hpath : FieldPath v.fieldName.toList :=
    items_intercalate_toList hwell.fieldPath_ne_nil fun name hname => by
      simpa using hwell.fieldPath name hname
  obtain ⟨inner, htext, hinner⟩ := Variable.spelled_iff.1 h
  rw [htext]
  rcases hinner with ⟨-, rfl⟩ | rfl
  · exact .plain hpath
  · have hcaptures : Items '/' Capture (String.intercalate "/" v.captures).toList :=
      items_intercalate_toList hwell.captures_ne_nil fun capture hcapture =>
        .literal (literal_of_capture (hwell.captures capture hcapture))
    exact .capturing hpath hcaptures

/-- What spells a well-formed segment is derived. -/
theorem segment_of_spelled {s : Path.Segment} (hwell : s.WellFormed) {text : String}
    (h : s.Spelled text) : Segment text.toList := by
  cases s with
  | literal literal =>
    obtain rfl : text = literal := h
    exact .literal (literal_of_wellFormed hwell)
  | «variable» v => exact .variable (variable_of_spelled hwell h)

/-- What spells a well-formed template is derived, whatever its verb is. -/
theorem template_of_spelled {t : Path.Template} (hwell : t.WellFormed) {text : String}
    (h : t.Spelled text) {verb : List Char → Prop}
    (hverb : ∀ word ∈ t.verb, verb word.toList) :
    Template verb text.toList := by
  obtain ⟨pieces, hpieces, htext⟩ := h
  have hne : pieces ≠ [] := by
    rintro rfl
    exact hwell.segments_ne_nil (List.forall₂_nil_right_iff.1 hpieces)
  have hsegments : Items '/' Segment (['/'].intercalate (pieces.map String.toList)) := by
    refine items_intercalate (by simpa using hne) ?_
    have hread := (List.forall₂_and_left _ _).2 ⟨hwell.segments, hpieces⟩
    have hall := Attempt.exists_mem_left hread
    rw [List.forall_mem_map]
    intro piece hpiece
    obtain ⟨s, -, hs, hspelled⟩ := hall piece hpiece
    exact segment_of_spelled hs hspelled
  rw [(Template.toList_eq_path_iff hne t.verb).2 htext]
  cases hword : t.verb with
  | none => simpa [Spelling.path] using Template.plain hsegments
  | some word => exact .withVerb hsegments (hverb word hword)

/-! ## Braces behind a colon -/

/-- Items avoid what each of them and the separator avoid. -/
theorem Items.avoids {forbidden : List Char} (h : Items separator item text)
    (hseparator : separator ∉ forbidden) (hitem : ∀ text, item text → Avoids forbidden text) :
    Avoids forbidden text := by
  induction h with
  | one h => exact hitem _ h
  | cons h _ ih =>
    intro c hc
    rcases List.mem_append.1 hc with hc | hc
    · exact hitem _ h c hc
    · rcases List.mem_cons.1 hc with rfl | hc
      · exact hseparator
      · exact ih c hc

/-- A field path avoids braces. -/
theorem avoids_fieldPath (h : FieldPath text) : Avoids ['\x7b', '\x7d'] text := by
  refine h.avoids (by decide) fun name hname c hc hbrace => ?_
  have hmem : c ∈ (String.ofList name).toList := by simpa using hc
  rcases List.mem_pair.1 hbrace with rfl | rfl
  · exact hname.notMem rfl (by decide) hmem
  · exact hname.notMem rfl (by decide) hmem

/-- Captures avoid braces. -/
theorem avoids_captures (h : Items '/' Capture text) : Avoids ['\x7b', '\x7d'] text := by
  refine h.avoids (by decide) fun text hcapture => ?_
  cases hcapture with
  | one => decide
  | many => decide
  | literal h => exact h.2.of_subset (by simp)

/-- A variable exposes nothing but its braces. -/
theorem solid_variable (h : Variable text) {c : Char} (hc : c ≠ '\x7b') : Solid c 0 text := by
  cases h with
  | plain h => exact solid_braced (avoids_fieldPath h) hc
  | @capturing path captures h hcaptures =>
    have hinner : Avoids ['\x7b', '\x7d'] (path ++ '=' :: captures) := by
      intro x hx
      rcases List.mem_append.1 hx with hx | hx
      · exact avoids_fieldPath h x hx
      · rcases List.mem_cons.1 hx with rfl | hx
        · decide
        · exact avoids_captures hcaptures x hx
    exact solid_braced hinner hc

/-- A segment closes its braces. -/
theorem closes_segment (h : Segment text) : Closes 0 text := by
  cases h with
  | literal h =>
    have hbraces : Avoids ['\x7b', '\x7d'] text := h.2.of_subset (by simp)
    exact ((solid_iff_notMem hbraces).2 fun hslash => h.2 _ hslash (by simp) : Solid '/' 0 text).1
  | «variable» h => exact (solid_variable h (by decide) : Solid '/' 0 text).1

/-- Whether there is no brace behind a colon that stands outside braces in the last segment of a
text. -/
def PlainBehindColon (text : List Char) : Prop :=
  ∀ before after, text = before ++ ':' :: after → before.count '\x7d' = before.count '\x7b' →
    ¬ Exposed '/' 0 after → Avoids ['\x7b', '\x7d'] after

/-- Behind a colon outside the braces of a segment there is no brace. -/
theorem plainBehindColon_segment (h : Segment text) : PlainBehindColon text := by
  rintro before after rfl hcount -
  cases h with
  | literal h => exact fun c hc hbrace => h.2 c (by simp [hc]) (List.mem_cons_of_mem _ hbrace)
  | «variable» h =>
    have hsolid : Solid ':' 0 (before ++ ':' :: after) := solid_variable h (by decide)
    exact absurd ⟨before, after, rfl, by simpa using hcount⟩ hsolid.2

/-- Behind a colon outside braces in the last of segments there is no brace. -/
theorem plainBehindColon_segments (h : Items '/' Segment text) : PlainBehindColon text := by
  induction h with
  | one h => exact plainBehindColon_segment h
  | @cons first rest h _ ih =>
    intro before after htext hcount hslash
    have hclosed : first.count '\x7d' = first.count '\x7b' := by simpa using (closes_segment h).2
    rcases List.append_eq_append_iff.1 htext with
      ⟨middle, rfl, hrest⟩ | ⟨middle, rfl, hafter⟩
    · -- the colon stands in the other segments
      cases middle with
      | nil => simp at hrest
      | cons c middle =>
        obtain ⟨rfl, rfl⟩ : '/' = c ∧ rest = middle ++ ':' :: after := by simpa using hrest
        refine ih middle after rfl ?_ hslash
        simp only [List.count_append, List.count_cons] at hcount
        simpa [hclosed] using hcount
    · -- the colon stands in the first segment, and a slash outside braces behind it
      cases middle with
      | nil => simp at hafter
      | cons c middle =>
        obtain ⟨rfl, rfl⟩ : ':' = c ∧ after = middle ++ '/' :: rest := by simpa using hafter
        refine absurd ⟨middle, rest, rfl, ?_⟩ hslash
        simp only [List.count_append, List.count_cons, hcount] at hclosed
        simpa using hclosed

/-- In a derived text, there is no brace behind a colon outside braces in the last segment. -/
theorem plainBehindColon_template (h : Template Literal text) : PlainBehindColon text := by
  have hdrop : ∀ path, PlainBehindColon path → PlainBehindColon ('/' :: path) := by
    intro path hpath before after htext hcount hslash
    cases before with
    | nil => simp at htext
    | cons c before =>
      obtain ⟨rfl, hpathEq⟩ : '/' = c ∧ path = before ++ ':' :: after := by simpa using htext
      exact hpath before after hpathEq (by simpa [List.count_cons] using hcount) hslash
  cases h with
  | plain h => exact hdrop _ (plainBehindColon_segments h)
  | @withVerb segments word h hverb =>
    have hword : Avoids ['\x7b', '\x7d'] word := hverb.2.of_subset (by simp)
    refine hdrop _ fun before after htext hcount hslash => ?_
    rcases List.append_eq_append_iff.1 htext with
      ⟨middle, rfl, hrest⟩ | ⟨middle, rfl, hafter⟩
    · -- the colon stands before the verb or in it
      have hsuffix : after <:+ word := by
        cases middle with
        | nil =>
          obtain rfl : word = after := by simpa using hrest
          exact List.suffix_rfl
        | cons c middle =>
          obtain ⟨-, rfl⟩ : ':' = c ∧ word = middle ++ ':' :: after := by simpa using hrest
          exact ⟨middle ++ [':'], by simp⟩
      exact fun c hc => hword c (hsuffix.subset hc)
    · -- the colon stands in the last segment, before the colon of the verb
      cases middle with
      | nil =>
        obtain rfl : word = after := by simpa using hafter.symm
        exact hword
      | cons c middle =>
        obtain ⟨rfl, rfl⟩ : ':' = c ∧ after = middle ++ ':' :: word := by simpa using hafter
        have hmiddle : Avoids ['\x7b', '\x7d'] middle := by
          refine plainBehindColon_segments h before middle rfl hcount ?_
          rintro ⟨front, back, rfl, hfront⟩
          exact hslash ⟨front, back ++ ':' :: word, by simp, hfront⟩
        intro x hx
        rcases List.mem_append.1 hx with hx | hx
        · exact hmiddle x hx
        · rcases List.mem_cons.1 hx with rfl | hx
          · decide
          · exact hword x hx

end Grammar

/-! ## What is read -/

namespace Template

/-- The verb that is read stands behind a colon outside braces in the last segment. -/
theorem exists_before_verb {text : String} {t : Template} (h : parse text = .ok t) {verb : String}
    (hverb : t.verb = some verb) :
    ∃ before, text.toList = before ++ ':' :: verb.toList ∧
      before.count '\x7d' = before.count '\x7b' ∧ ¬ Exposed '/' 0 verb.toList := by
  obtain ⟨⟨segments, word⟩, hexact, htext, -, hword⟩ := parse_eq_ok_iff_spelling.1 h
  obtain ⟨word, rfl, rfl⟩ : ∃ text, word = some text ∧ String.ofList text = verb := by
    simpa [hverb, eq_comm] using hword
  have hclosed : Closes 0 (['/'].intercalate segments) :=
    ((splitOutside_eq_iff depthBehind?_slash).2 ⟨hexact.segments_ne_nil,
      hexact.segments, rfl⟩).1
  refine ⟨'/' :: ['/'].intercalate segments, ?_, ?_, ?_⟩
  · simpa [Spelling.path] using htext
  · simpa [List.count_cons] using hclosed.2
  · simpa using (hexact.verb word rfl).2.1.2

/-- If a text that is read is derived from the grammar, there is no brace in its verb. -/
theorem avoids_verb_of_derived {text : String} {t : Template} (h : parse text = .ok t)
    (hderived : Grammar.Template Grammar.Literal text.toList) :
    ∀ verb ∈ t.verb, Avoids ['\x7b', '\x7d'] verb.toList := by
  intro verb hverb
  obtain ⟨before, htext, hcount, hslash⟩ := exists_before_verb h hverb
  exact Grammar.plainBehindColon_template hderived before verb.toList htext hcount hslash

/-- A verb without braces is a literal. -/
theorem literal_of_verb {verb : String} (h : Verb verb)
    (hbraces : Avoids ['\x7b', '\x7d'] verb.toList) :
    Grammar.Literal verb.toList := by
  have hslash : '/' ∉ verb.toList := (solid_iff_notMem hbraces).1 ⟨h.2.1, h.2.2.1⟩
  refine ⟨by simpa using h.1, fun c hc hmem => ?_⟩
  rcases List.mem_cons.1 hmem with rfl | hbrace
  · exact hslash hc
  · exact hbraces c hc hbrace

/-- A text that is read is derived from the grammar with a balanced text for the verb, and no brace
is in a literal or a capture. It is derived with a literal for the verb, as the grammar has it, if
and only if there is no brace in the verb that was read. -/
theorem derived_iff_of_parse {text : String} {t : Template} (h : parse text = .ok t) :
    Grammar.Template (fun verb => Verb (String.ofList verb)) text.toList ∧
      (∀ literal, .literal literal ∈ t.segments → Grammar.Literal literal.toList) ∧
      (∀ v ∈ t.variableList, ∀ capture ∈ v.captures, Grammar.Literal capture.toList) ∧
      (Grammar.Template Grammar.Literal text.toList ↔
        ∀ verb ∈ t.verb, Avoids ['\x7b', '\x7d'] verb.toList) := by
  obtain ⟨hwell, hspelled⟩ := parse_eq_ok_iff.1 h
  refine ⟨?_, ?_, ?_, avoids_verb_of_derived h, fun hbraces => ?_⟩
  · exact Grammar.template_of_spelled hwell hspelled fun verb hverb => by
      simpa using hwell.verb verb hverb
  · exact fun literal hliteral => Grammar.literal_of_wellFormed (hwell.segments _ hliteral)
  · intro v hv capture hcapture
    obtain ⟨s, hs, hsv⟩ := List.mem_filterMap.1 hv
    cases s with
    | literal literal => cases hsv
    | «variable» w =>
      obtain rfl : w = v := Option.some.inj hsv
      exact Grammar.literal_of_capture ((hwell.segments _ hs).captures capture hcapture)
  · exact Grammar.template_of_spelled hwell hspelled fun verb hverb =>
      literal_of_verb (hwell.verb verb hverb) (hbraces verb hverb)

/-- A path with captures and a verb is read, and it is derived. -/
theorem derived_iff_of_parse_move :
    ∃ t, parse "/v1/\x7bname=shelves/*\x7d:move" = .ok t ∧ t.verb = some "move" ∧
      Grammar.Template Grammar.Literal "/v1/\x7bname=shelves/*\x7d:move".toList := by
  have hread : parse "/v1/\x7bname=shelves/*\x7d:move" =
      .ok ⟨[.literal "v1", .variable ⟨["name"], ["shelves", "*"], false⟩],
        some "move"⟩ := by
    decide +kernel
  have hbraces : ∀ verb ∈ some "move", Avoids ['\x7b', '\x7d'] verb.toList := by
    decide
  exact ⟨_, hread, rfl, (derived_iff_of_parse hread).2.2.2.2 hbraces⟩

/-- A path with braces in its verb is read, though it is not derived. -/
theorem not_derived_bracedVerb :
    parse "/v1/shelves:\x7bmove\x7d" =
      .ok ⟨[.literal "v1", .literal "shelves"], some "\x7bmove\x7d"⟩ ∧
      ¬ Grammar.Template Grammar.Literal "/v1/shelves:\x7bmove\x7d".toList := by
  have hread : parse "/v1/shelves:\x7bmove\x7d" =
      .ok ⟨[.literal "v1", .literal "shelves"], some "\x7bmove\x7d"⟩ := by
    decide +kernel
  refine ⟨hread, fun hderived => ?_⟩
  have hbraces : Avoids ['\x7b', '\x7d'] "\x7bmove\x7d".toList :=
    avoids_verb_of_derived hread hderived "\x7bmove\x7d" rfl
  exact absurd hbraces (by decide)

end Template

end ApiModel.Path
