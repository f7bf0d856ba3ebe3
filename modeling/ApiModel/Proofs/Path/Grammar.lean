import Mathlib.Data.List.Forall2
import ApiModel.Proofs.Path.Spelling

/-!
# The grammar of path templates

A template is well formed if its text could be read again, and a text spells a template if it is the
shown text up to the two ways to write a variable that captures one segment. Reading succeeds with a
template exactly if the template is well formed and the text spells it. The proof goes up the
grammar: captures and field names, variables, segments, and the path.
-/

namespace ApiModel.Path

/-- A field name: ASCII letters, digits and underscores, at least one. -/
def FieldName (name : String) : Prop :=
  name ≠ "" ∧ ∀ c ∈ name.toList, c.isAlphanum = true ∨ c = '_'

/-- A capture: neither empty nor with a character that would end it or begin another variable. -/
def Capture (capture : String) : Prop :=
  capture ≠ "" ∧ Avoids ['/', '\x7b', '\x7d', '='] capture.toList

/-- A variable that the annotation spelling can express. -/
structure Variable.WellFormed (v : Variable) : Prop where
  /-- The field path has a name. -/
  fieldPath_ne_nil : v.fieldPath ≠ []
  /-- The names are field names. -/
  fieldPath : ∀ name ∈ v.fieldPath, FieldName name
  /-- Something is captured. -/
  captures_ne_nil : v.captures ≠ []
  /-- What is captured can be written between slashes. -/
  captures : ∀ capture ∈ v.captures, Capture capture
  /-- Reserved characters are not allowed: the spelling has no sign for that. -/
  allowReserved : v.allowReserved = false

/-- A segment that the annotation spelling can express. -/
def Segment.WellFormed : Segment → Prop
  | .literal text => text ≠ "" ∧ Avoids ['/', '\x7b', '\x7d'] text.toList ∧
      text ≠ oneSegment ∧ text ≠ manySegments
  | .variable v => v.WellFormed

/-- A verb: not empty, with balanced braces and without a slash or a colon outside them. -/
def Verb (verb : String) : Prop :=
  verb ≠ "" ∧ Closes 0 verb.toList ∧ ¬ Exposed '/' 0 verb.toList ∧
    ¬ Exposed ':' 0 verb.toList

/-- A template that the annotation spelling can express. -/
structure Template.WellFormed (t : Template) : Prop where
  /-- A path has a segment. -/
  segments_ne_nil : t.segments ≠ []
  /-- Every segment can be expressed. -/
  segments : ∀ s ∈ t.segments, s.WellFormed
  /-- Without a verb, a literal at the end has no colon that would begin one. -/
  last : t.verb = none → ∀ text, t.segments.getLast? = some (.literal text) →
    ':' ∉ text.toList
  /-- The verb can be expressed. -/
  verb : ∀ verb, t.verb = some verb → Verb verb

/-- The texts of a variable: the shown one, or with its only one-segment capture written out. -/
def Variable.Spelled (v : Variable) (text : String) : Prop :=
  text = v.display ∨
    v.captures = [oneSegment] ∧ text = "\x7b" ++ v.fieldName ++ "=" ++ oneSegment ++ "\x7d"

/-- The texts of a segment. -/
def Segment.Spelled : Segment → String → Prop
  | .literal text, spelled => spelled = text
  | .variable v, spelled => v.Spelled spelled

/-- The texts of a template: a slash before the text of every segment, a colon before the verb. -/
def Template.Spelled (t : Template) (text : String) : Prop :=
  ∃ pieces, List.Forall₂ Segment.Spelled t.segments pieces ∧
    text = String.join (pieces.map ("/" ++ ·)) ++
      (match t.verb with
       | none => ""
       | some verb => ":" ++ verb)

section Pieces

variable {separator : Char} {text : List Char}

/-- The split at a character is the standard one. -/
theorem pieces_eq_splitOn : Text.pieces (· == separator) text = text.splitOn separator := by
  induction text with
  | nil => simp [Text.pieces]
  | cons c text ih =>
    rw [Text.pieces, List.splitOn_cons_eq_if_modifyHead, ih]
    cases hsplit : text.splitOn separator with
    | nil => exact absurd hsplit (List.splitOn_ne_nil separator text)
    | cons piece more => simp

/-- A piece between separators does not contain the separator. -/
theorem notMem_of_mem_splitOn {piece : List Char} (h : piece ∈ text.splitOn separator) :
    separator ∉ piece := by
  induction text generalizing piece with
  | nil => simp_all
  | cons c text ih =>
    rw [List.splitOn_cons_eq_if_modifyHead] at h
    cases hsplit : text.splitOn separator with
    | nil => exact absurd hsplit (List.splitOn_ne_nil separator text)
    | cons first more =>
      rw [hsplit] at h ih
      by_cases hc : c = separator
      · have hcases : piece = [] ∨ piece ∈ first :: more := by simpa [hc] using h
        rcases hcases with rfl | hmem
        · simp
        · exact ih hmem
      · have hcases : piece = c :: first ∨ piece ∈ more := by simpa [hc] using h
        rcases hcases with rfl | hmem
        · have hfirst : separator ∉ first := ih List.mem_cons_self
          simpa [hfirst] using Ne.symm hc
        · exact ih (List.mem_cons_of_mem first hmem)

/-- The pieces of a text are the texts without separator it is joined from. -/
theorem pieces_eq_iff {pieces : List (List Char)} :
    Text.pieces (· == separator) text = pieces ↔
      pieces ≠ [] ∧ (∀ piece ∈ pieces, separator ∉ piece) ∧
        [separator].intercalate pieces = text := by
  rw [pieces_eq_splitOn]
  constructor
  · rintro rfl
    exact ⟨List.splitOn_ne_nil separator text, fun piece => notMem_of_mem_splitOn,
      List.intercalate_splitOn separator⟩
  · rintro ⟨hne, hfree, rfl⟩
    exact List.splitOn_intercalate separator hfree hne

/-- The first separator of a text is the one with none before it. -/
theorem splitFirst?_eq_some_iff {before after : List Char} :
    Text.splitFirst? separator text = some (before, after) ↔
      text = before ++ separator :: after ∧ separator ∉ before := by
  induction text generalizing before with
  | nil => simp [Text.splitFirst?]
  | cons c text ih =>
    cases before with
    | nil =>
      by_cases hc : c = separator
      · simp [Text.splitFirst?, hc]
      · simp [Text.splitFirst?, hc]
    | cons x before =>
      by_cases hc : c = separator
      · subst hc
        simp +contextual [Text.splitFirst?]
      · have hx : c = x → separator ≠ x := by
          rintro rfl
          exact Ne.symm hc
        simp [Text.splitFirst?, hc, ih, and_assoc, and_left_comm]
        tauto

/-- A text is not split at its first separator if and only if it has none. -/
theorem splitFirst?_eq_none_iff : Text.splitFirst? separator text = none ↔
    separator ∉ text := by
  induction text with
  | nil => simp [Text.splitFirst?]
  | cons c text ih =>
    by_cases hc : c = separator
    · simp [Text.splitFirst?, hc]
    · simp [Text.splitFirst?, hc, ih, Ne.symm hc]

end Pieces

section Variables

/-- The scan for field names accepts exactly the field names. -/
theorem isIdentifier_toList {name : String} : isIdentifier name.toList = true ↔
    FieldName name := by
  simp [isIdentifier, FieldName]

/-- A field name has no characters but letters, digits and underscores. -/
theorem FieldName.notMem {name : String} (h : FieldName name) {c : Char}
    (hc : c.isAlphanum = false) (hne : c ≠ '_') : c ∉ name.toList := by
  intro hmem
  rcases h.2 c hmem with halnum | hunder
  · simp [hc] at halnum
  · exact hne hunder

/-- Joined pieces have only the characters of the pieces and the separator. -/
theorem notMem_intercalate {separator c : Char} {pieces : List (List Char)} (hc : c ≠ separator)
    (h : ∀ piece ∈ pieces, c ∉ piece) : c ∉ [separator].intercalate pieces := by
  induction pieces with
  | nil => simp
  | cons piece more ih =>
    obtain ⟨hpiece, hmore⟩ := List.forall_mem_cons.1 h
    cases more with
    | nil => simpa using hpiece
    | cons other more => simpa [hpiece, hc] using ih hmore

/-- A text is split into the names whose joined text it is. -/
theorem pieces_eq_map_toList_iff {separator : Char} {text : List Char} {names : List String} :
    Text.pieces (· == separator) text = names.map String.toList ↔
      names ≠ [] ∧ (∀ name ∈ names, separator ∉ name.toList) ∧
        text = (String.intercalate (String.singleton separator) names).toList := by
  rw [pieces_eq_iff]
  simp [String.toList_intercalate, @eq_comm _ text]

/-- The dotted text of a field path is the one that is split into its names. -/
theorem fieldPath_iff {path : List Char} {fieldPath : List String} :
    (Text.pieces (· == '.') path).all isIdentifier = true ∧
        (Text.pieces (· == '.') path).map String.ofList = fieldPath ↔
      (fieldPath ≠ [] ∧ ∀ name ∈ fieldPath, FieldName name) ∧
        path = (String.intercalate "." fieldPath).toList := by
  constructor
  · rintro ⟨hall, hnames⟩
    have hpieces : Text.pieces (· == '.') path = fieldPath.map String.toList := by
      simp [← hnames, Function.comp_def]
    obtain ⟨hne, -, htext⟩ := pieces_eq_map_toList_iff.1 hpieces
    refine ⟨⟨hne, fun name hname => ?_⟩, htext⟩
    rw [hpieces, List.all_map, List.all_eq_true] at hall
    exact isIdentifier_toList.1 (hall name hname)
  · rintro ⟨⟨hne, hnames⟩, htext⟩
    have hfree : ∀ name ∈ fieldPath, '.' ∉ name.toList :=
      fun name hname => (hnames name hname).notMem rfl (by decide)
    have hpieces : Text.pieces (· == '.') path = fieldPath.map String.toList :=
      pieces_eq_map_toList_iff.2 ⟨hne, hfree, htext⟩
    rw [hpieces]
    constructor
    · simpa [isIdentifier_toList] using hnames
    · simp [Function.comp_def]

/-- Items that are images of others, each with a property of its own. -/
theorem forall₂_eq_map_and_iff {α β : Type} {f : β → α} {P : β → Prop} {xs : List α}
    {ys : List β} :
    List.Forall₂ (fun x y => x = f y ∧ P y) xs ys ↔ xs = ys.map f ∧ ∀ y ∈ ys, P y := by
  induction ys generalizing xs with
  | nil => simp
  | cons y ys ih =>
    rw [List.forall₂_cons_right_iff]
    simp only [ih, List.map_cons, List.forall_mem_cons]
    constructor
    · rintro ⟨x, rest, ⟨rfl, hy⟩, ⟨rfl, hys⟩, rfl⟩
      exact ⟨rfl, hy, hys⟩
    · rintro ⟨rfl, hy, hys⟩
      exact ⟨f y, ys.map f, ⟨rfl, hy⟩, ⟨rfl, hys⟩, rfl⟩

/-- A capture is read as it is spelled. -/
theorem readCapture_eq_ok_iff {text : List Char} {capture : String} :
    readCapture text = .ok capture ↔
      text = capture.toList ∧ capture ≠ "" ∧ Avoids ['\x7b', '\x7d', '='] capture.toList := by
  have hany : text.any (fun c => c == '\x7b' || c == '\x7d' || c == '=') = false ↔
      Avoids ['\x7b', '\x7d', '='] text := by
    simp [Avoids, and_assoc]
  have hempty : text.isEmpty = false ↔ String.ofList text ≠ "" := by simp
  constructor
  · intro h
    unfold readCapture at h
    split at h
    case isTrue => cases h
    case isFalse hne =>
      split at h
      case isTrue => cases h
      case isFalse havoids =>
        obtain rfl : String.ofList text = capture := Except.ok.inj h
        rw [String.toList_ofList]
        exact ⟨rfl, hempty.1 (by simpa using hne), hany.1 (by simpa using havoids)⟩
  · rintro ⟨rfl, hne, havoids⟩
    rw [String.ofList_toList] at hempty
    simp [readCapture, hempty.2 hne, hany.2 havoids]

/-- Captures are read from their text between slashes. -/
theorem readCaptures_eq_ok_iff {text : List Char} {captures : List String} :
    (Text.pieces (· == '/') text).mapM readCapture = .ok captures ↔
      (captures ≠ [] ∧ ∀ capture ∈ captures, Capture capture) ∧
        text = (String.intercalate "/" captures).toList := by
  have hslash : ∀ capture : String, Capture capture ↔ '/' ∉ capture.toList ∧
    capture ≠ "" ∧
      Avoids ['\x7b', '\x7d', '='] capture.toList := by
    intro capture
    have havoids : Avoids ['/', '\x7b', '\x7d', '='] capture.toList ↔
        '/' ∉ capture.toList ∧ Avoids ['\x7b', '\x7d', '='] capture.toList := by
      simp [Avoids, forall_and, List.forall_mem_ne']
    rw [Capture, havoids]
    tauto
  rw [Attempt.mapM_eq_ok]
  simp only [readCapture_eq_ok_iff, forall₂_eq_map_and_iff, hslash, pieces_eq_map_toList_iff,
    forall_and]
  tauto

/-- What stands between the braces of a variable: the field path, with the captures behind an equals
sign unless the only one is the capture of one segment. -/
def Variable.Inside (v : Variable) (inner : List Char) : Prop :=
  v.captures = [oneSegment] ∧ inner = v.fieldName.toList ∨
    inner = v.fieldName.toList ++ '=' :: (String.intercalate "/" v.captures).toList

/-- The texts of a variable are those of its inside between braces. -/
theorem Variable.spelled_iff {v : Variable} {text : String} :
    v.Spelled text ↔ ∃ inner, text.toList = '\x7b' :: (inner ++ ['\x7d']) ∧
    v.Inside inner := by
  by_cases hone : v.captures = [oneSegment]
  · simp [Variable.Spelled, Variable.display, Variable.Inside, hone, ← String.toList_inj,
      and_or_left, exists_or]
  · simp [Variable.Spelled, Variable.display, Variable.Inside, hone, ← String.toList_inj]

/-- A field path has no equals sign, so that the first one stands before the captures. -/
theorem Variable.WellFormed.notMem_fieldName {v : Variable} (h : v.WellFormed) {c : Char}
    (halnum : c.isAlphanum = false) (hunder : c ≠ '_') (hdot : c ≠ '.') :
    c ∉ v.fieldName.toList := by
  have hnames : ∀ name ∈ v.fieldPath.map String.toList, c ∉ name := by
    simpa using fun name hname => (h.fieldPath name hname).notMem halnum hunder
  simpa [Variable.fieldName] using notMem_intercalate hdot hnames

/-- A variable that is read is well formed, and what was read is its inside. -/
theorem of_readVariable {inner : List Char} {v : Variable} (h : readVariable inner = .ok v) :
    v.WellFormed ∧ v.Inside inner := by
  unfold readVariable at h
  cases hsplit : Text.splitFirst? '=' inner with
  | none =>
    simp only [hsplit] at h
    split at h
    case isFalse => cases h
    case isTrue hall =>
      obtain rfl := Except.ok.inj h
      obtain ⟨⟨hne, hnames⟩, htext⟩ := fieldPath_iff.1 ⟨hall, rfl⟩
      have hcapture : Capture oneSegment := by
        simp [Capture, Avoids, oneSegment]
      exact ⟨⟨hne, hnames, by simp, by simpa using hcapture, rfl⟩, .inl ⟨rfl, htext⟩⟩
  | some parts =>
    obtain ⟨path, captures⟩ := parts
    simp only [hsplit] at h
    obtain ⟨rfl, -⟩ := splitFirst?_eq_some_iff.1 hsplit
    split at h
    case isFalse => cases h
    case isTrue hall =>
      obtain ⟨texts, htexts, h⟩ := Attempt.bind_eq_ok.1 h
      obtain rfl := Except.ok.inj h
      obtain ⟨⟨hne, hnames⟩, hpath⟩ := fieldPath_iff.1 ⟨hall, rfl⟩
      obtain ⟨⟨hcne, hcaptures⟩, hct⟩ := readCaptures_eq_ok_iff.1 htexts
      refine ⟨⟨hne, hnames, hcne, hcaptures, rfl⟩, .inr ?_⟩
      rw [← hct]
      exact congrArg (· ++ '=' :: captures) hpath

/-- A well-formed variable is read from each of its insides. -/
theorem readVariable_of_inside {inner : List Char} {v : Variable} (hwell : v.WellFormed)
    (hinner : v.Inside inner) : readVariable inner = .ok v := by
  have hequals : '=' ∉ v.fieldName.toList :=
    hwell.notMem_fieldName rfl (by decide) (by decide)
  have hpath : (Text.pieces (· == '.') v.fieldName.toList).all isIdentifier = true ∧
      (Text.pieces (· == '.') v.fieldName.toList).map String.ofList = v.fieldPath :=
    fieldPath_iff.2 ⟨⟨hwell.fieldPath_ne_nil, hwell.fieldPath⟩, rfl⟩
  obtain ⟨hall, hnames⟩ := hpath
  rcases hinner with ⟨hone, rfl⟩ | rfl
  · have hsplit := splitFirst?_eq_none_iff.2 hequals
    have hv : (⟨v.fieldPath, [oneSegment], false⟩ : Variable) = v := by
      rw [← hone, ← hwell.allowReserved]
    simp only [readVariable, hsplit, hall, if_true, hnames, hv]
    rfl
  · have hsplit := splitFirst?_eq_some_iff.2
      ⟨(rfl : v.fieldName.toList ++ '=' :: (String.intercalate "/" v.captures).toList = _),
        hequals⟩
    have hcaptures :=
      readCaptures_eq_ok_iff.2 ⟨⟨hwell.captures_ne_nil, hwell.captures⟩, rfl⟩
    have hv : (⟨v.fieldPath, v.captures, false⟩ : Variable) = v := by
      rw [← hwell.allowReserved]
    simp only [readVariable, hsplit, hall, if_true, hnames, hcaptures]
    exact congrArg Except.ok hv

/-- A variable is read from what stands between its braces. -/
theorem readVariable_eq_ok_iff {inner : List Char} {v : Variable} :
    readVariable inner = .ok v ↔ v.WellFormed ∧ v.Inside inner :=
  ⟨of_readVariable, fun h => readVariable_of_inside h.1 h.2⟩

end Variables

section Segments

/-- The inside of a text with braces at both ends is what stands between them. -/
theorem braced?_eq_some_iff {text inner : List Char} :
    braced? text = some inner ↔ text = '\x7b' :: (inner ++ ['\x7d']) := by
  constructor
  · intro h
    unfold braced? at h
    split at h
    case h_1 rest =>
      split at h
      case isTrue hlast =>
        obtain rfl : rest.dropLast = inner := Option.some.inj h
        have hrest := List.dropLast_append_getLast? '\x7d' (by simpa using hlast)
        rw [hrest]
      case isFalse => cases h
    case h_2 => cases h
  · rintro rfl
    simp [braced?]

/-- Where there are no braces, the scan for them finds none. -/
theorem hasBrace_eq_false_iff {text : List Char} :
    hasBrace text = false ↔ Avoids ['\x7b', '\x7d'] text := by
  simp [hasBrace, Avoids]

/-- A literal is a text without braces that is no bare wildcard. -/
theorem readSegment_eq_literal_iff {text : List Char} {literal : String} :
    readSegment text = .ok (.literal literal) ↔ text = literal.toList ∧ literal ≠ "" ∧
      Avoids ['\x7b', '\x7d'] literal.toList ∧ literal ≠ oneSegment ∧
      literal ≠ manySegments := by
  constructor
  · intro h
    unfold readSegment at h
    split at h
    case isTrue => cases h
    case isFalse hne =>
      split at h
      case isTrue =>
        split at h
        · obtain ⟨v, -, hv⟩ := Attempt.map_eq_ok.1 h
          cases hv
        · cases h
      case isFalse =>
        split at h
        case isTrue => cases h
        case isFalse hwild =>
          split at h
          case isTrue => cases h
          case isFalse hbrace =>
            obtain rfl : String.ofList text = literal := by simpa using h
            obtain ⟨hone, hmany⟩ := not_or.1 hwild
            have havoids : Avoids ['\x7b', '\x7d'] text :=
              hasBrace_eq_false_iff.1 (by simpa using hbrace)
            refine ⟨by simp, ?_, by simpa using havoids, ?_, ?_⟩
            · simpa using hne
            · rintro hstar
              exact hone (by rw [← hstar, String.toList_ofList])
            · rintro hstars
              exact hmany (by rw [← hstars, String.toList_ofList])
  · rintro ⟨rfl, hne, havoids, hone, hmany⟩
    have hempty : literal.toList ≠ [] := by simpa using hne
    have hhead : literal.toList.head? ≠ some '\x7b' := by
      intro hhead
      exact havoids _ (List.mem_of_mem_head? hhead) (by simp)
    have hwild :
        ¬ (literal.toList = oneSegment.toList ∨ literal.toList = manySegments.toList) := by
      simp only [String.toList_inj, not_or]
      exact ⟨hone, hmany⟩
    have hbrace : hasBrace literal.toList = false := hasBrace_eq_false_iff.2 havoids
    rw [readSegment, if_neg (by simpa using hempty), if_neg hhead, if_neg hwild, hbrace]
    simp

/-- A segment that begins with a brace is a variable between braces. -/
theorem readSegment_eq_variable_iff {text : List Char} {v : Variable} :
    readSegment text = .ok (.variable v) ↔
      ∃ inner, text = '\x7b' :: (inner ++ ['\x7d']) ∧ readVariable inner = .ok v := by
  constructor
  · intro h
    unfold readSegment at h
    split at h
    case isTrue => cases h
    case isFalse =>
      split at h
      case isTrue =>
        split at h
        case h_1 inner hinner =>
          obtain ⟨w, hw, hv⟩ := Attempt.map_eq_ok.1 h
          obtain rfl : w = v := by simpa using hv
          exact ⟨inner, braced?_eq_some_iff.1 hinner, hw⟩
        case h_2 => cases h
      case isFalse =>
        split at h
        case isTrue => cases h
        case isFalse =>
          split at h
          · cases h
          · simp at h
  · rintro ⟨inner, htext, hv⟩
    have hbraced : braced? text = some inner := braced?_eq_some_iff.2 htext
    have hempty : ¬ text.isEmpty = true := by simp [htext]
    have hhead : text.head? = some '\x7b' := by simp [htext]
    rw [readSegment, if_neg hempty, if_pos hhead, hbraced]
    exact Attempt.map_eq_ok.2 ⟨v, hv, rfl⟩

/-- A solid text is read as a segment exactly if it spells it and the segment can be expressed. -/
theorem readSegment_eq_ok_iff {text : List Char} {s : Segment} (h : Solid '/' 0 text) :
    readSegment text = .ok s ↔ s.WellFormed ∧ s.Spelled (String.ofList text) := by
  cases s with
  | literal literal =>
    rw [readSegment_eq_literal_iff]
    constructor
    · rintro ⟨rfl, hne, hbraces, hone, hmany⟩
      have hslash : '/' ∉ literal.toList := (solid_iff_notMem hbraces).1 h
      have havoids : Avoids ['/', '\x7b', '\x7d'] literal.toList := by
        intro c hc
        have hcs : c ≠ '/' := fun heq => hslash (heq ▸ hc)
        simpa [hcs] using hbraces c hc
      exact ⟨⟨hne, havoids, hone, hmany⟩, by simp [Segment.Spelled]⟩
    · rintro ⟨⟨hne, havoids, hone, hmany⟩, htext⟩
      have hliteral : text = literal.toList := by
        simp [← show String.ofList text = literal from htext]
      exact ⟨hliteral, hne, havoids.of_subset (by simp), hone, hmany⟩
  | «variable» v =>
    rw [readSegment_eq_variable_iff]
    simp only [readVariable_eq_ok_iff, Segment.WellFormed, Segment.Spelled, Variable.spelled_iff,
      String.toList_ofList]
    constructor
    · rintro ⟨inner, htext, hwell, hinner⟩
      exact ⟨hwell, inner, htext, hinner⟩
    · rintro ⟨hwell, inner, htext, hinner⟩
      exact ⟨inner, htext, hwell, hinner⟩

/-- Between the braces of a variable there are no others. -/
theorem Variable.WellFormed.avoids {v : Variable} (h : v.WellFormed) {inner : List Char}
    (hinner : v.Inside inner) : Avoids ['\x7b', '\x7d'] inner := by
  intro c hc hbrace
  have hc' : c = '\x7b' ∨ c = '\x7d' := by simpa using hbrace
  have hfield : c ∉ v.fieldName.toList := by
    rcases hc' with rfl | rfl
    · exact h.notMem_fieldName rfl (by decide) (by decide)
    · exact h.notMem_fieldName rfl (by decide) (by decide)
  rcases hinner with ⟨-, rfl⟩ | rfl
  · exact hfield hc
  · have hcaptures : ∀ capture ∈ v.captures.map String.toList, c ∉ capture := by
      intro capture hmem hmember
      obtain ⟨text, htext, rfl⟩ := List.mem_map.1 hmem
      rcases hc' with rfl | rfl
      · exact (h.captures text htext).2 _ hmember (by simp)
      · exact (h.captures text htext).2 _ hmember (by simp)
    have hslash : c ≠ '/' := by rcases hc' with rfl | rfl <;> decide
    have hjoined := notMem_intercalate hslash hcaptures
    have hequals : c ≠ '=' := by rcases hc' with rfl | rfl <;> decide
    simp [hfield, hequals, hjoined] at hc

/-- A character other than a brace is exposed in the text of a segment exactly if the segment is a
literal that has it. -/
theorem Segment.WellFormed.solid_iff {s : Segment} (h : s.WellFormed) {text : String}
    (ht : s.Spelled text) {c : Char} (hc : c ≠ '\x7b') :
    Solid c 0 text.toList ↔ ∀ literal, s = .literal literal → c ∉ literal.toList := by
  cases s with
  | literal literal =>
    obtain rfl : text = literal := ht
    have hbraces : Avoids ['\x7b', '\x7d'] text.toList := h.2.1.of_subset (by simp)
    simpa using solid_iff_notMem hbraces
  | «variable» v =>
    obtain ⟨inner, htext, hinner⟩ := Variable.spelled_iff.1 ht
    have hsolid : Solid c 0 text.toList :=
      htext ▸ solid_braced (Variable.WellFormed.avoids h hinner) hc
    simpa using hsolid

/-- The text of a segment cannot be split at slashes. -/
theorem Segment.WellFormed.solid {s : Segment} (h : s.WellFormed) {text : String}
    (ht : s.Spelled text) : Solid '/' 0 text.toList := by
  refine (h.solid_iff ht (by decide)).2 ?_
  rintro literal rfl hslash
  exact h.2.1 '/' hslash (by simp)

end Segments

section Templates

namespace Template

/-- The segments and the verb of a text, each read or taken as it stands. -/
theorem parse_eq_ok_iff_spelling {text : String} {t : Template} :
    parse text = .ok t ↔ ∃ s : Spelling, s.Exact ∧ text.toList = '/' :: s.path ∧
      List.Forall₂ (fun piece segment => readSegment piece = .ok segment) s.segments
        t.segments ∧
      t.verb = s.verb.map String.ofList := by
  rw [parse, Attempt.mapError_eq_ok]
  constructor
  · intro h
    unfold parseFault at h
    split at h
    case h_1 body htext =>
      obtain ⟨s, hexact, rfl, hsegments, hverb⟩ := readBody_eq_ok_iff.1 h
      exact ⟨s, hexact, htext, hsegments, hverb⟩
    case h_2 => cases h
  · rintro ⟨s, hexact, htext, hsegments, hverb⟩
    simp only [parseFault, htext]
    exact readBody_eq_ok_iff.2 ⟨s, hexact, rfl, hsegments, hverb⟩

/-- A slash before every piece is a slash before the pieces joined by slashes. -/
theorem toList_join_slash {pieces : List String} (h : pieces ≠ []) :
    (String.join (pieces.map ("/" ++ ·))).toList =
      '/' :: ['/'].intercalate (pieces.map String.toList) := by
  induction pieces with
  | nil => exact absurd rfl h
  | cons piece more ih =>
    cases more with
    | nil => simp
    | cons other more => simpa using ih (by simp)

/-- A text is the path of pieces and a verb if and only if a slash stands before each piece and a
colon before the verb. -/
theorem toList_eq_path_iff {text : String} {pieces : List String} (h : pieces ≠ [])
    (verb : Option String) :
    text.toList = '/' :: Spelling.path ⟨pieces.map String.toList, verb.map String.toList⟩ ↔
      text = String.join (pieces.map ("/" ++ ·)) ++
        (match verb with
         | none => ""
         | some verb => ":" ++ verb) := by
  rw [← String.toList_inj, String.toList_append, toList_join_slash h]
  cases verb <;> simp [Spelling.path]

/-- Related lists end with related items. -/
theorem exists_concat_of_forall₂ {α β : Type} {R : α → β → Prop} {init : List α} {x : α}
    {ys : List β} (h : List.Forall₂ R (init ++ [x]) ys) :
    ∃ front y, ys = front ++ [y] ∧ R x y := by
  have hreverse : List.Forall₂ R (x :: init.reverse) ys.reverse := by
    simpa using List.forall₂_reverse_iff.2 h
  obtain ⟨y, rest, hxy, -, hys⟩ := List.forall₂_cons_left_iff.1 hreverse
  exact ⟨rest.reverse, y, by simpa using congrArg List.reverse hys, hxy⟩

/-- If every segment has a piece that spells it, the pieces are the exact spelling of a path exactly
for a well-formed template. -/
theorem exact_iff_wellFormed {t : Template} {pieces : List String}
    (h : List.Forall₂ (fun (s : Segment) piece => s.WellFormed ∧ s.Spelled piece)
      t.segments pieces) :
    Spelling.Exact ⟨pieces.map String.toList, t.verb.map String.toList⟩ ↔ t.WellFormed := by
  have hsegments : ∀ s ∈ t.segments, s.WellFormed :=
    ((List.forall₂_and_left _ _).1 h).1
  have hsolid : ∀ piece ∈ pieces.map String.toList, Solid '/' 0 piece := by
    have hpieces :
        List.Forall₂ (fun piece _ => Solid '/' 0 piece.toList ∧ True) pieces t.segments :=
      h.flip.imp fun piece s hpiece => ⟨hpiece.1.solid hpiece.2, trivial⟩
    simpa using ((List.forall₂_and_left _ _).1 hpieces).1
  have hverb : (∀ verb ∈ t.verb.map String.toList,
      verb ≠ [] ∧ Solid '/' 0 verb ∧ Solid ':' 0 verb) ↔
      ∀ verb, t.verb = some verb → Verb verb := by
    cases t.verb with
    | none => simp
    | some verb =>
      have hverb : Verb verb ↔ verb ≠ "" ∧ Solid '/' 0 verb.toList ∧
          Solid ':' 0 verb.toList := by
        unfold Verb Solid
        tauto
      simp [hverb]
  rcases List.eq_nil_or_concat' t.segments with hnil | ⟨init, last, hlast⟩
  · have hpieces : pieces = [] := by
      rw [hnil] at h
      exact List.forall₂_nil_left_iff.1 h
    constructor
    · intro hexact
      exact absurd (by simp [hpieces]) hexact.segments_ne_nil
    · intro hwell
      exact absurd hnil hwell.segments_ne_nil
  · rw [hlast] at h
    obtain ⟨front, piece, rfl, hpiece⟩ := exists_concat_of_forall₂ h
    have hcolon := hpiece.1.solid_iff hpiece.2 (c := ':') (by decide)
    constructor
    · intro hexact
      refine ⟨by simp [hlast], hsegments, fun hnone literal hliteral => ?_, hverb.1 hexact.verb⟩
      have hend : last = .literal literal := by simpa [hlast] using hliteral
      exact hcolon.1 (hexact.last (by simpa using hnone) piece.toList (by simp)) literal hend
    · intro hwell
      refine ⟨by simp, hsolid, fun hnone text htext => ?_, hverb.2 hwell.verb⟩
      obtain rfl : piece.toList = text := by simpa using htext
      refine hcolon.2 fun literal hliteral => ?_
      exact hwell.last (by simpa using hnone) literal (by simp [hlast, hliteral])

/-- Reading succeeds exactly for the well-formed templates that the text spells. -/
theorem parse_eq_ok_iff {text : String} {t : Template} :
    parse text = .ok t ↔ t.WellFormed ∧ t.Spelled text := by
  rw [parse_eq_ok_iff_spelling]
  constructor
  · rintro ⟨⟨segments, verb⟩, hexact, htext, hsegments, hverb⟩
    obtain ⟨pieces, rfl⟩ : ∃ pieces, segments = pieces.map String.toList :=
      ⟨segments.map String.ofList, by simp [Function.comp_def]⟩
    obtain rfl : verb = t.verb.map String.toList := by simp [hverb, Function.comp_def]
    have hread : List.Forall₂ (fun (s : Segment) piece => s.WellFormed ∧ s.Spelled piece)
        t.segments pieces := by
      have hsolid := (List.forall₂_and_left _ _).2 ⟨hexact.segments, hsegments⟩
      have hflip := (List.forall₂_map_left_iff.1 hsolid).flip
      exact hflip.imp fun s piece hpiece => by
        simpa using (readSegment_eq_ok_iff hpiece.1).1 hpiece.2
    have hne : pieces ≠ [] := by simpa using hexact.segments_ne_nil
    exact ⟨(exact_iff_wellFormed hread).1 hexact, pieces, hread.imp fun _ _ h => h.2,
      (toList_eq_path_iff hne t.verb).1 htext⟩
  · rintro ⟨hwell, pieces, hpieces, htext⟩
    have hread : List.Forall₂ (fun (s : Segment) piece => s.WellFormed ∧ s.Spelled piece)
        t.segments pieces := List.forall₂_and_left _ _ |>.2 ⟨hwell.segments, hpieces⟩
    have hne : pieces ≠ [] := by
      rintro rfl
      exact hwell.segments_ne_nil (List.forall₂_nil_right_iff.1 hpieces)
    have hexact := (exact_iff_wellFormed hread).2 hwell
    refine ⟨_, hexact, (toList_eq_path_iff hne t.verb).2 htext, ?_, ?_⟩
    · rw [List.forall₂_map_left_iff]
      refine hread.flip.imp fun piece s hpiece => ?_
      exact (readSegment_eq_ok_iff (hpiece.1.solid hpiece.2)).2 (by simpa using hpiece)
    · simp [Function.comp_def]

/-- The shown text is one that spells a template. -/
theorem spelled_display (t : Template) : t.Spelled t.display := by
  obtain ⟨segments, verb⟩ := t
  refine ⟨segments.map Segment.display, ?_, ?_⟩
  · rw [List.forall₂_map_right_iff, List.forall₂_same]
    rintro (literal | v) -
    · rfl
    · exact .inl rfl
  · cases verb <;> simp [display, Function.comp_def]

/-- Reading a text gives a template if and only if the template is well formed and the text spells
it; so the shown text of a template is read back exactly if the template is well formed. -/
theorem parse_exact (text : String) (t : Template) :
    (parse text = .ok t ↔ t.WellFormed ∧ t.Spelled text) ∧
      (parse t.display = .ok t ↔ t.WellFormed) := by
  have hshown : parse t.display = .ok t ↔ t.WellFormed ∧ t.Spelled t.display := parse_eq_ok_iff
  exact ⟨parse_eq_ok_iff, hshown.trans (and_iff_left t.spelled_display)⟩

end Template

end Templates

end ApiModel.Path
