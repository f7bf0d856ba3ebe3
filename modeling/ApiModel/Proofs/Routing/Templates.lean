import ApiModel.Proofs.Path.Grammar
import ApiModel.Proofs.Routing.Grouping
import ApiModel.Proofs.Text.Occurrences

/-!
# Routing templates

A routing template is read around one variable: from its first opening brace to its last closing
one. Between these there is no other brace, so the template has exactly the parts that are read. But
nothing looks for a closing brace before the variable or for an opening one behind it, and a pattern
of nothing but slashes has no segment. Without these, a template has one variable and only plain
segments.
-/

namespace ApiModel.Routing

open ApiModel.Path (Avoids)

/-- The parts of a routing template: what stands before its variable, the key and the pattern of the
variable, and what stands behind it. -/
structure Parts where
  /-- The text before the variable. -/
  before : List Char
  /-- The key. -/
  key : List Char
  /-- The pattern, if it is written. -/
  pattern : Option (List Char)
  /-- The text behind the variable. -/
  after : List Char

/-- The pieces of a text between slashes that are not empty. -/
def pathPieces (text : List Char) : List String :=
  ((text.splitOn '/').filter fun piece => piece ≠ []).map String.ofList

namespace Parts

/-- What stands between the braces. -/
def inner (s : Parts) : List Char :=
  match s.pattern with
  | none => s.key
  | some pattern => s.key ++ '=' :: pattern

/-- The template. -/
def text (s : Parts) : List Char :=
  s.before ++ '\x7b' :: (s.inner ++ '\x7d' :: s.after)

/-- The pattern that is matched: one segment if none is written. -/
def matched (s : Parts) : List Char :=
  s.pattern.getD Path.oneSegment.toList

/-- The variant of the parts for a request field. -/
def variant (s : Parts) (fieldPath : List String) : RoutingVariant :=
  ⟨fieldPath, pathPieces s.before, pathPieces s.matched, pathPieces s.after⟩

/-- Parts in which the variable opens with the first opening brace and closes with the last closing
one, and has a key and a pattern without braces. -/
structure WellFormed (s : Parts) : Prop where
  /-- No brace opens before the variable. -/
  before : '\x7b' ∉ s.before
  /-- There is a key. -/
  key_ne_nil : s.key ≠ []
  /-- The key ends at the equals sign. -/
  key : Avoids ['\x7b', '\x7d', '='] s.key
  /-- A pattern is not empty. -/
  pattern_ne_nil : ∀ pattern ∈ s.pattern, pattern ≠ []
  /-- There is no brace in a pattern. -/
  pattern : ∀ pattern ∈ s.pattern, Avoids ['\x7b', '\x7d'] pattern
  /-- No brace closes behind the variable. -/
  after : '\x7d' ∉ s.after

end Parts

/-- Whether a template has one opening and one closing brace, and what is read from it has something
to match and no brace in any segment. -/
structure OneVariable (template : String) (v : RoutingVariant) : Prop where
  /-- One brace opens. -/
  opening : template.toList.count '\x7b' = 1
  /-- One brace closes. -/
  closing : template.toList.count '\x7d' = 1
  /-- Something is matched. -/
  matching : v.matching ≠ []
  /-- No segment has a brace. -/
  segments : ∀ segment ∈ v.before ++ v.matching ++ v.after,
    Avoids ['\x7b', '\x7d'] segment.toList

section Pieces

variable {c : Char} {text : List Char}

/-- The segments of a text are its pieces. -/
theorem segments_eq (text : List Char) : segments text = pathPieces text := by
  have hfilter : ∀ piece : List Char, (!piece.isEmpty) = decide (piece ≠ []) := by
    intro piece
    cases piece <;> rfl
  unfold segments pathPieces
  rw [Path.pieces_eq_splitOn]
  simp only [hfilter]

/-- A piece of a joined text is part of it. -/
theorem subset_intercalate {separator : Char} {pieces : List (List Char)} {piece : List Char}
    (h : piece ∈ pieces) : piece ⊆ [separator].intercalate pieces := by
  induction pieces with
  | nil => exact absurd h List.not_mem_nil
  | cons first more ih =>
    cases more with
    | nil =>
      obtain rfl := List.mem_singleton.1 h
      simp
    | cons other more =>
      have hjoin : [separator].intercalate (first :: other :: more) =
          first ++ separator :: [separator].intercalate (other :: more) := by simp
      rw [hjoin]
      rcases List.mem_cons.1 h with rfl | h
      · exact List.subset_append_left _ _
      · exact fun x hx => List.mem_append_right _ (List.mem_cons_of_mem _ (ih h hx))

/-- The characters of a text other than slashes are those of its pieces. -/
theorem exists_mem_pathPieces_iff (hc : c ≠ '/') :
    (∃ piece ∈ pathPieces text, c ∈ piece.toList) ↔ c ∈ text := by
  have hjoin : ['/'].intercalate (text.splitOn '/') = text := List.intercalate_splitOn '/'
  constructor
  · rintro ⟨piece, hpiece, hmem⟩
    obtain ⟨chars, hchars, rfl⟩ := List.mem_map.1 hpiece
    have hsubset : chars ⊆ ['/'].intercalate (text.splitOn '/') :=
      subset_intercalate (List.mem_filter.1 hchars).1
    rw [hjoin] at hsubset
    exact hsubset (by simpa using hmem)
  · intro hmem
    by_contra hnone
    have hfree : ∀ chars ∈ text.splitOn '/', c ∉ chars := by
      intro chars hchars hmem
      have hne : chars ≠ [] := List.ne_nil_of_mem hmem
      have hpiece : String.ofList chars ∈ pathPieces text :=
        List.mem_map_of_mem (List.mem_filter.2 ⟨hchars, by simpa using hne⟩)
      exact hnone ⟨_, hpiece, by simpa using hmem⟩
    have hnot := Path.notMem_intercalate hc hfree
    rw [hjoin] at hnot
    exact hnot hmem

/-- A text has a piece if and only if it has a character other than a slash. -/
theorem pathPieces_ne_nil_iff : pathPieces text ≠ [] ↔ ∃ c ∈ text, c ≠ '/' := by
  constructor
  · intro h
    obtain ⟨piece, hpiece⟩ := List.exists_mem_of_ne_nil _ h
    obtain ⟨chars, hchars, rfl⟩ := List.mem_map.1 hpiece
    obtain ⟨hsplit, hne⟩ := List.mem_filter.1 hchars
    obtain ⟨c, hc⟩ := List.exists_mem_of_ne_nil chars (by simpa using hne)
    have hslash : c ≠ '/' := fun heq => Path.notMem_of_mem_splitOn hsplit (heq ▸ hc)
    exact ⟨c, (exists_mem_pathPieces_iff hslash).1 ⟨_, hpiece, by simpa using hc⟩, hslash⟩
  · rintro ⟨c, hc, hslash⟩
    obtain ⟨piece, hpiece, -⟩ := (exists_mem_pathPieces_iff hslash).2 hc
    exact List.ne_nil_of_mem hpiece

/-- The pieces of a text have no brace if and only if the text has none. -/
theorem forall_avoids_pathPieces_iff :
    (∀ piece ∈ pathPieces text, Avoids ['\x7b', '\x7d'] piece.toList) ↔
    Avoids ['\x7b', '\x7d'] text := by
  -- a piece has all characters but slashes, so no brace is lost at them
  have hslash : ∀ brace ∈ ['\x7b', '\x7d'], brace ≠ '/' := by
    intro brace hbrace
    cases List.mem_pair.1 hbrace with
    | inl heq => exact heq ▸ by decide
    | inr heq => exact heq ▸ by decide
  constructor
  · intro h c hc hbrace
    obtain ⟨piece, hpiece, hmem⟩ := (exists_mem_pathPieces_iff (hslash c hbrace)).2 hc
    exact h piece hpiece c hmem hbrace
  · intro h piece hpiece c hc hbrace
    exact h c ((exists_mem_pathPieces_iff (hslash c hbrace)).1 ⟨piece, hpiece, hc⟩) hbrace

end Pieces

section Reading

variable {text : List Char} {fieldPath : List String} {v : KeyedVariant} {s : Parts}

/-- Between the braces of well-formed parts there are no others. -/
theorem Parts.WellFormed.avoids_inner (h : s.WellFormed) : Avoids ['\x7b', '\x7d'] s.inner := by
  have hkey : Avoids ['\x7b', '\x7d'] s.key := h.key.of_subset (by simp)
  unfold inner
  split
  · exact hkey
  · next pattern hpattern =>
    have hrest : Avoids ['\x7b', '\x7d'] ('=' :: pattern) :=
      List.forall_mem_cons.2 ⟨by decide, h.pattern pattern hpattern⟩
    exact List.forall_mem_append.2 ⟨hkey, hrest⟩

/-- What is matched has no braces. -/
theorem Parts.WellFormed.avoids_matched (h : s.WellFormed) : Avoids ['\x7b', '\x7d'] s.matched := by
  unfold matched
  cases hpattern : s.pattern with
  | none => decide
  | some pattern => exact h.pattern pattern hpattern

/-- What is matched is not empty. -/
theorem Parts.WellFormed.matched_ne_nil (h : s.WellFormed) : s.matched ≠ [] := by
  unfold matched
  cases hpattern : s.pattern with
  | none => decide
  | some pattern => exact h.pattern_ne_nil pattern hpattern

/-- The key and the pattern of well-formed parts are found again. -/
theorem Parts.WellFormed.keyAndPattern_inner (h : s.WellFormed) :
    keyAndPattern s.inner = (s.key, s.matched) := by
  have hequals : '=' ∉ s.key := fun hmem => h.key '=' hmem (by simp)
  obtain ⟨before, key, pattern, after⟩ := s
  cases pattern with
  | none =>
    have hsplit : Text.splitFirst? '=' key = none := Path.splitFirst?_eq_none_iff.2 hequals
    simp [keyAndPattern, inner, matched, hsplit]
  | some pattern =>
    have hsplit : Text.splitFirst? '=' (key ++ '=' :: pattern) = some (key, pattern) :=
      Path.splitFirst?_eq_some_iff.2 ⟨rfl, hequals⟩
    simp [keyAndPattern, inner, matched, hsplit]

/-- A text without braces is the inside of some key and pattern, which are found in it. -/
theorem exists_parts_of_keyAndPattern (before after : List Char) {inner key pattern : List Char}
    (hinner : Avoids ['\x7b', '\x7d'] inner) (h : keyAndPattern inner = (key, pattern)) :
    ∃ s : Parts, s.before = before ∧ s.after = after ∧ s.inner = inner ∧ s.key = key ∧
      s.matched = pattern ∧
      Avoids ['\x7b', '\x7d', '='] s.key ∧ ∀ written ∈ s.pattern, written = pattern ∧
        Avoids ['\x7b', '\x7d'] written := by
  have hkey : ∀ text : List Char, text ⊆ inner → '=' ∉ text →
      Avoids ['\x7b', '\x7d', '='] text := by
    intro text hsubset hequals c hc hmem
    have hbrace := hinner c (hsubset hc)
    have hne : c ≠ '=' := fun heq => hequals (heq ▸ hc)
    simp only [List.mem_cons, List.not_mem_nil, or_false, not_or] at hmem hbrace
    tauto
  unfold keyAndPattern at h
  split at h
  · next key' pattern' hsplit =>
    obtain ⟨rfl, rfl⟩ := Prod.mk.inj h
    obtain ⟨rfl, hequals⟩ := Path.splitFirst?_eq_some_iff.1 hsplit
    refine ⟨⟨before, key', some pattern', after⟩, rfl, rfl, rfl, rfl, rfl,
      hkey key' (List.subset_append_left _ _) hequals, ?_⟩
    rintro written ⟨⟩
    exact ⟨rfl, fun c hc => hinner c (by simp [hc])⟩
  · next hsplit =>
    obtain ⟨rfl, rfl⟩ := Prod.mk.inj h
    have hequals := Path.splitFirst?_eq_none_iff.1 hsplit
    exact ⟨⟨before, inner, none, after⟩, rfl, rfl, rfl, rfl, rfl,
      hkey inner (List.Subset.refl _) hequals, by rintro written ⟨⟩⟩

/-- A template with well-formed parts is read, and its variant is made of these. -/
theorem Parts.WellFormed.readTemplate_text (h : s.WellFormed) :
    readTemplate fieldPath s.text = .ok ⟨String.ofList s.key, s.variant fieldPath⟩ := by
  have hopen : Text.splitFirst? '\x7b' s.text = some (s.before, s.inner ++ '\x7d' :: s.after) :=
    Path.splitFirst?_eq_some_iff.2 ⟨rfl, h.before⟩
  have hcontains : s.text.contains '\x7d' = true := by simp [Parts.text]
  have hclose : Text.splitLast? '\x7d' (s.inner ++ '\x7d' :: s.after) = some (s.inner, s.after) :=
    Text.splitLast?_eq_some.2 ⟨rfl, h.after⟩
  have hbraces : (s.inner.any fun c => c == '\x7b' || c == '\x7d') = false :=
    Path.hasBrace_eq_false_iff.2 h.avoids_inner
  have hempty : (s.key.isEmpty || s.matched.isEmpty) = false := by
    simp [h.key_ne_nil, h.matched_ne_nil]
  simp only [readTemplate, hopen, hcontains, hclose, hbraces, h.keyAndPattern_inner, hempty]
  simp [segments_eq, Parts.variant]

/-- A template that is read has well-formed parts, of which its variant is made. -/
theorem exists_parts_of_readTemplate (h : readTemplate fieldPath text = .ok v) :
    ∃ s : Parts, s.WellFormed ∧ text = s.text ∧
    v = ⟨String.ofList s.key, s.variant fieldPath⟩ := by
  -- the cases follow the scan: the first opening brace, the last closing one behind it, and what is
  -- between them
  unfold readTemplate at h
  split at h
  case h_1 => cases h
  case h_2 before opened hopen =>
    obtain ⟨rfl, hbefore⟩ := Path.splitFirst?_eq_some_iff.1 hopen
    split at h
    case isTrue => cases h
    case isFalse =>
      split at h
      case h_1 => cases h
      case h_2 inner after hclose =>
        obtain ⟨rfl, hafter⟩ := Text.splitLast?_eq_some.1 hclose
        split at h
        case isTrue => cases h
        case isFalse hbraces =>
          have hinner : Avoids ['\x7b', '\x7d'] inner :=
            Path.hasBrace_eq_false_iff.1 (by simpa [Path.hasBrace] using hbraces)
          -- the parts have to be found before it is known that neither the key nor the pattern is
          -- empty
          obtain ⟨key, pattern, hpair⟩ : ∃ key pattern, keyAndPattern inner =
            (key, pattern) := ⟨_, _, rfl⟩
          obtain ⟨s, rfl, rfl, hs, rfl, rfl, hkey, hpattern⟩ :=
            exists_parts_of_keyAndPattern before after hinner hpair
          simp only [hpair] at h
          split at h
          case isTrue => cases h
          case isFalse hempty =>
            obtain ⟨hkeyne, hmatchedne⟩ : s.key ≠ [] ∧ s.matched ≠ [] := by
              simpa using hempty
            have hpatternne : ∀ written ∈ s.pattern, written ≠ [] := by
              intro written hwritten
              rw [(hpattern written hwritten).1]
              exact hmatchedne
            refine ⟨s, ⟨hbefore, hkeyne, hkey, hpatternne,
              fun written hw => (hpattern written hw).2, hafter⟩, ?_, ?_⟩
            · rw [Parts.text, hs]
            · rw [← Except.ok.inj h]
              simp only [segments_eq, Parts.variant]

/-- A template is read if and only if it has well-formed parts, of which its variant is made. -/
theorem readTemplate_eq_ok_iff :
    readTemplate fieldPath text = .ok v ↔
      ∃ s : Parts, s.WellFormed ∧ text = s.text ∧
      v = ⟨String.ofList s.key, s.variant fieldPath⟩ := by
  constructor
  · exact exists_parts_of_readTemplate
  · rintro ⟨s, hs, rfl, rfl⟩
    exact hs.readTemplate_text

/-- A parameter with a template is read if and only if the template has well-formed parts. -/
theorem Parameter.read_eq_ok_iff {p : Parameter} (h : p.pathTemplate ≠ "") :
    p.read = .ok v ↔ ∃ s : Parts, s.WellFormed ∧ p.pathTemplate.toList = s.text ∧
      v = ⟨String.ofList s.key, s.variant (Text.splitAt '.' p.field)⟩ := by
  have hempty : p.pathTemplate.isEmpty = false := by simpa using h
  simp only [read, hempty, Attempt.mapError_eq_ok, readTemplate_eq_ok_iff,
    Bool.false_eq_true, if_false]

/-- A parameter is read if and only if its template is empty or has well-formed parts. -/
theorem Parameter.reads_iff {p : Parameter} :
    p.Reads ↔
    (p.pathTemplate ≠ "" → ∃ s : Parts, s.WellFormed ∧ p.pathTemplate.toList = s.text) := by
  constructor
  · intro h hne
    obtain ⟨v, hv⟩ := h
    obtain ⟨s, hs, htext, -⟩ := (read_eq_ok_iff hne).1 hv
    exact ⟨s, hs, htext⟩
  · intro h
    by_cases hempty : p.pathTemplate = ""
    · exact ⟨_, by rw [read, hempty]; rfl⟩
    · obtain ⟨s, hs, htext⟩ := h hempty
      exact ⟨_, (read_eq_ok_iff hempty).2 ⟨s, hs, htext, rfl⟩⟩

end Reading

section Variables

variable {template : String} {fieldPath : List String} {s : Parts}

/-- In well-formed parts one more brace opens than behind the variable. -/
theorem Parts.WellFormed.count_opening (h : s.WellFormed) :
    s.text.count '\x7b' = s.after.count '\x7b' + 1 := by
  have hbefore : s.before.count '\x7b' = 0 := List.count_eq_zero.2 h.before
  have hinner : s.inner.count '\x7b' = 0 :=
    List.count_eq_zero.2 (Path.avoids_pair_iff.1 h.avoids_inner).1
  simp [Parts.text, List.count_append, hbefore, hinner]

/-- In well-formed parts one more brace closes than before the variable. -/
theorem Parts.WellFormed.count_closing (h : s.WellFormed) :
    s.text.count '\x7d' = s.before.count '\x7d' + 1 := by
  have hafter : s.after.count '\x7d' = 0 := List.count_eq_zero.2 h.after
  have hinner : s.inner.count '\x7d' = 0 :=
    List.count_eq_zero.2 (Path.avoids_pair_iff.1 h.avoids_inner).2
  simp [Parts.text, List.count_append, hafter, hinner]

/-- A template with well-formed parts has one variable if and only if no brace closes before the
variable, none opens behind it, and there is something to match other than slashes. -/
theorem Parts.WellFormed.oneVariable_iff (h : s.WellFormed) (htext : template.toList = s.text) :
    OneVariable template (s.variant fieldPath) ↔
      '\x7d' ∉ s.before ∧ '\x7b' ∉ s.after ∧ ∃ c ∈ s.matched, c ≠ '/' := by
  have hopening : template.toList.count '\x7b' = 1 ↔ '\x7b' ∉ s.after := by
    rw [htext, h.count_opening, ← List.count_eq_zero]
    omega
  have hclosing : template.toList.count '\x7d' = 1 ↔ '\x7d' ∉ s.before := by
    rw [htext, h.count_closing, ← List.count_eq_zero]
    omega
  constructor
  · intro hone
    exact ⟨hclosing.1 hone.closing, hopening.1 hone.opening,
      pathPieces_ne_nil_iff.1 hone.matching⟩
  · intro hparts
    obtain ⟨hbefore, hafter, hmatched⟩ := hparts
    refine ⟨hopening.2 hafter, hclosing.2 hbefore, pathPieces_ne_nil_iff.2 hmatched, ?_⟩
    have hpieces : ∀ text : List Char, Avoids ['\x7b', '\x7d'] text →
        ∀ piece ∈ pathPieces text, Avoids ['\x7b', '\x7d'] piece.toList :=
      fun text => forall_avoids_pathPieces_iff.2
    intro segment hsegment
    simp only [Parts.variant, List.mem_append] at hsegment
    rcases hsegment with (hsegment | hsegment) | hsegment
    · exact hpieces s.before (Path.avoids_pair_iff.2 ⟨h.before, hbefore⟩) segment hsegment
    · exact hpieces s.matched h.avoids_matched segment hsegment
    · exact hpieces s.after (Path.avoids_pair_iff.2 ⟨hafter, h.after⟩) segment hsegment

/-- A rule is accepted if and only if each template in it that is not empty has well-formed parts.
Its variant is made of these and stands in the group of its key, and there is one variable exactly
if no brace closes before it, none opens behind it, and its pattern is not made of slashes. -/
theorem readRule_templates (parameters : List Parameter) :
    ((∃ infos, readRule parameters = .ok infos) ↔
        ∀ p ∈ parameters, p.pathTemplate ≠ "" →
          ∃ s : Parts, s.WellFormed ∧ p.pathTemplate.toList = s.text) ∧
      ∀ infos, readRule parameters = .ok infos → ∀ p ∈ parameters, p.pathTemplate ≠ "" →
        ∃ s : Parts, s.WellFormed ∧ p.pathTemplate.toList = s.text ∧
          (∃ info ∈ infos, info.name = String.ofList s.key ∧
            s.variant (Text.splitAt '.' p.field) ∈ info.variants) ∧
          (OneVariable p.pathTemplate (s.variant (Text.splitAt '.' p.field)) ↔
            '\x7d' ∉ s.before ∧ '\x7b' ∉ s.after ∧ ∃ c ∈ s.matched, c ≠ '/') := by
  refine ⟨?_, fun infos h p hp hne => ?_⟩
  · rw [exists_readRule_iff]
    exact forall₂_congr fun p _ => Parameter.reads_iff
  · obtain ⟨variants, hread, hgroups, -⟩ := groups_of_readRule h
    obtain ⟨v, hv, hpv⟩ := Attempt.exists_mem_right hread p hp
    obtain ⟨s, hs, htext, rfl⟩ := (Parameter.read_eq_ok_iff hne).1 hpv
    exact ⟨s, hs, htext, hgroups.exists_mem_variants hv, hs.oneVariable_iff htext⟩

/-- The template of a table has one variable, so no stray brace and something to match. -/
theorem readRule_templates_tables :
    ∃ s : Parts, s.WellFormed ∧
      "projects/*/\x7btable_location=instances/*\x7d/tables/*".toList = s.text ∧
      '\x7d' ∉ s.before ∧ '\x7b' ∉ s.after ∧ ∃ c ∈ s.matched, c ≠ '/' := by
  have hread :
    readRule [⟨"table.name", "projects/*/\x7btable_location=instances/*\x7d/tables/*"⟩] =
      .ok [⟨"table_location",
        [⟨["table", "name"], ["projects", "*"], ["instances", "*"], ["tables", "*"]⟩]⟩] := by
    decide +kernel
  have hone : OneVariable "projects/*/\x7btable_location=instances/*\x7d/tables/*"
      ⟨["table", "name"], ["projects", "*"], ["instances", "*"], ["tables", "*"]⟩ :=
    ⟨by decide +kernel, by decide +kernel, by decide, by decide +kernel⟩
  obtain ⟨s, hs, htext, ⟨info, hinfo, -, hmem⟩, hiff⟩ :=
    (readRule_templates _).2 _ hread _ List.mem_cons_self (by decide)
  obtain rfl := List.mem_singleton.1 hinfo
  rw [List.mem_singleton.1 hmem] at hiff
  exact ⟨s, hs, htext, hiff.1 hone⟩

/-- A template with a variable that is never closed behind another one is read, with braces in its
segments, and so is one whose pattern is a slash, with nothing to match. -/
theorem not_oneVariable_zones :
    readRule [⟨"name", "projects/\x7bproject\x7d/zones/\x7bzone"⟩] =
        .ok [⟨"project", [⟨["name"], ["projects"], ["*"], ["zones", "\x7bzone"]⟩]⟩] ∧
      ¬ OneVariable "projects/\x7bproject\x7d/zones/\x7bzone"
        ⟨["name"], ["projects"], ["*"], ["zones", "\x7bzone"]⟩ ∧
      readRule [⟨"name", "\x7bproject=/\x7d"⟩] =
        .ok [⟨"project", [⟨["name"], [], [], []⟩]⟩] ∧
      ¬ OneVariable "\x7bproject=/\x7d" ⟨["name"], [], [], []⟩ := by
  refine ⟨by decide +kernel, ?_, by decide +kernel, ?_⟩
  · intro hone
    have htwo : "projects/\x7bproject\x7d/zones/\x7bzone".toList.count '\x7b' = 2 := by
      decide +kernel
    have hone := hone.opening
    omega
  · intro hone
    exact hone.matching rfl

end Variables

end ApiModel.Routing
