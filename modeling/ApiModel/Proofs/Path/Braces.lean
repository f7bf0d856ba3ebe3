import Mathlib.Data.List.Infix
import ApiModel.Path.Parse

/-!
# Braces and the separators outside them

A scanner of path templates counts open braces and splits where none is open. Both scans are stated
here through the number of braces before a place: a text is balanced if no closing brace comes too
early and all are closed in the end, and a separator is exposed if all braces before it are closed.
The pieces of a balanced text are then exactly the balanced texts without an exposed separator whose
joined text it is.
-/

namespace ApiModel.Path

/-- Behind `depth` open braces, no closing brace of the text comes too early and all are closed in
the end. -/
def Closes (depth : Nat) (text : List Char) : Prop :=
  (∀ before, before <+: text → before.count '\x7d' ≤ depth + before.count '\x7b') ∧
    text.count '\x7d' = depth + text.count '\x7b'

/-- Behind `depth` open braces, the character stands in the text where no brace is open. -/
def Exposed (c : Char) (depth : Nat) (text : List Char) : Prop :=
  ∃ before after, text = before ++ c :: after ∧
    before.count '\x7d' = depth + before.count '\x7b'

/-- Behind `depth` open braces, the text closes them all and the separator is nowhere exposed. -/
def Solid (separator : Char) (depth : Nat) (text : List Char) : Prop :=
  Closes depth text ∧ ¬ Exposed separator depth text

/-- The number of open braces behind a character, unless it closes one that is not open. -/
def depthBehind? (depth : Nat) (c : Char) : Option Nat :=
  if c = '\x7b' then some (depth + 1)
  else if c = '\x7d' then (if depth = 0 then none else some (depth - 1))
  else some depth

section Depth

variable {c : Char} {depth inner : Nat} {text : List Char}

/-- A character adds one to the depth if it opens a brace, and takes one away if it closes one. -/
theorem depthBehind?_eq_some_iff :
    depthBehind? depth c = some inner ↔ [c].count '\x7d' + inner = depth + [c].count '\x7b' := by
  unfold depthBehind?
  by_cases hopen : c = '\x7b'
  · subst hopen
    simp
    omega
  · by_cases hclose : c = '\x7d'
    · subst hclose
      by_cases hzero : depth = 0
      · simp [hzero]
      · simp [hzero]
        omega
    · simp [hopen, hclose]
      omega

/-- A text that begins at no open brace and with a closing one closes too early. -/
theorem not_closes_of_depthBehind? (h : depthBehind? depth c = none) :
    ¬ Closes depth (c :: text) := by
  intro hclose
  have hfirst := hclose.1 [c] ⟨text, rfl⟩
  have hsome : depthBehind? depth c = some (depth + [c].count '\x7b' - [c].count '\x7d') := by
    rw [depthBehind?_eq_some_iff]
    omega
  rw [h] at hsome
  cases hsome

/-- Whether a text closes its braces is decided behind its first character. -/
theorem closes_cons_iff (h : depthBehind? depth c = some inner) :
    Closes depth (c :: text) ↔ Closes inner text := by
  have hcount := depthBehind?_eq_some_iff.1 h
  have hd : ∀ before : List Char, (c :: before).count '\x7d' ≤
    depth + (c :: before).count '\x7b' ↔
      before.count '\x7d' ≤ inner + before.count '\x7b' := by
    intro before
    rw [← List.singleton_append, List.count_append, List.count_append]
    omega
  have htotal : (c :: text).count '\x7d' = depth + (c :: text).count '\x7b' ↔
      text.count '\x7d' = inner + text.count '\x7b' := by
    rw [← List.singleton_append, List.count_append, List.count_append]
    omega
  constructor
  · rintro ⟨hbefore, hall⟩
    refine ⟨fun before hb => ?_, htotal.1 hall⟩
    have hlonger : c :: before <+: c :: text := (List.prefix_cons_inj c).2 hb
    exact (hd before).1 (hbefore _ hlonger)
  · rintro ⟨hbefore, hall⟩
    refine ⟨fun before hb => ?_, htotal.2 hall⟩
    rcases List.prefix_cons_iff.1 hb with rfl | ⟨shorter, rfl, hshorter⟩
    · simp
    · exact (hd shorter).2 (hbefore shorter hshorter)

/-- A character is exposed at the beginning of a text or behind its first character. -/
theorem exposed_cons_iff {separator : Char} (h : depthBehind? depth c = some inner) :
    Exposed separator depth (c :: text) ↔
      depth = 0 ∧ c = separator ∨ Exposed separator inner text := by
  have hcount := depthBehind?_eq_some_iff.1 h
  have hd : ∀ before : List Char, (c :: before).count '\x7d' =
    depth + (c :: before).count '\x7b' ↔
      before.count '\x7d' = inner + before.count '\x7b' := by
    intro before
    rw [← List.singleton_append, List.count_append, List.count_append]
    omega
  constructor
  · rintro ⟨before, after, htext, hbefore⟩
    cases before with
    | nil =>
      have hzero : depth = 0 := by simpa using hbefore.symm
      exact .inl ⟨hzero, (List.cons.inj htext).1⟩
    | cons x before =>
      have hsplit : c = x ∧ text = before ++ separator :: after := by simpa using htext
      obtain ⟨rfl, hrest⟩ := hsplit
      exact .inr ⟨before, after, hrest, (hd before).1 hbefore⟩
  · rintro (⟨rfl, rfl⟩ | ⟨before, after, rfl, hbefore⟩)
    · exact ⟨[], text, rfl, by simp⟩
    · exact ⟨c :: before, after, rfl, (hd before).2 hbefore⟩

/-- Whether a text is solid is decided behind its first character. -/
theorem solid_cons_iff {separator : Char} (h : depthBehind? depth c = some inner) :
    Solid separator depth (c :: text) ↔
      ¬ (depth = 0 ∧ c = separator) ∧ Solid separator inner text := by
  unfold Solid
  rw [closes_cons_iff h, exposed_cons_iff h]
  tauto

/-- The empty text is solid where no brace is open. -/
theorem solid_nil_iff {separator : Char} : Solid separator depth [] ↔ depth = 0 := by
  constructor
  · intro h
    simpa using h.1.2.symm
  · rintro rfl
    refine ⟨⟨fun before hb => ?_, rfl⟩, ?_⟩
    · simp [List.prefix_nil.1 hb]
    · rintro ⟨before, after, h, -⟩
      simp at h

end Depth

section Scan

/-- The scan for balance goes on at the depth behind the first character. -/
theorem balanced_cons (depth : Nat) (c : Char) (text : List Char) :
    balanced depth (c :: text) = (depthBehind? depth c).any (balanced · text) := by
  by_cases hopen : c = '\x7b'
  · subst hopen
    simp [balanced, depthBehind?]
  · by_cases hclose : c = '\x7d'
    · subst hclose
      cases depth with
      | zero => simp [balanced, depthBehind?]
      | succ depth => simp [balanced, depthBehind?]
    · simp [balanced, depthBehind?, hopen, hclose]

/-- The scan for balance accepts exactly the texts that close their braces. -/
theorem balanced_iff {depth : Nat} {text : List Char} :
    balanced depth text = true ↔ Closes depth text := by
  induction text generalizing depth with
  | nil =>
    constructor
    · intro h
      have hzero : depth = 0 := by simpa [balanced] using h
      have hsolid : Solid ':' depth [] := solid_nil_iff.2 hzero
      exact hsolid.1
    · intro h
      have hzero : 0 = depth := by simpa using h.2
      simp [balanced, ← hzero]
  | cons c text ih =>
    rw [balanced_cons]
    cases hd : depthBehind? depth c with
    | none =>
      have hnot : ¬ Closes depth (c :: text) := not_closes_of_depthBehind? hd
      simp [hnot]
    | some inner => simp [closes_cons_iff hd, ih]

/-- The split never leaves out the last piece. -/
theorem splitOutside_ne_nil (separator : Char) (depth : Nat) (text : List Char) :
    splitOutside separator depth text ≠ [] := by
  cases text with
  | nil => simp [splitOutside]
  | cons c text =>
    unfold splitOutside
    split
    · simp
    · simp only
      split <;> simp

variable {separator : Char}

/-- A separator where no brace is open ends a piece. -/
theorem splitOutside_separator (text : List Char) :
    splitOutside separator 0 (separator :: text) = [] :: splitOutside separator 0 text := by
  simp [splitOutside]

/-- Any other character belongs to the piece that goes on behind it. -/
theorem splitOutside_cons {c : Char} {depth inner : Nat} {text piece : List Char}
    {more : List (List Char)} (hd : depthBehind? depth c = some inner)
    (hc : ¬ (depth = 0 ∧ c = separator)) :
    splitOutside separator depth (c :: text) = piece :: more ↔
      ∃ tail, piece = c :: tail ∧ splitOutside separator inner text = tail :: more := by
  have hinner : (if c = '\x7b' then depth + 1 else if c = '\x7d' then depth - 1 else depth) =
      inner := by
    unfold depthBehind? at hd
    grind
  rw [splitOutside, if_neg hc]
  simp only [hinner]
  cases hsplit : splitOutside separator inner text with
  | nil => exact absurd hsplit (splitOutside_ne_nil separator inner text)
  | cons first rest => simp [@eq_comm _ piece]

variable {text : List Char}

/-- Unless joined pieces begin with a separator, they begin as the first piece does. -/
theorem of_intercalate_eq_cons {c : Char} {piece : List Char} {more : List (List Char)}
    (h : [separator].intercalate (piece :: more) = c :: text)
    (hc : ¬ (piece = [] ∧ c = separator)) :
    ∃ tail, piece = c :: tail ∧ [separator].intercalate (tail :: more) = text := by
  cases piece with
  | nil =>
    cases more with
    | nil => simp at h
    | cons other more =>
      have hsep : separator = c := by simpa using congrArg List.head? h
      exact absurd ⟨rfl, hsep.symm⟩ hc
  | cons x tail =>
    cases more with
    | nil =>
      obtain ⟨rfl, rfl⟩ : x = c ∧ tail = text := by simpa using h
      exact ⟨tail, rfl, by simp⟩
    | cons other more =>
      obtain ⟨rfl, rfl⟩ :
          x = c ∧ tail ++ separator :: [separator].intercalate (other :: more) = text := by
        simpa using h
      exact ⟨tail, rfl, by simp⟩

/-- Solid pieces whose joined text begins with a separator are an empty one and those of the
rest. -/
theorem joined_separator_iff (hsep : depthBehind? 0 separator = some 0) {piece : List Char}
    {more : List (List Char)} :
    (Solid separator 0 piece ∧ ∀ other ∈ more, Solid separator 0 other) ∧
        [separator].intercalate (piece :: more) = separator :: text ↔
      piece = [] ∧ ∃ first rest, more = first :: rest ∧
        (Solid separator 0 first ∧ ∀ other ∈ rest, Solid separator 0 other) ∧
          [separator].intercalate (first :: rest) = text := by
  cases piece with
  | nil =>
    have hnil : Solid separator 0 [] := solid_nil_iff.2 rfl
    cases more with
    | nil => simp
    | cons first rest => simp [hnil]
  | cons x piece =>
    constructor
    · rintro ⟨⟨hpiece, -⟩, hjoin⟩
      obtain ⟨tail, heq, -⟩ := of_intercalate_eq_cons hjoin (by simp)
      have hx : x = separator := (List.cons.inj heq).1
      subst hx
      have hhidden := ((solid_cons_iff hsep).1 hpiece).1
      simp at hhidden
    · rintro ⟨hempty, -⟩
      cases hempty

/-- Solid pieces whose joined text begins with another character begin with it, and go on as those
of the rest. -/
theorem joined_cons_iff {c : Char} {depth inner : Nat} (hd : depthBehind? depth c = some inner)
    (hc : ¬ (depth = 0 ∧ c = separator)) {piece : List Char} {more : List (List Char)} :
    (Solid separator depth piece ∧ ∀ other ∈ more, Solid separator 0 other) ∧
        [separator].intercalate (piece :: more) = c :: text ↔
      ∃ tail, piece = c :: tail ∧
        (Solid separator inner tail ∧ ∀ other ∈ more, Solid separator 0 other) ∧
          [separator].intercalate (tail :: more) = text := by
  constructor
  · rintro ⟨⟨hpiece, hmore⟩, hjoin⟩
    have hfirst : ¬ (piece = [] ∧ c = separator) := by
      rintro ⟨rfl, rfl⟩
      exact hc ⟨solid_nil_iff.1 hpiece, rfl⟩
    obtain ⟨tail, rfl, htail⟩ := of_intercalate_eq_cons hjoin hfirst
    exact ⟨tail, rfl, ⟨((solid_cons_iff hd).1 hpiece).2, hmore⟩, htail⟩
  · rintro ⟨tail, rfl, ⟨htail, hmore⟩, hjoin⟩
    have hjoined : [separator].intercalate ((c :: tail) :: more) = c :: text := by
      cases more <;> simp [← hjoin]
    exact ⟨⟨(solid_cons_iff hd).2 ⟨hc, htail⟩, hmore⟩, hjoined⟩

/-- No solid piece begins with a brace that closes too early. -/
theorem not_joined_cons {c : Char} {depth : Nat} (hd : depthBehind? depth c = none)
    (hc : ¬ (depth = 0 ∧ c = separator)) {piece : List Char} {more : List (List Char)}
    (hpiece : Solid separator depth piece) : [separator].intercalate (piece :: more) ≠
      c :: text := by
  intro hjoin
  have hfirst : ¬ (piece = [] ∧ c = separator) := by
    rintro ⟨rfl, rfl⟩
    exact hc ⟨solid_nil_iff.1 hpiece, rfl⟩
  obtain ⟨tail, rfl, -⟩ := of_intercalate_eq_cons hjoin hfirst
  exact not_closes_of_depthBehind? hd hpiece.1

/-- The scan and the specification of a split agree: the pieces of a text that closes its braces are
solid, and joined they are the text. -/
theorem splitOutside_eq_cons_iff (hsep : depthBehind? 0 separator = some 0) {depth : Nat}
    {piece : List Char} {more : List (List Char)} :
    Closes depth text ∧ splitOutside separator depth text = piece :: more ↔
      (Solid separator depth piece ∧ ∀ other ∈ more, Solid separator 0 other) ∧
        [separator].intercalate (piece :: more) = text := by
  induction text generalizing depth piece more with
  | nil =>
    have hclose : Closes depth [] ↔ Solid separator depth [] :=
      ⟨fun h => ⟨h, by rintro ⟨before, after, hnil, -⟩; simp at hnil⟩, And.left⟩
    cases more with
    | nil => cases piece <;> simp [splitOutside, hclose]
    | cons other more => simp [splitOutside]
  | cons c text ih =>
    by_cases hend : depth = 0 ∧ c = separator
    · -- A piece ends here, so the first one is empty and the others are those of the rest.
      obtain ⟨rfl, rfl⟩ := hend
      rw [splitOutside_separator, closes_cons_iff hsep, joined_separator_iff hsep]
      constructor
      · rintro ⟨hclose, hsplit⟩
        obtain ⟨first, rest, hrest⟩ := List.exists_cons_of_ne_nil (splitOutside_ne_nil c 0 text)
        obtain ⟨hempty, hmore⟩ := List.cons.inj hsplit
        exact ⟨hempty.symm, first, rest, hmore.symm.trans hrest, ih.1 ⟨hclose, hrest⟩⟩
      · rintro ⟨rfl, first, rest, rfl, hjoined⟩
        obtain ⟨hclose, hrest⟩ := ih.2 hjoined
        exact ⟨hclose, congrArg _ hrest⟩
    · -- The first character is that of the first piece on both sides.
      cases hd : depthBehind? depth c with
      | none =>
        constructor
        · rintro ⟨hclose, -⟩
          exact absurd hclose (not_closes_of_depthBehind? hd)
        · rintro ⟨⟨hpiece, -⟩, hjoin⟩
          exact absurd hjoin (not_joined_cons hd hend hpiece)
      | some inner =>
        rw [closes_cons_iff hd, splitOutside_cons hd hend, joined_cons_iff hd hend]
        constructor
        · rintro ⟨hclose, tail, hpiece, hsplit⟩
          exact ⟨tail, hpiece, ih.1 ⟨hclose, hsplit⟩⟩
        · rintro ⟨tail, hpiece, hjoined⟩
          obtain ⟨hclose, hsplit⟩ := ih.2 hjoined
          exact ⟨hclose, tail, hpiece, hsplit⟩

/-- The pieces of a balanced text are the solid texts it is joined from. -/
theorem splitOutside_eq_iff (hsep : depthBehind? 0 separator = some 0) {pieces : List (List Char)} :
    Closes 0 text ∧ splitOutside separator 0 text = pieces ↔
      pieces ≠ [] ∧ (∀ piece ∈ pieces, Solid separator 0 piece) ∧
        [separator].intercalate pieces = text := by
  cases pieces with
  | nil => simp [splitOutside_ne_nil]
  | cons piece more => simpa [and_assoc] using splitOutside_eq_cons_iff hsep

end Scan

section Solid

variable {c : Char} {text first second : List Char}

/-- A text is balanced behind a balanced one if and only if both together are. -/
theorem closes_append_iff (h : Closes 0 first) : Closes 0 (first ++ second) ↔
    Closes 0 second := by
  have hcount := h.2
  constructor
  · rintro ⟨hbefore, hall⟩
    refine ⟨fun before hb => ?_, ?_⟩
    · have hlonger := hbefore (first ++ before) ((List.prefix_append_right_inj first).2 hb)
      simp only [List.count_append] at hlonger
      omega
    · simp only [List.count_append] at hall
      omega
  · rintro ⟨hbefore, hall⟩
    refine ⟨fun before hb => ?_, ?_⟩
    · have hfirst : first <+: first ++ second := List.prefix_append first second
      rcases List.prefix_or_prefix_of_prefix hb hfirst with hshort | ⟨shorter, rfl⟩
      · exact h.1 before hshort
      · have hrest := hbefore shorter ((List.prefix_append_right_inj first).1 hb)
        simp only [List.count_append]
        omega
    · simp only [List.count_append]
      omega

/-- What is exposed in joined texts is exposed in one of them. -/
theorem exposed_append_iff (h : Closes 0 first) :
    Exposed c 0 (first ++ second) ↔ Exposed c 0 first ∨ Exposed c 0 second := by
  have hcount := h.2
  constructor
  · rintro ⟨before, after, htext, hbefore⟩
    rcases List.append_eq_append_iff.1 htext with
      ⟨shorter, rfl, hsecond⟩ | ⟨rest, rfl, hrest⟩
    · refine .inr ⟨shorter, after, hsecond, ?_⟩
      simp only [List.count_append] at hbefore
      omega
    · cases rest with
      | nil =>
        refine .inr ⟨[], after, by simpa using hrest.symm, ?_⟩
        simp
      | cons x rest =>
        obtain ⟨rfl, -⟩ : c = x ∧ after = rest ++ second := by simpa using hrest
        exact .inl ⟨before, rest, rfl, hbefore⟩
  · rintro (⟨before, after, rfl, hbefore⟩ | ⟨before, after, rfl, hbefore⟩)
    · exact ⟨before, after ++ second, by simp, hbefore⟩
    · refine ⟨first ++ before, after, by simp, ?_⟩
      simp only [List.count_append]
      omega

/-- Joined texts are solid if and only if each of them is. -/
theorem solid_append_iff (h : Closes 0 first) :
    Solid c 0 (first ++ second) ↔ Solid c 0 first ∧ Solid c 0 second := by
  unfold Solid
  rw [closes_append_iff h, exposed_append_iff h]
  tauto

/-- A text has none of the given characters. -/
def Avoids (forbidden text : List Char) : Prop :=
  ∀ x ∈ text, x ∉ forbidden

instance (forbidden text : List Char) : Decidable (Avoids forbidden text) :=
  List.decidableBAll (fun x => x ∉ forbidden) text

/-- Fewer characters are avoided if more are. -/
theorem Avoids.of_subset {forbidden fewer : List Char} (h : Avoids forbidden text)
    (hsub : fewer ⊆ forbidden) : Avoids fewer text :=
  fun x hx hmem => h x hx (hsub hmem)

/-- Two characters are avoided if and only if neither occurs. -/
theorem avoids_pair_iff {d : Char} : Avoids [c, d] text ↔ c ∉ text ∧ d ∉ text := by
  constructor
  · intro h
    exact ⟨fun hc => h c hc (by simp), fun hd => h d hd (by simp)⟩
  · intro h x hx hmem
    cases List.mem_pair.1 hmem with
    | inl heq => exact h.1 (heq ▸ hx)
    | inr heq => exact h.2 (heq ▸ hx)

/-- A character that is no brace leaves the depth as it is. -/
theorem depthBehind?_of_notMem {depth : Nat} (h : c ∉ ['\x7b', '\x7d']) :
    depthBehind? depth c = some depth := by
  obtain ⟨hopen, hclose⟩ : c ≠ '\x7b' ∧ c ≠ '\x7d' := by simpa using h
  simp [depthBehind?, hopen, hclose]

/-- In a text without braces every character is exposed. -/
theorem solid_iff_notMem (h : Avoids ['\x7b', '\x7d'] text) : Solid c 0 text ↔ c ∉ text := by
  induction text with
  | nil => simp [solid_nil_iff]
  | cons x text ih =>
    obtain ⟨hx, htext⟩ := List.forall_mem_cons.1 h
    have hrest : Solid c 0 text ↔ c ∉ text := ih htext
    rw [solid_cons_iff (depthBehind?_of_notMem hx), hrest]
    simp [@eq_comm _ x]

/-- Between braces nothing is exposed. -/
theorem solid_braced (h : Avoids ['\x7b', '\x7d'] text) (hc : c ≠ '\x7b') :
    Solid c 0 ('\x7b' :: (text ++ ['\x7d'])) := by
  have hinner : Solid c 1 (text ++ ['\x7d']) := by
    induction text with
    | nil =>
      have hend : Solid c 0 [] := solid_nil_iff.2 rfl
      have hclosing : depthBehind? 1 '\x7d' = some 0 := rfl
      simpa using (solid_cons_iff hclosing).2 ⟨by simp, hend⟩
    | cons x text ih =>
      obtain ⟨hx, htext⟩ := List.forall_mem_cons.1 h
      exact (solid_cons_iff (depthBehind?_of_notMem hx)).2 ⟨by simp, ih htext⟩
  exact (solid_cons_iff rfl).2 ⟨fun hfirst => hc hfirst.2.symm, hinner⟩

end Solid

end ApiModel.Path
