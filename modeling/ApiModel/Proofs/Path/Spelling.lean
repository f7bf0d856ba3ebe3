import ApiModel.Proofs.Attempt
import ApiModel.Proofs.Path.Braces

/-!
# Segments and verb of a path

A path behind its first slash is split twice: at its exposed slashes into segments, and the last
segment at its exposed colons, of which the last begins the verb. Both scans read the same braces,
so together they find the one way to write the text as solid segments and a verb. One scan of the
whole path that remembers the last exposed colon behind the last exposed slash finds the same verb.
-/

namespace ApiModel.Path

namespace Spelling

/-- The path that a spelling spells. -/
def path (s : Spelling) : List Char :=
  ['/'].intercalate s.segments ++
    (match s.verb with
     | none => []
     | some verb => ':' :: verb)

/-- Segments are balanced and without exposed slashes, and what ends the path is a verb if and only
if it stands behind an exposed colon. -/
structure Exact (s : Spelling) : Prop where
  /-- A path has a segment. -/
  segments_ne_nil : s.segments ≠ []
  /-- No segment could be split. -/
  segments : ∀ segment ∈ s.segments, Solid '/' 0 segment
  /-- Without a verb, the last segment has no colon that could begin one. -/
  last : s.verb = none → ∀ segment ∈ s.segments.getLast?, Solid ':' 0 segment
  /-- A verb is not empty and could not be split. -/
  verb : ∀ verb ∈ s.verb, verb ≠ [] ∧ Solid '/' 0 verb ∧ Solid ':' 0 verb

end Spelling

/-- A slash is no brace. -/
theorem depthBehind?_slash : depthBehind? 0 '/' = some 0 := rfl

/-- A colon is no brace. -/
theorem depthBehind?_colon : depthBehind? 0 ':' = some 0 := rfl

/-- Joined with one more piece, the last piece stands behind a separator. -/
theorem intercalate_concat {separator : Char} {pieces : List (List Char)} (h : pieces ≠ [])
    (last : List Char) : [separator].intercalate (pieces ++ [last]) =
      [separator].intercalate pieces ++ separator :: last := by
  induction pieces with
  | nil => exact absurd rfl h
  | cons piece more ih =>
    cases more with
    | nil => simp
    | cons other more => simpa using ih (by simp)

/-- A longer last piece makes the joined text longer at its end. -/
theorem intercalate_concat_append {separator : Char} (pieces : List (List Char))
    (last more : List Char) : [separator].intercalate (pieces ++ [last ++ more]) =
      [separator].intercalate (pieces ++ [last]) ++ more := by
  by_cases h : pieces = []
  · simp [h]
  · simp [intercalate_concat h]

/-- A segment behind which a verb stands is solid if and only if both are. -/
theorem solid_verb_iff {segment verb : List Char} (h : Closes 0 segment) :
    Solid '/' 0 (segment ++ ':' :: verb) ↔ Solid '/' 0 segment ∧ Solid '/' 0 verb := by
  rw [solid_append_iff h, solid_cons_iff depthBehind?_colon]
  simp

variable {s : Spelling}

/-- A solid text is one piece. -/
theorem splitOutside_of_solid {separator : Char} (hsep : depthBehind? 0 separator = some 0)
    {text : List Char} (h : Solid separator 0 text) : splitOutside separator 0 text = [text] := by
  have hspec : Closes 0 text ∧ splitOutside separator 0 text = [text] :=
    (splitOutside_eq_iff hsep).2 ⟨by simp, by simpa using h, by simp⟩
  exact hspec.2

/-- A solid text behind a separator is the last piece of the split. -/
theorem splitOutside_concat {separator : Char} (hsep : depthBehind? 0 separator = some 0)
    {text last : List Char} (htext : Closes 0 text) (hlast : Solid separator 0 last) :
    splitOutside separator 0 (text ++ separator :: last) =
      splitOutside separator 0 text ++ [last] := by
  obtain ⟨hne, hsolid, hjoin⟩ := (splitOutside_eq_iff hsep).1 ⟨htext, rfl⟩
  refine ((splitOutside_eq_iff hsep).2 ⟨by simp, ?_, ?_⟩).2
  · simpa [or_imp, forall_and] using ⟨hsolid, hlast⟩
  · rw [intercalate_concat hne, hjoin]

/-- The last segment has no exposed colon, or it is split at the last of them. -/
theorem splitVerb_cases (init : List (List Char)) {last : List Char} (hlast : Closes 0 last) :
    (Solid ':' 0 last ∧ splitVerb (init ++ [last]) = .ok ⟨init ++ [last], none⟩) ∨
      ∃ segment verb, last = segment ++ ':' :: verb ∧ Closes 0 segment ∧ Solid ':' 0 verb ∧
        splitVerb (init ++ [last]) =
          if verb = [] then .error .emptyVerb else .ok ⟨init ++ [segment], some verb⟩ := by
  obtain ⟨hne, hsolid, hjoin⟩ := (splitOutside_eq_iff depthBehind?_colon).1 ⟨hlast, rfl⟩
  obtain ⟨front, verb, hpieces⟩ := (List.eq_nil_or_concat' _).resolve_left hne
  rw [hpieces] at hsolid hjoin
  by_cases hfront : front = []
  · subst hfront
    obtain rfl : verb = last := by simpa using hjoin
    exact .inl ⟨hsolid verb (by simp), by simp [splitVerb, hpieces]⟩
  · rw [intercalate_concat hfront] at hjoin
    have hsegment : Closes 0 ([':'].intercalate front) ∧
        splitOutside ':' 0 ([':'].intercalate front) = front :=
      (splitOutside_eq_iff depthBehind?_colon).2
        ⟨hfront, fun piece hp => hsolid piece (by simp [hp]), rfl⟩
    refine .inr ⟨_, verb, hjoin.symm, hsegment.1, hsolid verb (by simp), ?_⟩
    simp [splitVerb, hpieces, hfront]

/-- The last segment is split at the last of its exposed colons. -/
theorem splitVerb_eq_ok_iff {init : List (List Char)} {last : List Char} (hlast : Closes 0 last) :
    splitVerb (init ++ [last]) = .ok s ↔
      (Solid ':' 0 last ∧ s = ⟨init ++ [last], none⟩) ∨
      ∃ segment verb, last = segment ++ ':' :: verb ∧ Closes 0 segment ∧ verb ≠ [] ∧
        Solid ':' 0 verb ∧ s = ⟨init ++ [segment], some verb⟩ := by
  constructor
  · intro h
    rcases splitVerb_cases init hlast with ⟨hsolid, hsplit⟩ |
      ⟨segment, verb, hjoin, hclose, hsolid, hsplit⟩
    · exact .inl ⟨hsolid, (Except.ok.inj (hsplit.symm.trans h)).symm⟩
    · rw [hsplit] at h
      split at h
      case isTrue => cases h
      case isFalse hverb =>
        exact .inr ⟨segment, verb, hjoin, hclose, hverb, hsolid, (Except.ok.inj h).symm⟩
  · rintro (⟨hsolid, rfl⟩ | ⟨segment, verb, rfl, hclose, hverb, hsolid, rfl⟩)
    · have hone : splitOutside ':' 0 last = [last] :=
        splitOutside_of_solid depthBehind?_colon hsolid
      simp [splitVerb, hone]
    · obtain ⟨hne, -, hjoin⟩ := (splitOutside_eq_iff depthBehind?_colon).1 ⟨hclose, rfl⟩
      have hsplit := splitOutside_concat depthBehind?_colon hclose hsolid
      simp [splitVerb, hsplit, hne, hverb, hjoin]

/-- What is found at the last of solid pieces is an exact spelling of the joined pieces. -/
theorem exact_of_splitVerb {init : List (List Char)} {last : List Char}
    (hsolid : ∀ piece ∈ init ++ [last], Solid '/' 0 piece)
    (h : splitVerb (init ++ [last]) = .ok s) :
    s.Exact ∧ s.path = ['/'].intercalate (init ++ [last]) := by
  have hlast : Solid '/' 0 last := hsolid last (by simp)
  rcases (splitVerb_eq_ok_iff hlast.1).1 h with ⟨hcolon, rfl⟩ |
    ⟨segment, verb, rfl, hclose, hverb, hcolon, rfl⟩
  · have hexact : Spelling.Exact ⟨init ++ [last], none⟩ :=
      ⟨by simp, hsolid, by simpa using hcolon, by simp⟩
    exact ⟨hexact, by simp [Spelling.path]⟩
  · obtain ⟨hsegment, hslash⟩ := (solid_verb_iff hclose).1 hlast
    have hsegments : ∀ piece ∈ init ++ [segment], Solid '/' 0 piece :=
      List.forall_mem_append.2
        ⟨fun piece hp => hsolid piece (by simp [hp]), List.forall_mem_singleton.2 hsegment⟩
    have hexact : Spelling.Exact ⟨init ++ [segment], some verb⟩ :=
      ⟨by simp, hsegments, by simp, by simpa using ⟨hverb, hslash, hcolon⟩⟩
    exact ⟨hexact, (intercalate_concat_append init segment (':' :: verb)).symm⟩

/-- In the path of an exact spelling, the last segment with the verb behind it is solid, and is
split into them again. -/
theorem Spelling.Exact.exists_whole {init : List (List Char)} {last : List Char}
    {verb : Option (List Char)} (h : Spelling.Exact ⟨init ++ [last], verb⟩) :
    ∃ whole, Spelling.path ⟨init ++ [last], verb⟩ = ['/'].intercalate (init ++ [whole]) ∧
      Solid '/' 0 whole ∧ splitVerb (init ++ [whole]) = .ok ⟨init ++ [last], verb⟩ := by
  have hlast : Solid '/' 0 last := h.segments last (by simp)
  cases verb with
  | none =>
    have hcolon : Solid ':' 0 last := h.last rfl last (by simp)
    exact ⟨last, by simp [Spelling.path], hlast,
      (splitVerb_eq_ok_iff hlast.1).2 (.inl ⟨hcolon, rfl⟩)⟩
  | some verb =>
    obtain ⟨hverb, hslash, hcolon⟩ := h.verb verb rfl
    have hwhole : Solid '/' 0 (last ++ ':' :: verb) :=
      (solid_verb_iff hlast.1).2 ⟨hlast, hslash⟩
    exact ⟨last ++ ':' :: verb, by simp [Spelling.path, intercalate_concat_append], hwhole,
      (splitVerb_eq_ok_iff hwhole.1).2 (.inr ⟨last, verb, rfl, hlast.1, hverb, hcolon, rfl⟩)⟩

/-- The spelling of a path is the one exact spelling whose path it is. -/
theorem spelling_eq_ok_iff {body : List Char} : spelling body = .ok s ↔
    s.Exact ∧ s.path = body := by
  constructor
  · intro h
    unfold spelling at h
    split at h
    case isFalse => cases h
    case isTrue hbalanced =>
      obtain ⟨hne, hsolid, hjoin⟩ :=
        (splitOutside_eq_iff depthBehind?_slash).1 ⟨balanced_iff.1 hbalanced, rfl⟩
      obtain ⟨init, last, hpieces⟩ := (List.eq_nil_or_concat' _).resolve_left hne
      rw [hpieces] at h hsolid hjoin
      obtain ⟨hexact, hpath⟩ := exact_of_splitVerb hsolid h
      exact ⟨hexact, hpath.trans hjoin⟩
  · rintro ⟨hexact, rfl⟩
    obtain ⟨segments, verb⟩ := s
    obtain ⟨init, last, rfl⟩ := (List.eq_nil_or_concat' _).resolve_left hexact.segments_ne_nil
    obtain ⟨whole, hpath, hwhole, hsplit⟩ := hexact.exists_whole
    have hpieces : ∀ piece ∈ init ++ [whole], Solid '/' 0 piece :=
      List.forall_mem_append.2 ⟨fun piece hp => hexact.segments piece (by simp [hp]),
        List.forall_mem_singleton.2 hwhole⟩
    have hspec : Closes 0 (['/'].intercalate (init ++ [whole])) ∧
        splitOutside '/' 0 (['/'].intercalate (init ++ [whole])) = init ++ [whole] :=
      (splitOutside_eq_iff depthBehind?_slash).2 ⟨by simp, hpieces, rfl⟩
    obtain ⟨hclose, hslash⟩ := hspec
    rw [hpath, spelling, if_pos (balanced_iff.2 hclose), hslash, hsplit]

/-! ## One scan for the verb -/

/-- How far a path is scanned for its verb. -/
structure VerbScan where
  /-- How many braces are open. -/
  depth : Nat := 0
  /-- How many characters were read. -/
  position : Nat := 0
  /-- Where the last colon outside braces stands that no slash outside braces follows. -/
  verbAt : Option Nat := none

/-- Reads the next character: a slash outside braces ends the segment with the colons in it, and a
colon outside braces begins a verb. -/
def VerbScan.next (s : VerbScan) (c : Char) : Except TemplateFault VerbScan :=
  match depthBehind? s.depth c with
  | none => .error .unbalancedBraces
  | some inner => .ok {
      depth := inner
      position := s.position + 1
      verbAt :=
        if s.depth = 0 ∧ c = '/' then none
        else if s.depth = 0 ∧ c = ':' then some s.position
        else s.verbAt }

/-- Splits a path where one scan finds its verb. -/
def scanVerb (body : List Char) : Except TemplateFault (List Char × Option (List Char)) := do
  let s ← body.foldlM VerbScan.next {}
  if s.depth ≠ 0 then throw .unbalancedBraces
  match s.verbAt with
  | some i =>
    if i + 1 < body.length then return (body.take i, some (body.drop (i + 1)))
    else throw .emptyVerb
  | none => return (body, none)

/-- A scan comes to the end of a text that closes its braces. -/
theorem exists_foldlM_next {text : List Char} (scan : VerbScan) (h : Closes scan.depth text) :
    ∃ verbAt, text.foldlM VerbScan.next scan =
      .ok ⟨0, scan.position + text.length, verbAt⟩ := by
  induction text generalizing scan with
  | nil =>
    have hzero : scan.depth = 0 := by simpa using h.2.symm
    exact ⟨scan.verbAt, by rw [← hzero]; rfl⟩
  | cons c text ih =>
    cases hd : depthBehind? scan.depth c with
    | none => exact absurd h (not_closes_of_depthBehind? hd)
    | some inner =>
      obtain ⟨verbAt, hrest⟩ := ih ⟨inner, scan.position + 1, _⟩ ((closes_cons_iff hd).1 h)
      refine ⟨verbAt, ?_⟩
      rw [List.foldlM_cons, VerbScan.next, hd]
      refine hrest.trans ?_
      rw [List.length_cons, Nat.add_assoc, Nat.add_comm 1]

/-- A scan finds no other colon in a text that is solid for slashes and colons. -/
theorem foldlM_next_of_solid {text : List Char} (scan : VerbScan)
    (hslash : Solid '/' scan.depth text) (hcolon : Solid ':' scan.depth text) :
    text.foldlM VerbScan.next scan = .ok ⟨0, scan.position + text.length, scan.verbAt⟩ := by
  induction text generalizing scan with
  | nil =>
    have hzero : scan.depth = 0 := solid_nil_iff.1 hslash
    rw [← hzero]
    rfl
  | cons c text ih =>
    cases hd : depthBehind? scan.depth c with
    | none => exact absurd hslash.1 (not_closes_of_depthBehind? hd)
    | some inner =>
      obtain ⟨hnoSlash, hslash⟩ := (solid_cons_iff hd).1 hslash
      obtain ⟨hnoColon, hcolon⟩ := (solid_cons_iff hd).1 hcolon
      rw [List.foldlM_cons, VerbScan.next, hd, if_neg hnoSlash, if_neg hnoColon]
      refine (ih ⟨inner, scan.position + 1, scan.verbAt⟩ hslash hcolon).trans ?_
      rw [List.length_cons, Nat.add_assoc, Nat.add_comm 1]

/-- A scan of a text that does not close its braces fails or leaves braces open. -/
theorem foldlM_next_of_not_closes {text : List Char} (scan : VerbScan)
    (h : ¬Closes scan.depth text) :
    text.foldlM VerbScan.next scan = .error .unbalancedBraces ∨
      ∃ last, text.foldlM VerbScan.next scan = .ok last ∧ last.depth ≠ 0 := by
  induction text generalizing scan with
  | nil =>
    refine .inr ⟨scan, rfl, fun hzero => h ?_⟩
    exact (solid_nil_iff.2 hzero : Solid ':' scan.depth []).1
  | cons c text ih =>
    rw [List.foldlM_cons, VerbScan.next]
    cases hd : depthBehind? scan.depth c with
    | none => exact .inl rfl
    | some inner =>
      exact ih ⟨inner, scan.position + 1, _⟩ fun hclose => h ((closes_cons_iff hd).2 hclose)

/-- A path that does not close its braces is not split. -/
theorem scanVerb_of_not_closes {body : List Char} (h : ¬Closes 0 body) :
    scanVerb body = .error .unbalancedBraces := by
  have hscan := foldlM_next_of_not_closes {} h
  unfold scanVerb
  rcases hscan with hfail | ⟨last, hscan, hdepth⟩
  · rw [hfail]
    rfl
  · rw [hscan]
    exact if_pos hdepth

/-- Without a slash or a colon outside braces behind the last such slash, a path has no verb. -/
theorem scanVerb_of_solid {front : List (List Char)} {last : List Char}
    (hfront : ∀ piece ∈ front, Solid '/' 0 piece) (hslash : Solid '/' 0 last)
    (hcolon : Solid ':' 0 last) :
    scanVerb (['/'].intercalate (front ++ [last])) =
      .ok (['/'].intercalate (front ++ [last]), none) := by
  have hscan : (['/'].intercalate (front ++ [last])).foldlM VerbScan.next {} =
      .ok ⟨0, (['/'].intercalate (front ++ [last])).length, none⟩ := by
    by_cases hne : front = []
    · subst hne
      rw [List.nil_append, List.intercalate_singleton]
      exact (foldlM_next_of_solid {} hslash hcolon).trans (by rw [Nat.zero_add])
    · have hclosed : Closes 0 (['/'].intercalate front) :=
        ((splitOutside_eq_iff depthBehind?_slash).2 ⟨hne, hfront, rfl⟩).1
      obtain ⟨verbAt, hbefore⟩ := exists_foldlM_next {} hclosed
      rw [intercalate_concat hne, List.foldlM_append, hbefore]
      refine (foldlM_next_of_solid ⟨0, _, none⟩ hslash hcolon).trans ?_
      simp [Nat.add_assoc, Nat.add_comm 1]
  unfold scanVerb
  rw [hscan]
  rfl

/-- Behind a text that closes its braces, a colon begins the verb if the rest has no slash or colon
outside braces. -/
theorem scanVerb_of_verb {before verb : List Char} (hbefore : Closes 0 before)
    (hslash : Solid '/' 0 verb) (hcolon : Solid ':' 0 verb) :
    scanVerb (before ++ ':' :: verb) =
      if verb = [] then .error .emptyVerb else .ok (before, some verb) := by
  obtain ⟨verbAt, hscan⟩ := exists_foldlM_next {} hbefore
  have hrest := foldlM_next_of_solid ⟨0, before.length + 1, some before.length⟩ hslash hcolon
  unfold scanVerb
  rw [List.foldlM_append, hscan, Nat.zero_add]
  change (verb.foldlM VerbScan.next ⟨0, before.length + 1, some before.length⟩ >>= _) = _
  rw [hrest]
  change (if before.length + 1 < (before ++ ':' :: verb).length then _ else _) = _
  rw [List.length_append, List.length_cons, List.take_left]
  cases verb with
  | nil => exact if_neg (by simp)
  | cons c verb =>
    rw [if_pos (by simp), if_neg (List.cons_ne_nil c verb), ← List.drop_drop, List.drop_left]
    rfl

/-- The spelling of a path is found by one scan for the verb and one for the slashes before it. -/
theorem spelling_eq_scanVerb (body : List Char) :
    spelling body = (scanVerb body).map fun read => ⟨splitOutside '/' 0 read.1, read.2⟩ := by
  by_cases hclose : Closes 0 body
  · obtain ⟨hne, hsolid, hjoin⟩ := (splitOutside_eq_iff depthBehind?_slash).1 ⟨hclose, rfl⟩
    obtain ⟨init, last, hpieces⟩ := (List.eq_nil_or_concat' _).resolve_left hne
    rw [spelling, if_pos (balanced_iff.2 hclose), hpieces]
    rw [hpieces] at hsolid hjoin
    have hlast : Solid '/' 0 last := hsolid last (by simp)
    have hinit : ∀ piece ∈ init, Solid '/' 0 piece :=
      fun piece hp => hsolid piece (by simp [hp])
    rcases splitVerb_cases init hlast.1 with ⟨hcolon, hsplit⟩ |
      ⟨segment, verb, rfl, hsegment, hcolon, hsplit⟩
    · have hscan := scanVerb_of_solid hinit hlast hcolon
      rw [hjoin] at hscan
      rw [hsplit, hscan, ← hpieces]
      rfl
    · obtain ⟨hslash, hverb⟩ := (solid_verb_iff hsegment).1 hlast
      have hbefore : ∀ piece ∈ init ++ [segment], Solid '/' 0 piece :=
        List.forall_mem_append.2 ⟨hinit, List.forall_mem_singleton.2 hslash⟩
      obtain ⟨hclosed, hsegments⟩ :=
        (splitOutside_eq_iff depthBehind?_slash).2 ⟨by simp, hbefore, rfl⟩
      rw [intercalate_concat_append] at hjoin
      rw [hsplit, ← hjoin, scanVerb_of_verb hclosed hverb hcolon]
      by_cases hempty : verb = []
      · rw [if_pos hempty, if_pos hempty]
        rfl
      · rw [if_neg hempty, if_neg hempty]
        exact congrArg (fun pieces => Except.ok (Spelling.mk pieces (some verb))) hsegments.symm
  · rw [scanVerb_of_not_closes hclose, spelling, if_neg fun h => hclose (balanced_iff.1 h)]
    rfl

/-- A path is read by reading the segments of its spelling, and the verb is taken as it stands. -/
theorem readBody_eq_ok_iff {segment : List Char → Except TemplateFault Segment} {body : List Char}
    {t : Template} :
    readBody segment body = .ok t ↔ ∃ s : Spelling, s.Exact ∧ s.path = body ∧
      List.Forall₂ (fun piece x => segment piece = .ok x) s.segments t.segments ∧
      t.verb = s.verb.map String.ofList := by
  unfold readBody
  rw [Attempt.bind_eq_ok]
  simp only [spelling_eq_ok_iff, and_assoc]
  refine exists_congr fun s => and_congr_right fun _ => and_congr_right fun _ => ?_
  rw [Attempt.bind_eq_ok]
  constructor
  · rintro ⟨segments, hsegments, ht⟩
    obtain rfl := Except.ok.inj ht
    exact ⟨Attempt.mapM_eq_ok.1 hsegments, rfl⟩
  · rintro ⟨hsegments, hverb⟩
    exact ⟨t.segments, Attempt.mapM_eq_ok.2 hsegments, by rw [← hverb]; rfl⟩

end ApiModel.Path
