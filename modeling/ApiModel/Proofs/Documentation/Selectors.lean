import ApiModel.Proofs.First
import ApiModel.Proofs.Selection.Patterns
import ApiModel.ServiceConfig.Basic

/-!
# Selectors of documentation rules

A rule documents the element that its selector names, or, if the selector ends in a star, every
element whose name begins with what is before the star and goes on. The first rule of the very name
counts, and only where there is none the first one with a star. The patterns of names that are
skipped end in the same star, but stand only for what is behind a dot. So a rule for everything
below a name also reaches the siblings whose names merely begin like that name.
-/

namespace ApiModel

namespace ServiceConfig

namespace DocumentationRule

/-- Whether the selector ends in a star and a name begins with what is before the star, and goes
on. -/
def Reaches (rule : DocumentationRule) (name : String) : Prop :=
  ∃ scope rest, rule.selector = scope ++ ".*" ∧ rest ≠ "" ∧ name = scope ++ rest

/-- Whether the selector ends in a star and a name is below what is before the star: it goes on with
a dot and more. -/
def Encloses (rule : DocumentationRule) (name : String) : Prop :=
  ∃ scope rest, rule.selector = scope ++ ".*" ∧ rest ≠ "" ∧ name = scope ++ "." ++ rest

/-- Whether a name begins with another and goes on with something else than a dot. -/
def Sibling (scope name : String) : Prop :=
  ∃ c rest, c ≠ '.' ∧ name = scope ++ String.ofList (c :: rest)

variable {rule : DocumentationRule} {name scope : String}

/-- A rule covers the names that it reaches. -/
theorem covers_iff : rule.covers name = true ↔ rule.Reaches name := by
  rw [covers]
  cases hscope : Text.stripSuffix? ".*" rule.selector with
  | none =>
    have hplain := Text.stripSuffix?_eq_none.1 hscope
    refine iff_of_false Bool.false_ne_true ?_
    rintro ⟨scope, rest, hselector, -⟩
    exact hplain scope hselector
  | some scope =>
    have hselector := Text.stripSuffix?_eq_some.1 hscope
    rw [Bool.and_eq_true, Text.beginsWith_iff, bne_iff_ne]
    constructor
    · rintro ⟨⟨rest, rfl⟩, hlonger⟩
      refine ⟨scope, rest, hselector, ?_, rfl⟩
      rintro rfl
      exact hlonger String.append_empty.symm
    · rintro ⟨other, rest, hother, hrest, rfl⟩
      obtain rfl : scope = other := by simpa using hselector.symm.trans hother
      refine ⟨⟨rest, rfl⟩, fun hsame => hrest ?_⟩
      simpa using hsame.symm

/-- What is below a name begins with it and goes on. -/
theorem Encloses.reaches (h : rule.Encloses name) : rule.Reaches name := by
  obtain ⟨scope, rest, hselector, -, rfl⟩ := h
  refine ⟨scope, "." ++ rest, hselector, fun hempty => ?_, String.append_assoc⟩
  have hlength := congrArg String.toList hempty
  rw [String.toList_append] at hlength
  cases hlength

/-- A rule with a star reaches the names that the same pattern skips, and the siblings. -/
theorem reaches_iff (scope text name : String) :
    (⟨scope ++ ".*", text⟩ : DocumentationRule).Reaches name ↔
      IdFilter.StandsFor ("." ++ scope ++ ".*") ("." ++ name) ∨ Sibling scope name := by
  rw [IdFilter.standsFor_star]
  constructor
  · rintro ⟨other, rest, hother, hrest, rfl⟩
    obtain rfl : scope = other := by simpa using hother
    cases hchars : rest.toList with
    | nil => exact absurd (String.toList_eq_nil_iff.1 hchars) hrest
    | cons c after =>
      have hsplit : rest = String.ofList (c :: after) := String.toList_inj.1 (by simpa using hchars)
      by_cases hdot : c = '.'
      · subst hdot
        exact .inl ⟨String.ofList after, by rw [hsplit]; simp [String.append_assoc]⟩
      · exact .inr ⟨c, after, hdot, by rw [hsplit]⟩
  · rintro (⟨rest, hname⟩ | ⟨c, rest, -, rfl⟩)
    · refine ⟨scope, "." ++ rest, rfl, ?_, ?_⟩
      · simp
      · simpa [String.append_assoc] using hname
    · exact ⟨scope, String.ofList (c :: rest), rfl, by simp, rfl⟩

/-- A rule with a star encloses the names that the same pattern skips, but for the one that ends in
the dot. -/
theorem encloses_iff (scope text name : String) :
    (⟨scope ++ ".*", text⟩ : DocumentationRule).Encloses name ↔
      IdFilter.StandsFor ("." ++ scope ++ ".*") ("." ++ name) ∧ name ≠ scope ++ "." := by
  rw [IdFilter.standsFor_star]
  constructor
  · rintro ⟨other, rest, hother, hrest, rfl⟩
    obtain rfl : scope = other := by simpa using hother
    exact ⟨⟨rest, by simp [String.append_assoc]⟩, by simpa using hrest⟩
  · rintro ⟨⟨rest, hname⟩, hends⟩
    have hname : name = scope ++ "." ++ rest := by simpa [String.append_assoc] using hname
    subst hname
    exact ⟨scope, rest, rfl, by simpa using hends, rfl⟩

end DocumentationRule

open DocumentationRule

/-- What rules say of a name, given the names that a star stands for: the description of the first
rule of the very name, or, where there is none, of the first rule with a star that stands for it. -/
inductive Documents (star : DocumentationRule → String → Prop) (rules : List DocumentationRule)
    (name : String) : Option String → Prop
  /-- A selector is the name. -/
  | named {rule : DocumentationRule} (h : First (fun r => r.selector = name) rules rule) :
    Documents star rules name (some rule.description)
  /-- A star stands for the name. -/
  | starred {rule : DocumentationRule} (hnamed : ∀ r ∈ rules, r.selector ≠ name)
    (h : First (fun r => star r name) rules rule) :
    Documents star rules name (some rule.description)
  /-- No rule is about the name. -/
  | undocumented (hnamed : ∀ r ∈ rules, r.selector ≠ name)
      (hstar : ∀ r ∈ rules, ¬star r name) :
    Documents star rules name none

variable {rules : List DocumentationRule} {name : String} {text : Option String}

/-- A configuration says of an element what its rules say of the name without leading dots, where a
star stands for every longer name. -/
theorem documents_documentationFor? (config : ServiceConfig) (id : String) :
    Documents Reaches config.documentation.rules (Text.dropDots id)
      (config.documentationFor? id) := by
  have hself : ∀ r : DocumentationRule, (r.selector == Text.dropDots id) = true ↔
      r.selector = Text.dropDots id := fun _ => beq_iff_eq
  unfold documentationFor?
  dsimp only
  generalize config.documentation.rules = rules
  cases hnamed : rules.find? fun r => r.selector == Text.dropDots id with
  | some rule => exact .named ((First.find?_eq_some hself).1 hnamed)
  | none =>
    have hnamed : ∀ r ∈ rules, r.selector ≠ Text.dropDots id := fun r hr hsame =>
      List.find?_eq_none.1 hnamed r hr ((hself r).2 hsame)
    cases hstar : rules.find? fun r => r.covers (Text.dropDots id) with
    | some rule => exact .starred hnamed ((First.find?_eq_some fun _ => covers_iff).1 hstar)
    | none =>
      exact .undocumented hnamed fun r hr hreaches =>
        List.find?_eq_none.1 hstar r hr (covers_iff.2 hreaches)

/-- What is said of a name where a star stands for every longer one is what is said where it stands
for those behind a dot if and only if the very name has a rule, or the first rule that reaches it
says the same as the first that encloses it. -/
theorem Documents.encloses_iff (h : Documents Reaches rules name text) :
    Documents Encloses rules name text ↔
      (∃ rule ∈ rules, rule.selector = name) ∨
        ∀ rule, First (fun r => r.Reaches name) rules rule →
          ∃ other, First (fun r => r.Encloses name) rules other ∧
            other.description = rule.description := by
  cases h with
  | @named rule hrule =>
      exact iff_of_true (.named hrule) (.inl ⟨rule, hrule.mem, hrule.property⟩)
  | @starred rule hnamed hrule =>
    constructor
    · generalize hsaid : some rule.description = said
      rintro (@⟨other, hother⟩ | @⟨other, -, hother⟩ | -)
      · exact absurd hother.property (hnamed other hother.mem)
      · refine .inr fun first hfirst => ⟨other, hother, ?_⟩
        rw [hfirst.unique hrule, Option.some.inj hsaid]
      · cases hsaid
    · rintro (⟨other, hother, hsame⟩ | hfirst)
      · exact absurd hsame (hnamed other hother)
      · obtain ⟨other, hother, hsaid⟩ := hfirst rule hrule
        exact hsaid ▸ .starred hnamed hother
  | undocumented hnamed hstar =>
    refine iff_of_true (.undocumented hnamed fun r hr henclosed => hstar r hr henclosed.reaches) ?_
    exact .inr fun rule hrule => absurd hrule.property (hstar rule hrule.mem)

/-- What a configuration says of an element is what its rules say where a star stands for every
longer name. It is what they say where a star stands for what is behind the dot if and only if the
very name has a rule, or the first rule that reaches the name says the same as the first that
encloses it. And a rule with a star reaches, beyond the names that the same pattern skips, exactly
the siblings. -/
theorem documentationFor?_exact (config : ServiceConfig) (id : String) :
    let rules := config.documentation.rules
    let name := Text.dropDots id
    Documents Reaches rules name (config.documentationFor? id) ∧
      (Documents Encloses rules name (config.documentationFor? id) ↔
        (∃ rule ∈ rules, rule.selector = name) ∨
          ∀ rule, First (fun r => r.Reaches name) rules rule →
            ∃ other, First (fun r => r.Encloses name) rules other ∧
              other.description = rule.description) ∧
      ∀ scope text,
        ((⟨scope ++ ".*", text⟩ : DocumentationRule).Reaches name ↔
          IdFilter.StandsFor ("." ++ scope ++ ".*") ("." ++ name) ∨ Sibling scope name) ∧
        ((⟨scope ++ ".*", text⟩ : DocumentationRule).Encloses name ↔
          IdFilter.StandsFor ("." ++ scope ++ ".*") ("." ++ name) ∧ name ≠ scope ++ ".") := by
  have hsaid := documents_documentationFor? config id
  exact ⟨hsaid, hsaid.encloses_iff, fun scope text =>
    ⟨reaches_iff scope text (Text.dropDots id), DocumentationRule.encloses_iff scope text _⟩⟩

/-- A configuration with one rule, for what is in an item. -/
def itemRules : ServiceConfig :=
  { documentation := { rules := [⟨"shop.Item.*", "Part of an item."⟩] } }

/-- The rule of the items also documents a sibling of the item, of which rules that keep to what is
behind the dot say nothing. -/
theorem not_documents_encloses_itemRules :
    itemRules.documentationFor? ".shop.Items" = some "Part of an item." ∧
      ¬Documents Encloses itemRules.documentation.rules "shop.Items"
        (itemRules.documentationFor? ".shop.Items") ∧
      ¬IdFilter.StandsFor ".shop.Item.*" ".shop.Items" := by
  have hsaid : itemRules.documentationFor? ".shop.Items" = some "Part of an item." := by
    decide +kernel
  have hskipped : ¬IdFilter.StandsFor ".shop.Item.*" ".shop.Items" := fun h =>
    absurd (IdFilter.patternMatches_iff.2 h) (by decide +kernel)
  have hrule : ∀ r ∈ itemRules.documentation.rules, r =
      ⟨"shop.Item" ++ ".*", "Part of an item."⟩ := by
    decide +kernel
  refine ⟨hsaid, fun h => ?_, hskipped⟩
  rw [hsaid] at h
  have hhit : ∃ r ∈ itemRules.documentation.rules, r.selector = "shop.Items" ∨
      r.Encloses "shop.Items" := by
    generalize hgiven : some "Part of an item." = said at h
    cases h with
    | @named rule hfirst => exact ⟨rule, hfirst.mem, .inl hfirst.property⟩
    | @starred rule _ hfirst => exact ⟨rule, hfirst.mem, .inr hfirst.property⟩
    | undocumented => cases hgiven
  obtain ⟨rule, hmem, hhit⟩ := hhit
  rw [hrule rule hmem] at hhit
  rcases hhit with hself | hbelow
  · exact absurd hself (by decide +kernel)
  · exact hskipped ((DocumentationRule.encloses_iff _ _ _).1 hbelow).1

end ServiceConfig

end ApiModel
