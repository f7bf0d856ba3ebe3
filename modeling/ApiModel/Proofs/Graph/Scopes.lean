import ApiModel.Model.Query
import ApiModel.Proofs.Graph.Runs
import Mathlib.Computability.StateTransition

/-!
# Collecting naming scopes

The scopes of a message are collected on the way up: a loop goes from the message around it to the
one around that, until there is none. If the messages around a message are those of a list, the loop
ends behind it. Scopes depend only on the full names, the packages and the parents of elements, and
no call changes any of these.
-/

namespace ApiModel

/-- How far the scopes of a message have been collected. -/
structure Ascent where
  /-- The scopes so far. -/
  scopes : List String
  /-- The message that is next. -/
  around : Option MessageRef

/-- What the scopes of an element depend on. -/
structure Setting where
  /-- The full name. -/
  id : String
  /-- The package. -/
  package : String
  /-- The message around it. -/
  parent : Option MessageRef

/-- What the scopes of a message depend on. -/
def Message.setting (x : Message) : Setting := ⟨x.id, x.package, x.parent⟩

/-- What the scopes of an enumeration depend on. -/
def Enumeration.setting (x : Enumeration) : Setting := ⟨x.id, x.package, x.parent⟩

namespace Model

variable {m other last : Model} {start : Option MessageRef} {around : List MessageRef}

/-- The next step of the loop: the full name of the message that is next, without its leading dots,
is a scope, and the message around that one is next. Without a message the loop ends. -/
def ascendNext? (m : Model) (a : Ascent) : Option Ascent :=
  a.around.map fun r => ⟨a.scopes ++ [relativeName (m.message r).id], (m.message r).parent⟩

/-- Whether the messages around a place are those of a list, innermost first. -/
inductive Ascends (m : Model) : Option MessageRef → List MessageRef → Prop
  /-- Nothing is around the top. -/
  | top : Ascends m none []
  /-- A message is around what is nested in it, and so is what is around the message. -/
  | inside {r : MessageRef} {rest : List MessageRef} (hrest : Ascends m (m.message r).parent rest) :
    Ascends m (some r) (r :: rest)

/-- Whether a list is the scopes of a message, and the loop that collects them comes to an end with
it. -/
structure CollectsScopes (m : Model) (x : Message) (scopes : List String) : Prop where
  /-- The loop ends, and with the package behind them its scopes are those of the list. -/
  ends : ∃ last ∈ StateTransition.eval m.ascendNext? ⟨[relativeName x.id], x.parent⟩,
    last.around = none ∧ last.scopes ++ packageScope x.package = scopes
  /-- They are the scopes of the message. -/
  scopes : m.messageScopes x = scopes

namespace Ascends

variable (h : m.Ascends start around)

include h

/-- The messages around a place are what an ascent finds that may go as far. -/
theorem enclosing_eq {depth : Nat} (hdepth : around.length ≤ depth) :
    m.enclosing depth start = around := by
  induction h generalizing depth with
  | top => cases depth <;> rfl
  | @inside r rest _ ih =>
    obtain ⟨n, rfl⟩ : ∃ n, depth = n + 1 :=
      Nat.exists_eq_succ_of_ne_zero (Nat.ne_zero_of_lt hdepth)
    rw [enclosing, ih (Nat.le_of_succ_le_succ hdepth)]

/-- The loop collects the scopes of the messages around a place and then ends. -/
theorem reaches (collected : List String) :
    StateTransition.Reaches m.ascendNext? ⟨collected, start⟩
      ⟨collected ++ around.map fun r => relativeName (m.message r).id, none⟩ := by
  induction h generalizing collected with
  | top =>
    rw [List.map_nil, List.append_nil]
    exact .refl
  | @inside r rest _ ih =>
    have hrest := ih (collected ++ [relativeName (m.message r).id])
    rw [List.append_assoc, List.singleton_append] at hrest
    exact .head rfl hrest

/-- A message with no more messages around it than there are in the store has their scopes. -/
theorem collectsScopes {x : Message} (hx : x.parent = start)
    (hdepth : around.length ≤ m.depthBound) :
    m.CollectsScopes x (relativeName x.id ::
      around.map (fun r => relativeName (m.message r).id) ++ packageScope x.package) := by
  subst hx
  constructor
  case ends =>
    exact ⟨_, StateTransition.mem_eval.2 ⟨h.reaches [relativeName x.id], rfl⟩, rfl, rfl⟩
  case scopes =>
    rw [messageScopes, h.enclosing_eq hdepth]

end Ascends

/-! ## What calls leave as it is -/

/-- Whether the elements of two models have the same full names, packages and parents. -/
structure SameSettings (m other : Model) : Prop where
  /-- As many messages. -/
  messageCount : other.store.messages.size = m.store.messages.size
  /-- The messages. -/
  message : ∀ r, (other.message r).setting = (m.message r).setting
  /-- The enumerations. -/
  enumeration : ∀ r, (other.enumeration r).setting = (m.enumeration r).setting

namespace SameSettings

/-- Every model has its own settings. -/
theorem refl (m : Model) : SameSettings m m :=
  ⟨rfl, fun _ => rfl, fun _ => rfl⟩

/-- Having the same settings is passed on. -/
theorem trans (h : SameSettings m other) (h' : SameSettings other last) : SameSettings m last where
  messageCount := h'.messageCount.trans h.messageCount
  message r := (h'.message r).trans (h.message r)
  enumeration r := (h'.enumeration r).trans (h.enumeration r)

/-- A reduced model has the same settings. -/
theorem of_reduction (h : Reduction m other) : SameSettings m other where
  messageCount := h.messageCount
  message r := by
    have hsetting := congrArg Message.setting (h.message r)
    exact hsetting
  enumeration r := congrArg Enumeration.setting (h.enumeration r)

/-- Models of one source have the same settings. -/
theorem of_sameSource (h : SameSource m other) : SameSettings m other where
  messageCount := h.count
  message r := by
    have hsetting := congrArg Message.setting (h.messageSource r)
    exact hsetting
  enumeration r := by
    have hsetting := congrArg Enumeration.setting (h.enumSource r)
    exact hsetting

/-- Models that are the same but for documentation have the same settings. -/
theorem of_sameButTexts (h : SameButTexts m other) : SameSettings m other where
  messageCount := h.count
  message r := by
    have hsetting := congrArg Message.setting (h.messageText r)
    exact hsetting
  enumeration r := by
    have hsetting := congrArg Enumeration.setting (h.enumText r)
    exact hsetting

/-- Every call keeps the settings. -/
theorem call (m : Model) (c : Call) : SameSettings m (m.call c) := by
  cases c with
  | crossReference =>
    exact (of_reduction (reduction_buildIndices m)).trans
      (of_sameSource (sameSource_crossReference m))
  | skip options =>
    rcases call_skip m options with hskip | hskip
    · exact of_reduction (reduction_skipElements hskip)
    · rw [hskip]
      exact refl m
  | applyRules config => exact of_sameButTexts (sameButTexts_applyRules m config)
  | patch overrides => exact of_sameButTexts (sameButTexts_patchAll m overrides)

/-- Every sequence of calls keeps the settings. -/
theorem calls (m : Model) (calls : List Call) : SameSettings m (calls.foldl Model.call m) :=
  foldl_relates refl trans call calls m

end SameSettings

end Model

end ApiModel
