import ApiModel.Proofs.Descriptor.Nesting
import ApiModel.Proofs.Graph.Scopes
import ApiModel.Proofs.Graph.Traversal
import ApiModel.Proofs.Package.Readers
import ApiModel.Proofs.Text.Affixes

/-!
# Scopes follow the nesting of declarations

In the model of a descriptor set the scopes of a message are the dotted names of the levels around
what is declared in it: the message itself, the messages around it from the inside to the outside,
and the package, unless that is empty. An enumeration has the scopes of the message around it, or
only the package. This needs names that begin with something other than a dot, as the dots at the
beginning of a full name are dropped.
-/

namespace ApiModel

open Model

variable {m other : Model}

namespace Descriptor

variable {α : Type} {file : File} {set : FileSet} {ds : List (Declared Message)}
  {scope : List String}
  {parent : Option Nat}

/-! ## Dotted names -/

/-- What a package declares under names, as a scope: the package, if there is one, and the names,
with dots between them. -/
def dottedName (package : String) (names : List String) : String :=
  ".".intercalate (packageScope package ++ names)

/-- Names, the names without the last one, and so on as long as there are any. -/
def outwards (names : List String) : List (List String) :=
  names.inits.tail.reverse

/-- The scopes of what is declared under names in a package: one for each message, innermost first,
and one for the package, unless it is empty. -/
def scopesIn (package : String) (names : List String) : List String :=
  (outwards names).map (dottedName package) ++ packageScope package

/-- What the scopes of a declared element depend on. -/
def Declared.setting (d : Declared α) : Setting :=
  ⟨d.id, d.file.packageName, d.parent.map MessageRef.mk⟩

/-- Whether the messages of a set have names, and neither these nor the packages they are in begin
with a dot. -/
structure FileSet.WellNamed (set : FileSet) : Prop where
  /-- Every message has a name. -/
  named : ∀ d ∈ set.preorder, d.ownName ≠ ""
  /-- It does not begin with a dot. -/
  names : ∀ d ∈ set.preorder, Text.beginsWith "." d.ownName = false
  /-- Neither does its package. -/
  packages : ∀ d ∈ set.preorder, Text.beginsWith "." d.file.packageName = false

/-- The innermost scope of a name behind others is the whole of them, and the outer ones are those
of the others. -/
theorem outwards_concat (names : List String) (own : String) :
    outwards (names ++ [own]) = (names ++ [own]) :: outwards names := by
  have hinits : (names ++ [own]).inits = names.inits ++ [names ++ [own]] := by
    rw [List.inits_append]
    rfl
  have hne : names.inits ≠ [] := List.ne_nil_of_mem ((List.mem_inits _ _).2 List.nil_prefix)
  rw [outwards, hinits, List.tail_append_of_ne_nil hne, List.reverse_append]
  rfl

/-- The dot at the beginning is dropped, and no other one, if the first part does not begin with a
dot. -/
theorem dropDots_dotted {first : String} (hne : first ≠ "")
    (hfirst : Text.beginsWith "." first = false) (rest : List String) :
    Text.dropDots ("." ++ ".".intercalate (first :: rest)) = ".".intercalate (first :: rest) := by
  refine Text.dropDots_dot_append ?_
  cases rest with
  | nil =>
    rw [String.intercalate_singleton]
    exact hfirst
  | cons second rest =>
    rw [String.intercalate_cons_cons, String.append_assoc, Text.beginsWith_dot_append hne]
    exact hfirst

/-- The full name of what a package declares, without its dot, is its dotted name. -/
theorem relativeName_dottedId {package name : String} {names : List String}
    (hpackage : Text.beginsWith "." package = false) (hne : name ≠ "")
    (hname : Text.beginsWith "." name = false) :
    relativeName (dottedId package (name :: names)) = dottedName package (name :: names) := by
  rw [relativeName, dottedId, dottedName, packageScope]
  split
  · exact dropDots_dotted hne hname names
  · rename_i hempty
    exact dropDots_dotted (fun h => hempty (String.isEmpty_iff.2 h)) hpackage (name :: names)

/-- The full name of a message, without its dot, is its dotted name. -/
theorem FileSet.WellNamed.relativeName_id (h : set.WellNamed) {d : Declared Message}
    (hd : d ∈ set.preorder) :
    relativeName d.id = dottedName d.file.packageName d.names := by
  obtain ⟨scope, hlevel, hnames⟩ := set.nested_preorder.liesIn_of_mem hd
  have hscope : ∀ name ∈ scope, name ≠ "" ∧ Text.beginsWith "." name = false :=
    hlevel.forall_names fun p hp => ⟨h.named p hp, h.names p hp⟩
  rw [Declared.id, hnames]
  cases scope with
  | nil => exact relativeName_dottedId (h.packages d hd) (h.named d hd) (h.names d hd)
  | cons name rest =>
    obtain ⟨hne, hname⟩ := hscope name List.mem_cons_self
    exact relativeName_dottedId (h.packages d hd) hne hname

/-! ## The way up -/

/-- On a level of messages of a model there is a way up: it comes to no more messages than are
listed, and the names that these have without their dots are those of the levels, from the inside to
the outside. -/
theorem IsLevel.exists_ascends (h : IsLevel file ds scope parent)
    (hsetting : ∀ i d, ds[i]? = some d → (m.message ⟨i⟩).setting = d.setting)
    (hname : ∀ d ∈ ds, relativeName d.id = dottedName d.file.packageName d.names) :
    ∃ around, m.Ascends (parent.map MessageRef.mk) around ∧ around.length ≤ ds.length ∧
      around.map (fun r => relativeName (m.message r).id) =
        (outwards scope).map (dottedName file.packageName) := by
  -- the induction is over the levels: the way up from the inside of a message is one message longer
  -- than its own
  induction h with
  | top => exact ⟨[], .top, Nat.zero_le _, rfl⟩
  | @inside ds scope p _ hfile hnames more ih =>
    obtain ⟨hid, -, hparent⟩ :=
      Setting.mk.inj (hsetting ds.length p (getElem?_length_append_cons ds p more))
    obtain ⟨around, hascends, hlength, hmap⟩ := ih
      (fun i d hd => hsetting i d <|
        (List.getElem?_append_left (List.getElem?_eq_some_iff.1 hd).choose).trans hd)
      (fun d hd => hname d (List.mem_append_left _ hd))
    rw [← hparent] at hascends
    refine ⟨⟨ds.length⟩ :: around, .inside hascends, ?_, ?_⟩
    · rw [List.length_cons, List.length_append, List.length_cons]
      omega
    · have hp := hname p (List.mem_append_right _ List.mem_cons_self)
      rw [List.map_cons, hmap, hid, hp, hfile, hnames, outwards_concat, List.map_cons]

/-! ## The model of a set -/

/-- A message that is made from a declaration has its setting. -/
theorem MessageYields.setting_eq {d : Declared Message} {x : ApiModel.Message}
    (h : MessageYields d x) :
    x.setting = d.setting := by
  rw [Message.setting, Declared.setting, h.id, h.package, h.parent]

/-- An enumeration that is made from a declaration has its setting. -/
theorem EnumYields.setting_eq {d : Declared Enumeration} {x : ApiModel.Enumeration}
    (h : EnumYields d x) :
    x.setting = d.setting := by
  rw [Enumeration.setting, Declared.setting, h.id, h.package, h.parent]

/-- Whether the elements of a model have the settings of what a set of files declares, or else those
of well-known types. -/
structure HasSettings (set : FileSet) (m : Model) : Prop where
  /-- The messages that are declared are at their positions. -/
  message : ∀ i d, set.preorder[i]? = some d → i < m.depthBound ∧
    (m.message ⟨i⟩).setting = d.setting
  /-- So are the enumerations. -/
  enumeration : ∀ i d, set.enumOrder[i]? = some d → (m.enumeration ⟨i⟩).setting = d.setting
  /-- Other messages are well-known ones. -/
  addedMessage : ∀ r, set.preorder.length ≤ r.index → (m.message r).id ≠ "" →
    ∃ name, (m.message r).setting = (WellKnown.plainMessage name).setting
  /-- Another enumeration is the well-known one. -/
  addedEnum : ∀ r, set.enumOrder.length ≤ r.index → (m.enumeration r).id ≠ "" →
    (m.enumeration r).setting = WellKnown.nullValue.setting

/-- The elements of the model of a set have the settings of what the set declares. -/
theorem hasSettings_model {config : Option ServiceConfig} {included : List String}
    (h : set.model config included = .ok m) : HasSettings set m := by
  obtain ⟨k, hm, hcorresponds⟩ := corresponds_model h
  have htypes := hcorresponds.types
  have hmessages := hm ▸ WellKnown.supplies_register k
  have henums := hm ▸ WellKnown.supplies_register_enums k
  constructor
  case message =>
    intro i d hd
    obtain ⟨x, hx, hyields⟩ := htypes.exists_find?_message hd
    have hx := hmessages.kept _ x hx
    refine ⟨messageArena.holds_of_find? hx, ?_⟩
    rw [← hyields.setting_eq]
    exact congrArg Message.setting (messageArena.get_of_find? hx)
  case enumeration =>
    intro i d hd
    obtain ⟨x, hx, hyields⟩ := htypes.exists_find?_enumeration hd
    rw [← hyields.setting_eq]
    exact congrArg Enumeration.setting (enumArena.get_of_find? (henums.kept _ x hx))
  case addedMessage =>
    intro r hr hne
    have hheld : messageArena.Holds m r := messageArena.holds_of_get_ne fun hblank =>
      hne (congrArg _ hblank)
    rcases hmessages.found r _ (messageArena.find?_of_holds hheld) with
      hold | ⟨-, ⟨name, hname⟩, -⟩
    · obtain ⟨d, hd, -⟩ := htypes.exists_message hold
      obtain ⟨hlt, -⟩ := List.getElem?_eq_some_iff.1 hd
      omega
    · exact ⟨name, congrArg Message.setting hname⟩
  case addedEnum =>
    intro r hr hne
    have hheld : enumArena.Holds m r := enumArena.holds_of_get_ne fun hblank =>
      hne (congrArg _ hblank)
    rcases henums.found r _ (enumArena.find?_of_holds hheld) with hold | ⟨-, hmade, -⟩
    · obtain ⟨d, hd, -⟩ := htypes.exists_enumeration hold
      obtain ⟨hlt, -⟩ := List.getElem?_eq_some_iff.1 hd
      omega
    · have hsetting := congrArg Enumeration.setting hmade
      exact hsetting

/-- A model with the same settings has those of the set too. -/
theorem HasSettings.of_sameSettings (h : HasSettings set m) (hsame : SameSettings m other) :
    HasSettings set other := by
  have hid : ∀ r, (other.message r).id = (m.message r).id :=
    fun r => congrArg Setting.id (hsame.message r)
  have henumId : ∀ r, (other.enumeration r).id = (m.enumeration r).id := fun r =>
    congrArg Setting.id (hsame.enumeration r)
  have hbound : other.depthBound = m.depthBound := hsame.messageCount
  constructor
  case message => simpa only [hsame.message, hbound] using h.message
  case enumeration => simpa only [hsame.enumeration] using h.enumeration
  case addedMessage => simpa only [hsame.message, hid] using h.addedMessage
  case addedEnum => simpa only [hsame.enumeration, henumId] using h.addedEnum

/-! ## Scopes -/

/-- The scope of the package of the well-known types is the package alone. -/
theorem packageScope_wellKnown : packageScope WellKnown.package = [WellKnown.package] :=
  if_neg (by decide +kernel)

/-- A well-known message has its name and the package as its scopes. -/
theorem collectsScopes_wellKnown {x : ApiModel.Message} {name : String}
    (hx : x.setting = (WellKnown.plainMessage name).setting) :
    m.CollectsScopes x (scopesIn WellKnown.package [name]) := by
  obtain ⟨hxid, hpackage, hparent⟩ := Setting.mk.inj hx
  have hid : WellKnown.idOf name = dottedId WellKnown.package [name] := by
    rw [dottedId, packageScope_wellKnown, List.singleton_append, String.intercalate_cons_cons,
      String.intercalate_singleton, WellKnown.idOf, String.append_assoc, String.append_assoc,
        String.append_assoc]
  have hname : relativeName x.id = dottedName WellKnown.package [name] := by
    refine (congrArg relativeName (hxid.trans hid)).trans ?_
    rw [relativeName, dottedId, dottedName, packageScope_wellKnown]
    exact dropDots_dotted (by decide) (by decide +kernel) [name]
  have htop : m.Ascends none [] := .top
  have hscopes := htop.collectsScopes hparent (Nat.zero_le _)
  rw [hname, hpackage] at hscopes
  exact hscopes

namespace HasSettings

variable (h : HasSettings set m)

include h

/-- The loop that collects the scopes of a declared message ends with those of its names. -/
theorem collectsScopes (hnamed : set.WellNamed) {i : Nat} {d : Declared Message}
    (hd : set.preorder[i]? = some d) :
    m.CollectsScopes (m.message ⟨i⟩) (scopesIn d.file.packageName d.names) := by
  have hbefore : ∀ (j : Nat) (p : Declared Message),
      (set.preorder.take i)[j]? = some p → set.preorder[j]? = some p := by
    intro j p hp
    rw [List.getElem?_take, Option.ite_none_right_eq_some] at hp
    exact hp.2
  obtain ⟨scope, hlevel, hnames⟩ := set.nested_preorder.liesIn hd
  obtain ⟨around, hascends, hlength, hmap⟩ := hlevel.exists_ascends
    (fun j p hp => (h.message j p (hbefore j p hp)).2)
    (fun p hp => hnamed.relativeName_id (List.mem_of_mem_take hp))
  obtain ⟨hheld, hsetting⟩ := h.message i d hd
  obtain ⟨hid, hpackage, hparent⟩ := Setting.mk.inj hsetting
  -- all messages around this one are listed before it, so there are fewer of them than in the store
  have hdepth : around.length ≤ m.depthBound :=
    (hlength.trans (List.length_take_le i set.preorder)).trans (Nat.le_of_lt hheld)
  have hscopes := hascends.collectsScopes hparent hdepth
  have hname := hnamed.relativeName_id (List.mem_of_getElem? hd)
  rw [hmap, hid, hpackage, hname, hnames, ← List.map_cons, ← outwards_concat] at hscopes
  rw [hnames]
  exact hscopes

/-- An enumeration at the top of a file has the package as its scope, unless that is empty. -/
theorem enumScopes_of_top {i : Nat} {d : Declared Enumeration} (hd : set.enumOrder[i]? = some d)
    (htop : d.parent = none) : m.enumScopes (m.enumeration ⟨i⟩) =
      packageScope d.file.packageName := by
  obtain ⟨-, hpackage, hparent⟩ := Setting.mk.inj (h.enumeration i d hd)
  rw [enumScopes, hparent, htop, hpackage]
  rfl

/-- An enumeration in a message has the scopes of that message. -/
theorem enumScopes_of_inside {i j : Nat} {d : Declared Enumeration}
    (hd : set.enumOrder[i]? = some d) (hinside : d.parent = some j) :
    m.enumScopes (m.enumeration ⟨i⟩) = m.messageScopes (m.message ⟨j⟩) := by
  obtain ⟨-, -, hparent⟩ := Setting.mk.inj (h.enumeration i d hd)
  rw [enumScopes, hparent, hinside]
  rfl

end HasSettings

/-- Whether every element of a model has the scopes of the level that a set of files declares it on.
Elements that are not declared are well-known, and at the top of their package. -/
structure FollowsNesting (set : FileSet) (m : Model) : Prop where
  /-- Every declared message is there, and the loop that collects its scopes ends with those of its
  names. -/
  message : ∀ i d, set.preorder[i]? = some d → (m.message ⟨i⟩).id = d.id ∧
    m.CollectsScopes (m.message ⟨i⟩) (scopesIn d.file.packageName d.names)
  /-- Every enumeration at the top of a file is there, and its scope is the package, unless that is
  empty. -/
  topEnum : ∀ i d, set.enumOrder[i]? = some d → d.parent = none →
    (m.enumeration ⟨i⟩).id = d.id ∧
    m.enumScopes (m.enumeration ⟨i⟩) = packageScope d.file.packageName
  /-- Every enumeration in a message is there, and its scopes are those of the declared message
  around it. -/
  nestedEnum : ∀ i d j, set.enumOrder[i]? = some d → d.parent = some j →
    (m.enumeration ⟨i⟩).id = d.id ∧
    ∃ p, set.preorder[j]? = some p ∧ p.file = d.file ∧
      d.names = p.names ++ [d.source.name.getD ""] ∧
      m.CollectsScopes (m.message ⟨j⟩) (m.enumScopes (m.enumeration ⟨i⟩))
  /-- Every other message is a well-known one. -/
  addedMessage : ∀ r, set.preorder.length ≤ r.index → (m.message r).id ≠ "" →
    ∃ name, (m.message r).id = WellKnown.idOf name ∧
      m.CollectsScopes (m.message r) (scopesIn WellKnown.package [name])
  /-- Every other enumeration is the well-known one. -/
  addedEnum : ∀ r, set.enumOrder.length ≤ r.index → (m.enumeration r).id ≠ "" →
    (m.enumeration r).id = WellKnown.nullValue.id ∧
      m.enumScopes (m.enumeration r) = [WellKnown.package]

/-- Scopes follow the nesting wherever elements have their settings. -/
theorem HasSettings.followsNesting (h : HasSettings set m) (hnamed : set.WellNamed) :
    FollowsNesting set m := by
  constructor
  case message =>
    exact fun i d hd => ⟨congrArg Setting.id (h.message i d hd).2, h.collectsScopes hnamed hd⟩
  case topEnum =>
    exact fun i d hd htop =>
      ⟨congrArg Setting.id (h.enumeration i d hd), h.enumScopes_of_top hd htop⟩
  case nestedEnum =>
    intro i d j hd hinside
    obtain ⟨scope, hlevel, hnames⟩ := FileSet.liesIn_preorder (List.mem_of_getElem? hd)
    rw [hinside] at hlevel
    obtain ⟨p, hp, hfile, rfl⟩ := hlevel.exists_getElem?
    have hcollects := h.collectsScopes hnamed hp
    refine ⟨congrArg Setting.id (h.enumeration i d hd), p, hp, hfile, hnames, ?_⟩
    rw [h.enumScopes_of_inside hd hinside, hcollects.scopes]
    exact hcollects
  case addedMessage =>
    intro r hr hne
    obtain ⟨name, hsetting⟩ := h.addedMessage r hr hne
    exact ⟨name, congrArg Setting.id hsetting, collectsScopes_wellKnown hsetting⟩
  case addedEnum =>
    intro r hr hne
    obtain ⟨hid, hpackage, hparent⟩ := Setting.mk.inj (h.addedEnum r hr hne)
    refine ⟨hid, ?_⟩
    rw [enumScopes, hpackage, hparent]
    exact packageScope_wellKnown

/-- The scopes of the model of a set of files follow the nesting of what the set declares, as the
model was read and after every sequence of calls, also of failing ones, if the messages of the set
have names, and neither these nor their packages begin with a dot. -/
theorem followsNesting_calls {config : Option ServiceConfig} {included : List String}
    (hnamed : set.WellNamed) (h : set.model config included = .ok m) (calls : List Call) :
    FollowsNesting set (calls.foldl call m) :=
  ((hasSettings_model h).of_sameSettings (.calls m calls)).followsNesting hnamed

/-- The atlas behind a file without a package. -/
def ruledAtlas : FileSet :=
  ⟨{ name := some "ruler.proto"
     messages := [.mk (some "Ruler") [] [.mk (some "Unit") [] [] [] none []] [] none []]
     enums := [{ name := some "Side", values := [{ name := some "LEFT" }] }] } :: atlas.files⟩

/-- Assembly, and skipping a message together with what is nested in it. -/
def atlasCalls : List Call :=
  [.crossReference, .skip (Index.empty.insert SourceOptions.skippedIds ".geo.Map.Region")]

/-- In the model of the ruled atlas, also after these calls, the messages of the atlas have the
package as their last scope, and those of the file without a package have none behind their names.
-/
theorem followsNesting_calls_ruledAtlas :
    ∃ m, ruledAtlas.model none [] = .ok m ∧ ruledAtlas.WellNamed ∧
      FollowsNesting ruledAtlas (atlasCalls.foldl call m) ∧
      (atlasCalls.foldl call m).messageScopes ((atlasCalls.foldl call m).message ⟨4⟩) =
        ["geo.Map.Region.Place", "geo.Map.Region", "geo.Map", "geo"] ∧
      (atlasCalls.foldl call m).messageScopes ((atlasCalls.foldl call m).message ⟨1⟩) =
        ["Ruler.Unit", "Ruler"] ∧
      (atlasCalls.foldl call m).enumScopes ((atlasCalls.foldl call m).enumeration ⟨0⟩) =
      [] := by
  have hread : (ruledAtlas.model none []).toOption.any (fun _ => true) = true := by decide +kernel
  obtain ⟨m, hm, -⟩ := Attempt.exists_ok_of_any hread
  have hnamed : ruledAtlas.WellNamed :=
    ⟨by decide +kernel, by decide +kernel, by decide +kernel⟩
  have hfollows := followsNesting_calls hnamed hm atlasCalls
  have hplace := (hfollows.message 4 _ rfl).2.scopes
  have hunit := (hfollows.message 1 _ rfl).2.scopes
  have hside := (hfollows.topEnum 0 _ rfl rfl).2
  exact ⟨m, hm, hnamed, hfollows, hplace.trans (by decide +kernel),
    hunit.trans (by decide +kernel), hside.trans (by decide +kernel)⟩

end Descriptor

end ApiModel
