import ApiModel.Descriptor.Build
import Mathlib.Algebra.Group.Nat.Defs
import Mathlib.Data.List.Forall2

/-!
# What descriptors declare

The messages that a set of files declares, nested ones included, form one list: file by file, each
message before those nested in it. In this list a message has a position, and what is declared
inside it names that position as its parent. The enumerations form a list of their own, those nested
in a message behind those nested deeper. Full names are made of the package, if there is one, and
the names down to the element.
-/

namespace ApiModel.Descriptor

/-- An element that a file declares. -/
structure Declared (α : Type) where
  /-- The file. -/
  file : File
  /-- The names of the messages around the element, outermost first, and its own. -/
  names : List String
  /-- The position of the message around it among the declared messages. -/
  parent : Option Nat
  /-- The descriptor. -/
  source : α

/-- The full name of what a package declares under names: a dot, and the parts with dots between
them. -/
def dottedId (package : String) (names : List String) : String :=
  "." ++ ".".intercalate (Model.packageScope package ++ names)

variable {α : Type}

/-- A position that fits is the value of its number. -/
theorem toInt_positionNumber {k : Nat} (hk : k < 2 ^ 31) : (positionNumber k).toInt = k := by
  have hle : k ≤ 2147483647 := by omega
  rw [positionNumber, Nat.min_eq_left hle, Int32.toInt_ofNat_of_lt hk]

/-- The full name. -/
def Declared.id (d : Declared α) : String :=
  dottedId d.file.packageName d.names

/-- Whether an element is at the top of a file for which a condition holds. -/
def Declared.atTopOf (selected : File → Bool) (d : Declared α) : Bool :=
  d.parent.isNone && selected d.file

/-! ## Messages -/

mutual

/-- How many messages a message declares, itself included. -/
def Message.count : Message → Nat
  | .mk _ _ messages _ _ _ => Message.countAll messages + 1

/-- How many messages are declared by messages. -/
def Message.countAll : List Message → Nat
  | [] => 0
  | message :: rest => message.count + Message.countAll rest

end

mutual

/-- The messages that a message declares, itself first, where it has a position of its own. -/
def Message.preorder (file : File) (scope : List String) (parent : Option Nat) (first : Nat) :
    Message → List (Declared Message)
  | .mk name fields messages enums options oneofs =>
    let names := scope ++ [name.getD ""]
    ⟨file, names, parent, .mk name fields messages enums options oneofs⟩ ::
      Message.preorderAll file names (some first) (first + 1) messages

/-- The messages that messages declare, in order, where the first one has a position. -/
def Message.preorderAll (file : File) (scope : List String) (parent : Option Nat) (first : Nat) :
    List Message → List (Declared Message)
  | [] => []
  | message :: rest =>
    message.preorder file scope parent first ++
      Message.preorderAll file scope parent (first + message.count) rest

end

/-- The positions of messages in a row, where the first one has a position. -/
def Message.roots (first : Nat) : List Message → List Nat
  | [] => []
  | message :: rest => first :: Message.roots (first + message.count) rest

/-- The messages that files declare, where the first one has a position. -/
def File.preorderAll (first : Nat) : List File → List (Declared Message)
  | [] => []
  | file :: rest =>
    Message.preorderAll file [] none first file.messages ++
      File.preorderAll (first + Message.countAll file.messages) rest

/-- The messages that a set of files declares. -/
def FileSet.preorder (set : FileSet) : List (Declared Message) :=
  File.preorderAll 0 set.files

mutual

/-- As many messages are listed as are declared by a message. -/
@[simp]
theorem Message.length_preorder (file : File) (scope : List String) (parent : Option Nat)
    (first : Nat) (message : Message) : (message.preorder file scope parent first).length =
      message.count := by
  match message with
  | .mk name fields messages enums options oneofs =>
    simp only [Message.preorder, Message.count, List.length_cons]
    rw [Message.length_preorderAll]

/-- As many messages are listed as are declared by messages. -/
@[simp]
theorem Message.length_preorderAll (file : File) (scope : List String) (parent : Option Nat)
    (first : Nat) (messages : List Message) :
    (Message.preorderAll file scope parent first messages).length = Message.countAll messages := by
  match messages with
  | [] => rfl
  | message :: rest =>
    rw [Message.preorderAll, Message.countAll, List.length_append, Message.length_preorder,
      Message.length_preorderAll]

end

mutual

/-- Inside a message, everything has a message around it. -/
theorem Message.parent_of_mem_preorder {file : File} {scope : List String} {parent : Option Nat}
    {first : Nat} {message : Message} (hparent : parent.isSome) {d : Declared Message}
    (hd : d ∈ message.preorder file scope parent first) : d.parent.isSome := by
  match message with
  | .mk name fields messages enums options oneofs =>
    rcases List.mem_cons.1 hd with rfl | hd
    · exact hparent
    · exact Message.parent_of_mem_preorderAll rfl hd

/-- Inside messages, everything has a message around it. -/
theorem Message.parent_of_mem_preorderAll {file : File} {scope : List String} {parent : Option Nat}
    {first : Nat} {messages : List Message} (hparent : parent.isSome) {d : Declared Message}
    (hd : d ∈ Message.preorderAll file scope parent first messages) : d.parent.isSome := by
  match messages with
  | [] => cases hd
  | message :: rest =>
    rcases List.mem_append.1 hd with hd | hd
    · exact Message.parent_of_mem_preorder hparent hd
    · exact Message.parent_of_mem_preorderAll hparent hd

end

/-- Elements inside messages are at the top of no file. -/
theorem findIdxs_atTopOf_eq_nil (selected : File → Bool) {ds : List (Declared α)} (first : Nat)
    (h : ∀ d ∈ ds, d.parent.isSome) : ds.findIdxs (Declared.atTopOf selected) first = [] := by
  rw [List.findIdxs_eq_nil_iff]
  intro d hd
  simp [Declared.atTopOf, Option.isSome_iff_ne_none.1 (h d hd)]

/-- The messages at the top of a file are those in its list of messages. -/
theorem Message.findIdxs_preorderAll (selected : File → Bool) (file : File) (scope : List String)
    (first : Nat) (messages : List Message) :
    (Message.preorderAll file scope none first messages).findIdxs
    (Declared.atTopOf selected) first =
      if selected file then Message.roots first messages else [] := by
  induction messages generalizing first with
  | nil => simp [Message.preorderAll, Message.roots]
  | cons message rest ih =>
    rw [Message.preorderAll, List.findIdxs_append, Message.length_preorder, ih]
    match message with
    | .mk name fields messages enums options oneofs =>
      have hparent : ∀ d ∈ Message.preorderAll file (scope ++ [name.getD ""])
        (some first) (first + 1)
          messages, d.parent.isSome := fun d hd => Message.parent_of_mem_preorderAll rfl hd
      have hinner := findIdxs_atTopOf_eq_nil selected (first + 1) hparent
      rw [Message.preorder, List.findIdxs_cons, hinner, Message.roots]
      by_cases hselected : selected file <;> simp [Declared.atTopOf, hselected]

/-! ## Enumerations and services -/

/-- Enumerations that are declared in one place. -/
def declaredEnums (file : File) (scope : List String) (parent : Option Nat)
    (enums : List Enumeration) :
    List (Declared Enumeration) :=
  enums.map fun e => ⟨file, scope ++ [e.name.getD ""], parent, e⟩

mutual

/-- The enumerations that a message declares, where the message has a position. -/
def Message.enumOrder (file : File) (scope : List String) (first : Nat) :
    Message → List (Declared Enumeration)
  | .mk name _ messages enums _ _ =>
    let names := scope ++ [name.getD ""]
    Message.enumOrderAll file names (first + 1) messages ++
      declaredEnums file names (some first) enums

/-- The enumerations that messages declare, in order, where the first message has a position. -/
def Message.enumOrderAll (file : File) (scope : List String) (first : Nat) :
    List Message → List (Declared Enumeration)
  | [] => []
  | message :: rest =>
    message.enumOrder file scope first ++
      Message.enumOrderAll file scope (first + message.count) rest

end

/-- The enumerations that files declare, where the first message has a position. -/
def File.enumOrderAll (first : Nat) : List File → List (Declared Enumeration)
  | [] => []
  | file :: rest =>
    Message.enumOrderAll file [] first file.messages ++ declaredEnums file [] none file.enums ++
      File.enumOrderAll (first + Message.countAll file.messages) rest

/-- The enumerations that a set of files declares. -/
def FileSet.enumOrder (set : FileSet) : List (Declared Enumeration) :=
  File.enumOrderAll 0 set.files

/-- The services that a file declares. -/
def File.declaredServices (file : File) : List (Declared Service) :=
  file.services.map fun service => ⟨file, [service.name.getD ""], none, service⟩

/-- The services that the files of a set declare for which a condition holds. -/
def FileSet.declaredServices (set : FileSet) (selected : File → Bool) : List (Declared Service) :=
  (set.files.filter selected).flatMap File.declaredServices

mutual

/-- Enumerations inside a message have a message around them. -/
theorem Message.parent_of_mem_enumOrder {file : File} {scope : List String} {first : Nat}
    {message : Message} {d : Declared Enumeration} (hd : d ∈ message.enumOrder file scope first) :
    d.parent.isSome := by
  match message with
  | .mk name fields messages enums options oneofs =>
    rcases List.mem_append.1 hd with hd | hd
    · exact Message.parent_of_mem_enumOrderAll hd
    · obtain ⟨e, -, rfl⟩ := List.mem_map.1 hd
      rfl

/-- Enumerations inside messages have a message around them. -/
theorem Message.parent_of_mem_enumOrderAll {file : File} {scope : List String} {first : Nat}
    {messages : List Message} {d : Declared Enumeration}
    (hd : d ∈ Message.enumOrderAll file scope first messages) : d.parent.isSome := by
  match messages with
  | [] => cases hd
  | message :: rest =>
    rcases List.mem_append.1 hd with hd | hd
    · exact Message.parent_of_mem_enumOrder hd
    · exact Message.parent_of_mem_enumOrderAll hd

end

/-- The enumerations at the top of a file are those in its list of enumerations. -/
theorem findIdxs_declaredEnums (selected : File → Bool) (file : File) (scope : List String)
    (first : Nat) (enums : List Enumeration) :
    (declaredEnums file scope none enums).findIdxs (Declared.atTopOf selected) first =
      if selected file then List.range' first enums.length else [] := by
  induction enums generalizing first with
  | nil => simp [declaredEnums]
  | cons e rest ih =>
    rw [declaredEnums] at ih
    rw [declaredEnums, List.map_cons, List.findIdxs_cons, ih, List.length_cons, List.range'_succ]
    by_cases hselected : selected file <;> simp [Declared.atTopOf, hselected]

/-- The enumerations at the top of a file are behind those inside its messages. -/
theorem Message.findIdxs_enumOrderAll (selected : File → Bool) (file : File) (first start : Nat) :
    (Message.enumOrderAll file [] first file.messages ++
      declaredEnums file [] none file.enums).findIdxs
        (Declared.atTopOf selected) start =
      if selected file then
        List.range' (start + (Message.enumOrderAll file [] first file.messages).length)
          file.enums.length
      else [] := by
  rw [List.findIdxs_append, findIdxs_declaredEnums,
    findIdxs_atTopOf_eq_nil selected start fun d hd => Message.parent_of_mem_enumOrderAll hd,
      List.nil_append]

/-! ## Full names -/

/-- A text is the scope of names in a package: a name behind it makes the full name of the name
there. -/
def IsScope (scope package : String) (names : List String) : Prop :=
  ∀ name, scope ++ "." ++ name = dottedId package (names ++ [name])

/-- The scope of a package is that of no names. -/
theorem isScope_scopeOf (package : String) : IsScope (scopeOf package) package [] := by
  intro name
  by_cases h : package.isEmpty
  · simp [scopeOf, dottedId, Model.packageScope, h]
  · simp [scopeOf, dottedId, Model.packageScope, h, String.intercalate_cons_cons,
      String.append_assoc]

/-- The full name of an element is the scope of what is declared in it. -/
theorem IsScope.append {scope package : String} {names : List String}
    (h : IsScope scope package names) (name : String) :
    IsScope (scope ++ "." ++ name) package (names ++ [name]) := by
  intro inner
  have hne : Model.packageScope package ++ (names ++ [name]) ≠ [] := by simp
  rw [h name, dottedId, dottedId, ← List.append_assoc _ (names ++ [name]),
    String.intercalate_append_of_ne_nil hne (List.cons_ne_nil _ _), String.intercalate_singleton]
  simp [String.append_assoc]

/-- A qualified name is the full name of one name. -/
theorem qualify_eq_dottedId (package name : String) :
    qualify package name = dottedId package [name] := by
  have h := isScope_scopeOf package name
  rw [List.nil_append] at h
  rw [← h, qualify, scopeOf]
  split
  · rw [String.empty_append]
  · rfl

end ApiModel.Descriptor
