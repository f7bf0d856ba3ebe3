import ApiModel.Proofs.Descriptor.Declarations

/-!
# Elements of a file and their places

An element of a file is told by the steps from the file to it: each is the number of the field of a
descriptor that holds declarations of one kind, and the position of a declaration there. The steps
lead back to the element. Comments name it by its place, where positions have 32 bits, so as long as
no declaration has so many siblings that positions do not fit, different elements have different
places.
-/

namespace ApiModel.Descriptor

/-! ## Ways to elements -/

/-- The way to a message of a file. -/
inductive MessagePath where
  /-- The message at a position of the file. -/
  | top (position : Nat)
  /-- The message at a position inside another. -/
  | nested (outer : MessagePath) (position : Nat)
deriving DecidableEq

/-- The way to an enumeration of a file. -/
inductive EnumPath where
  /-- The enumeration at a position of the file. -/
  | top (position : Nat)
  /-- The enumeration at a position inside a message. -/
  | nested (outer : MessagePath) (position : Nat)
deriving DecidableEq

/-- The way to an element of a file. -/
inductive ElementPath where
  /-- A message. -/
  | message (path : MessagePath)
  /-- An enumeration. -/
  | enumeration (path : EnumPath)
  /-- The service at a position of the file. -/
  | service (position : Nat)
  /-- The field at a position of a message. -/
  | field (message : MessagePath) (position : Nat)
  /-- The group of alternatives at a position of a message. -/
  | oneof (message : MessagePath) (position : Nat)
  /-- The value at a position of an enumeration. -/
  | value (enumeration : EnumPath) (position : Nat)
  /-- The method at a position of the service at a position. -/
  | method (service position : Nat)
deriving DecidableEq

/-- A step on the way to an element: the number of a field of a descriptor, and a position. -/
abbrev Step := Int32 × Nat

/-- The steps to a message. Files hold messages in field 4, messages in field 3. -/
def MessagePath.steps : MessagePath → List Step
  | .top i => [(4, i)]
  | .nested outer i => outer.steps ++ [(3, i)]

/-- The steps to an enumeration. Files hold enumerations in field 5, messages in field 4. -/
def EnumPath.steps : EnumPath → List Step
  | .top i => [(5, i)]
  | .nested outer i => outer.steps ++ [(4, i)]

namespace ElementPath

/-- The steps to an element. Files hold services in field 6; messages hold fields in field 2 and
groups in field 8, enumerations hold values in field 2, and services hold methods in field 2. -/
def steps : ElementPath → List Step
  | message p => p.steps
  | enumeration p => p.steps
  | service i => [(6, i)]
  | field p i => p.steps ++ [(2, i)]
  | oneof p i => p.steps ++ [(8, i)]
  | value p i => p.steps ++ [(2, i)]
  | method s i => [(6, s), (2, i)]

/-- The place of an element: the numbers and positions of all steps in turn. -/
def place (p : ElementPath) : Place :=
  p.steps.flatMap fun step => [step.1, positionNumber step.2]

/-- The messages inside a message are at their places. -/
theorem place_message_nested (p : MessagePath) :
    (fun i => (message (.nested p i)).place) = (message p).place.nestedMessage :=
  funext fun _ => List.flatMap_append

/-- The enumerations inside a message are at their places. -/
theorem place_enumeration_nested (p : MessagePath) :
    (fun i => (enumeration (.nested p i)).place) = (message p).place.nestedEnum :=
  funext fun _ => List.flatMap_append

/-- The fields of a message are at their places. -/
theorem place_field (p : MessagePath) (i : Nat) : (field p i).place = (message p).place.field i :=
  List.flatMap_append

/-- The groups of a message are at their places. -/
theorem place_oneof (p : MessagePath) (i : Nat) : (oneof p i).place = (message p).place.oneof i :=
  List.flatMap_append

/-- The values of an enumeration are at their places. -/
theorem place_value (p : EnumPath) (i : Nat) : (value p i).place = (enumeration p).place.value i :=
  List.flatMap_append

end ElementPath

/-! ## What stands there -/

namespace File

variable (file : File)

/-- The message on a way. -/
def messageAt? : MessagePath → Option Message
  | .top i => file.messages[i]?
  | .nested p i => (messageAt? p).bind fun message => message.messages[i]?

/-- The enumeration on a way. -/
def enumAt? : EnumPath → Option Enumeration
  | .top i => file.enums[i]?
  | .nested p i => (file.messageAt? p).bind fun message => message.enums[i]?

/-- Whether a file has an element. -/
def Has : ElementPath → Prop
  | .message p => ∃ message, file.messageAt? p = some message
  | .enumeration p => ∃ e, file.enumAt? p = some e
  | .service i => i < file.services.length
  | .field p i => ∃ message, file.messageAt? p = some message ∧ i < message.fields.length
  | .oneof p i => ∃ message, file.messageAt? p = some message ∧ i < message.oneofs.length
  | .value p i => ∃ e, file.enumAt? p = some e ∧ i < e.values.length
  | .method s i => ∃ service, file.services[s]? = some service ∧ i < service.methods.length

/-- Whether no declaration of a file has `2 ^ 31` siblings or more. -/
structure Narrow : Prop where
  /-- The messages of the file. -/
  messages : file.messages.length < 2 ^ 31
  /-- The enumerations of the file. -/
  enums : file.enums.length < 2 ^ 31
  /-- The services. -/
  services : file.services.length < 2 ^ 31
  /-- The fields of each message. -/
  fields : ∀ p message, file.messageAt? p = some message → message.fields.length < 2 ^ 31
  /-- The groups of each message. -/
  oneofs : ∀ p message, file.messageAt? p = some message → message.oneofs.length < 2 ^ 31
  /-- The messages inside each message. -/
  nestedMessages : ∀ p message, file.messageAt? p = some message →
    message.messages.length < 2 ^ 31
  /-- The enumerations inside each message. -/
  nestedEnums : ∀ p message, file.messageAt? p = some message → message.enums.length < 2 ^ 31
  /-- The values of each enumeration. -/
  values : ∀ p e, file.enumAt? p = some e → e.values.length < 2 ^ 31
  /-- The methods of each service. -/
  methods : ∀ service ∈ file.services, service.methods.length < 2 ^ 31

end File

/-! ## Positions that fit -/

/-- Whether the positions of steps fit into 32 bits. -/
def Fits (steps : List Step) : Prop := ∀ step ∈ steps, step.2 < 2 ^ 31

/-- A further step fits behind those that do. -/
theorem Fits.concat {steps : List Step} (h : Fits steps) (n : Int32) {i : Nat} (hi : i < 2 ^ 31) :
    Fits (steps ++ [(n, i)]) :=
  List.forall_mem_append.2 ⟨h, List.forall_mem_singleton.2 hi⟩

namespace File.Narrow

variable {file : File} (h : file.Narrow)

include h

/-- The steps to a message of a narrow file fit. -/
theorem fits_message {p : MessagePath} {message : Message} (hp : file.messageAt? p = some message) :
    Fits p.steps := by
  induction p generalizing message with
  | top i =>
    obtain ⟨hi, -⟩ := List.getElem?_eq_some_iff.1 hp
    exact List.forall_mem_singleton.2 (Nat.lt_trans hi h.messages)
  | nested outer i ih =>
    obtain ⟨around, haround, hinner⟩ := Option.bind_eq_some_iff.1 hp
    obtain ⟨hi, -⟩ := List.getElem?_eq_some_iff.1 hinner
    exact (ih haround).concat 3 (Nat.lt_trans hi (h.nestedMessages outer around haround))

/-- The steps to an enumeration of a narrow file fit. -/
theorem fits_enum {p : EnumPath} {e : Enumeration} (hp : file.enumAt? p = some e) :
    Fits p.steps := by
  cases p with
  | top i =>
    obtain ⟨hi, -⟩ := List.getElem?_eq_some_iff.1 hp
    exact List.forall_mem_singleton.2 (Nat.lt_trans hi h.enums)
  | nested outer i =>
    obtain ⟨around, haround, hinner⟩ := Option.bind_eq_some_iff.1 hp
    obtain ⟨hi, -⟩ := List.getElem?_eq_some_iff.1 hinner
    exact (h.fits_message haround).concat 4 (Nat.lt_trans hi (h.nestedEnums outer around haround))

/-- The steps to an element of a narrow file fit. -/
theorem fits {p : ElementPath} (hp : file.Has p) : Fits p.steps := by
  cases p with
  | message p =>
    obtain ⟨message, hmessage⟩ := hp
    exact h.fits_message hmessage
  | enumeration p =>
    obtain ⟨e, he⟩ := hp
    exact h.fits_enum he
  | service i => exact List.forall_mem_singleton.2 (Nat.lt_trans hp h.services)
  | field p i =>
    obtain ⟨message, hmessage, hi⟩ := hp
    exact (h.fits_message hmessage).concat 2 (Nat.lt_trans hi (h.fields p message hmessage))
  | oneof p i =>
    obtain ⟨message, hmessage, hi⟩ := hp
    exact (h.fits_message hmessage).concat 8 (Nat.lt_trans hi (h.oneofs p message hmessage))
  | value p i =>
    obtain ⟨e, he, hi⟩ := hp
    exact (h.fits_enum he).concat 2 (Nat.lt_trans hi (h.values p e he))
  | method s i =>
    obtain ⟨service, hservice, hi⟩ := hp
    obtain ⟨hs, -⟩ := List.getElem?_eq_some_iff.1 hservice
    have hmethods := h.methods service (List.mem_of_getElem? hservice)
    have hfirst : Fits [(6, s)] := List.forall_mem_singleton.2 (Nat.lt_trans hs h.services)
    exact hfirst.concat 2 (Nat.lt_trans hi hmethods)

end File.Narrow

/-! ## Different elements have different places -/

/-- Positions that fit are told by their numbers. -/
theorem positionNumber_inj {i j : Nat} (hi : i < 2 ^ 31) (hj : j < 2 ^ 31)
    (h : positionNumber i = positionNumber j) : i = j := by
  have hvalues := congrArg Int32.toInt h
  rw [toInt_positionNumber hi, toInt_positionNumber hj] at hvalues
  exact Int.ofNat_inj.1 hvalues

/-- Steps that fit are told by their numbers and positions in turn. -/
theorem Fits.eq_of_flatMap_eq {first second : List Step} (hfirst : Fits first)
    (hsecond : Fits second) (h : (first.flatMap fun step => [step.1, positionNumber step.2]) =
      second.flatMap fun step => [step.1, positionNumber step.2]) : first = second := by
  induction first generalizing second with
  | nil =>
    cases second with
    | nil => rfl
    | cons => cases h
  | cons step rest ih =>
    cases second with
    | nil => cases h
    | cons other later =>
      obtain ⟨hnumber, h⟩ := List.cons.inj h
      obtain ⟨hposition, h⟩ := List.cons.inj h
      obtain ⟨hstep, hrest⟩ := List.forall_mem_cons.1 hfirst
      obtain ⟨hother, hlater⟩ := List.forall_mem_cons.1 hsecond
      rw [Prod.ext hnumber (positionNumber_inj hstep hother hposition), ih hrest hlater h]

namespace ElementPath

/-- The element that a step leads to, from the file or from another element. -/
def next? : Option ElementPath → Step → Option ElementPath
  | none, (n, i) =>
    if n = 4 then some (message (.top i))
    else if n = 5 then some (enumeration (.top i))
    else some (service i)
  | some (message p), (n, i) =>
    if n = 2 then some (field p i)
    else if n = 3 then some (message (.nested p i))
    else if n = 4 then some (enumeration (.nested p i))
    else some (oneof p i)
  | some (enumeration p), (_, i) => some (value p i)
  | some (service s), (_, i) => some (method s i)
  | some _, _ => none

/-- The steps to a message lead there. -/
theorem foldl_next?_message (p : MessagePath) : p.steps.foldl next? none = some (message p) := by
  induction p with
  | top i => rfl
  | nested outer i ih =>
    rw [MessagePath.steps, List.foldl_append, ih]
    rfl

/-- The steps to an enumeration lead there. -/
theorem foldl_next?_enumeration (p : EnumPath) :
    p.steps.foldl next? none = some (enumeration p) := by
  cases p with
  | top i => rfl
  | nested outer i =>
    rw [EnumPath.steps, List.foldl_append, foldl_next?_message]
    rfl

/-- The steps to an element lead there. -/
theorem foldl_next? (p : ElementPath) : p.steps.foldl next? none = some p := by
  cases p with
  | message p => exact foldl_next?_message p
  | enumeration p => exact foldl_next?_enumeration p
  | service i => rfl
  | field p i =>
    rw [steps, List.foldl_append, foldl_next?_message]
    rfl
  | oneof p i =>
    rw [steps, List.foldl_append, foldl_next?_message]
    rfl
  | value p i =>
    rw [steps, List.foldl_append, foldl_next?_enumeration]
    rfl
  | method s i => rfl

/-- Different elements have different places, as long as positions fit. -/
theorem place_inj {p q : ElementPath} (hp : Fits p.steps) (hq : Fits q.steps)
    (h : p.place = q.place) :
    p = q := by
  have hback := p.foldl_next?
  rw [hp.eq_of_flatMap_eq hq h, q.foldl_next?] at hback
  exact (Option.some.inj hback).symm

end ElementPath

/-- In a narrow file, different elements have different places. -/
theorem File.Narrow.place_inj {file : File} (h : file.Narrow) {p q : ElementPath} (hp : file.Has p)
    (hq : file.Has q) (hplace : p.place = q.place) : p = q :=
  ElementPath.place_inj (h.fits hp) (h.fits hq) hplace

end ApiModel.Descriptor
