import ApiModel.Proofs.Descriptor.Places

/-!
# Lists of what files declare, with the ways there

The messages, enumerations and services of a file are listed in the order of the declarations, each
with the way to it. Exactly what stands at the end of a way is listed with it, and without the ways
the lists are those of the declarations.
-/

namespace ApiModel.Descriptor

/-! ## All declarations and the ways to them -/

/-- An element of a file, with the way to it. -/
structure Located (path source : Type) where
  /-- The file. -/
  file : File
  /-- The way to the element. -/
  path : path
  /-- The descriptor. -/
  source : source

/-- Enumerations that are declared in one place, given the way to each position. -/
def locateEnums (file : File) (pathOf : Nat → EnumPath) (enums : List Enumeration) :
    List (Located EnumPath Enumeration) :=
  enums.zipIdx.map fun entry => ⟨file, pathOf entry.2, entry.1⟩

mutual

/-- The messages that a message declares, itself first, given the way to it. -/
def Message.located (file : File) (path : MessagePath) :
    Message → List (Located MessagePath Message)
  | .mk name fields messages enums options oneofs =>
    ⟨file, path, .mk name fields messages enums options oneofs⟩ ::
      Message.locatedAll file path.nested 0 messages

/-- The messages that messages declare, in order, given the way to each position. -/
def Message.locatedAll (file : File) (pathOf : Nat → MessagePath) (position : Nat) :
    List Message → List (Located MessagePath Message)
  | [] => []
  | message :: rest =>
    message.located file (pathOf position) ++ Message.locatedAll file pathOf (position + 1) rest

end

mutual

/-- The enumerations that a message declares, given the way to it. -/
def Message.locatedEnums (file : File) (path : MessagePath) :
    Message → List (Located EnumPath Enumeration)
  | .mk _ _ messages enums _ _ =>
    Message.locatedEnumsAll file path.nested 0 messages ++ locateEnums file (.nested path) enums

/-- The enumerations that messages declare, in order, given the way to each position. -/
def Message.locatedEnumsAll (file : File) (pathOf : Nat → MessagePath) (position : Nat) :
    List Message → List (Located EnumPath Enumeration)
  | [] => []
  | message :: rest =>
    message.locatedEnums file (pathOf position) ++ Message.locatedEnumsAll file pathOf
      (position + 1) rest

end

namespace File

/-- The messages that a file declares. -/
def locatedMessages (file : File) : List (Located MessagePath Message) :=
  Message.locatedAll file .top 0 file.messages

/-- The enumerations that a file declares. -/
def locatedEnums (file : File) : List (Located EnumPath Enumeration) :=
  Message.locatedEnumsAll file .top 0 file.messages ++ locateEnums file .top file.enums

/-- The services that a file declares, by their positions. -/
def locatedServices (file : File) : List (Located Nat Service) :=
  file.services.zipIdx.map fun entry => ⟨file, entry.2, entry.1⟩

end File

/-! ## Ways lead to what is listed -/

section Listed

variable {file : File}

mutual

/-- The way to a message that a message declares leads there, if the way to the message does. -/
theorem Message.messageAt?_of_mem_located {path : MessagePath} (message : Message)
    (hpath : file.messageAt? path = some message) {l : Located MessagePath Message}
    (hl : l ∈ message.located file path) : l.file = file ∧
    file.messageAt? l.path = some l.source := by
  match message with
  | .mk name fields messages enums options oneofs =>
    rcases List.mem_cons.1 hl with rfl | hl
    · exact ⟨rfl, hpath⟩
    · refine Message.messageAt?_of_mem_locatedAll messages (fun i => ?_) hl
      rw [Nat.zero_add, File.messageAt?, hpath]
      rfl

/-- The way to a message that messages declare leads there, if the ways to the messages do. -/
theorem Message.messageAt?_of_mem_locatedAll {pathOf : Nat → MessagePath} {position : Nat}
    (messages : List Message)
    (hpath : ∀ i, file.messageAt? (pathOf (position + i)) = messages[i]?)
    {l : Located MessagePath Message}
    (hl : l ∈ Message.locatedAll file pathOf position messages) :
    l.file = file ∧ file.messageAt? l.path = some l.source := by
  match messages with
  | [] => cases hl
  | message :: rest =>
    rcases List.mem_append.1 hl with hl | hl
    · exact Message.messageAt?_of_mem_located message (hpath 0) hl
    · refine Message.messageAt?_of_mem_locatedAll rest (fun i => ?_) hl
      rw [Nat.add_right_comm, Nat.add_assoc, hpath (i + 1), List.getElem?_cons_succ]

end

/-- What the message at a position declares is among what the messages declare. -/
theorem Message.located_subset {pathOf : Nat → MessagePath} {position i : Nat}
    {messages : List Message} {message : Message} (hi : messages[i]? = some message) :
    message.located file (pathOf (position + i)) ⊆
      Message.locatedAll file pathOf position messages := by
  induction messages generalizing position i with
  | nil => cases hi
  | cons first rest ih =>
    cases i with
    | zero =>
      obtain rfl := Option.some.inj hi
      exact List.subset_append_left _ _
    | succ i =>
      have hrest : message.located file (pathOf (position + 1 + i)) ⊆ _ := ih hi
      rw [Nat.add_right_comm, Nat.add_assoc] at hrest
      exact List.subset_append_of_subset_right _ hrest

/-- A message is the first that it declares. -/
theorem Message.mem_located (path : MessagePath) (message : Message) :
    ⟨file, path, message⟩ ∈ message.located file path := by
  cases message with
  | mk => exact List.mem_cons_self

mutual

/-- A message that declares another declares what is nested in that one. -/
theorem Message.nested_mem_located {path : MessagePath} (message : Message)
    {l : Located MessagePath Message} (hl : l ∈ message.located file path) {i : Nat}
    {inner : Message} (hi : l.source.messages[i]? = some inner) :
    ⟨file, l.path.nested i, inner⟩ ∈ message.located file path := by
  match message with
  | .mk name fields messages enums options oneofs =>
    rcases List.mem_cons.1 hl with rfl | hl
    · refine List.mem_cons_of_mem _ (Message.located_subset hi ?_)
      rw [Nat.zero_add]
      exact Message.mem_located _ inner
    · exact List.mem_cons_of_mem _ (Message.nested_mem_locatedAll messages hl hi)

/-- Messages that declare another declare what is nested in that one. -/
theorem Message.nested_mem_locatedAll {pathOf : Nat → MessagePath} {position : Nat}
    (messages : List Message) {l : Located MessagePath Message}
    (hl : l ∈ Message.locatedAll file pathOf position messages) {i : Nat} {inner : Message}
    (hi : l.source.messages[i]? = some inner) :
    ⟨file, l.path.nested i, inner⟩ ∈ Message.locatedAll file pathOf position messages := by
  match messages with
  | [] => cases hl
  | message :: rest =>
    rcases List.mem_append.1 hl with hl | hl
    · exact List.mem_append_left _ (Message.nested_mem_located message hl hi)
    · exact List.mem_append_right _ (Message.nested_mem_locatedAll rest hl hi)

end

/-- Exactly the messages of a file are listed, each with the way that leads to it. -/
theorem File.mem_locatedMessages {l : Located MessagePath Message} :
    l ∈ file.locatedMessages ↔ l.file = file ∧ file.messageAt? l.path = some l.source := by
  constructor
  · intro hl
    refine Message.messageAt?_of_mem_locatedAll file.messages (fun i => ?_) hl
    rw [Nat.zero_add, File.messageAt?]
  · obtain ⟨other, path, source⟩ := l
    rintro ⟨rfl, hpath⟩
    dsimp only at hpath ⊢
    induction path generalizing source with
    | top i =>
      have hmem : source.located other (.top (0 + i)) ⊆ other.locatedMessages :=
        Message.located_subset hpath
      rw [Nat.zero_add] at hmem
      exact hmem (Message.mem_located _ source)
    | nested outer i ih =>
      obtain ⟨around, haround, hinner⟩ := Option.bind_eq_some_iff.1 hpath
      exact Message.nested_mem_locatedAll other.messages (ih around haround) hinner

/-- Exactly the enumerations that are declared in a place are listed. -/
theorem mem_locateEnums {pathOf : Nat → EnumPath} {enums : List Enumeration}
    {l : Located EnumPath Enumeration} :
    l ∈ locateEnums file pathOf enums ↔
      l.file = file ∧ ∃ i, l.path = pathOf i ∧ enums[i]? = some l.source := by
  constructor
  · intro hl
    obtain ⟨⟨e, i⟩, hentry, rfl⟩ := List.mem_map.1 hl
    exact ⟨rfl, i, rfl, List.mk_mem_zipIdx_iff_getElem?.1 hentry⟩
  · obtain ⟨other, path, source⟩ := l
    rintro ⟨rfl, i, rfl, hi⟩
    exact List.mem_map.2 ⟨(source, i), List.mk_mem_zipIdx_iff_getElem?.2 hi, rfl⟩

mutual

/-- A message declares the enumerations inside the messages that it declares. -/
theorem Message.mem_locatedEnums {path : MessagePath} (message : Message)
    {l : Located EnumPath Enumeration} :
    l ∈ message.locatedEnums file path ↔
      ∃ around ∈ message.located file path, l ∈ locateEnums file
        (.nested around.path) around.source.enums := by
  match message with
  | .mk name fields messages enums options oneofs =>
    rw [Message.locatedEnums, Message.located, List.mem_append, List.exists_mem_cons_iff,
      Message.mem_locatedEnumsAll messages]
    exact or_comm

/-- Messages declare the enumerations inside the messages that they declare. -/
theorem Message.mem_locatedEnumsAll {pathOf : Nat → MessagePath} {position : Nat}
    (messages : List Message) {l : Located EnumPath Enumeration} :
    l ∈ Message.locatedEnumsAll file pathOf position messages ↔
      ∃ around ∈ Message.locatedAll file pathOf position messages,
        l ∈ locateEnums file (.nested around.path) around.source.enums := by
  match messages with
  | [] => exact iff_of_false List.not_mem_nil fun ⟨_, haround, _⟩ => List.not_mem_nil haround
  | message :: rest =>
    rw [Message.locatedEnumsAll, Message.locatedAll, List.mem_append,
      Message.mem_locatedEnums message, Message.mem_locatedEnumsAll rest]
    simp only [List.mem_append, or_and_right, exists_or]

end

/-- Exactly the enumerations of a file are listed, each with the way that leads to it. -/
theorem File.mem_locatedEnums {l : Located EnumPath Enumeration} :
    l ∈ file.locatedEnums ↔ l.file = file ∧ file.enumAt? l.path = some l.source := by
  rw [File.locatedEnums, List.mem_append, Message.mem_locatedEnumsAll]
  change (∃ around ∈ file.locatedMessages, _) ∨ _ ↔ _
  simp only [File.mem_locatedMessages, mem_locateEnums]
  constructor
  · rintro (⟨around, ⟨-, haround⟩, hfile, i, hpath, hi⟩ | ⟨hfile, i, hpath, hi⟩)
    · refine ⟨hfile, ?_⟩
      rw [hpath, File.enumAt?, haround]
      exact hi
    · refine ⟨hfile, ?_⟩
      rw [hpath]
      exact hi
  · rintro ⟨hfile, hpath⟩
    cases hl : l.path with
    | top i =>
      rw [hl] at hpath
      exact .inr ⟨hfile, i, rfl, hpath⟩
    | nested outer i =>
      rw [hl] at hpath
      obtain ⟨around, haround, hinner⟩ := Option.bind_eq_some_iff.1 hpath
      exact .inl ⟨⟨file, outer, around⟩, ⟨rfl, haround⟩, hfile, i, rfl, hinner⟩

/-- Exactly the services of a file are listed, each with its position. -/
theorem File.mem_locatedServices {l : Located Nat Service} :
    l ∈ file.locatedServices ↔ l.file = file ∧ file.services[l.path]? = some l.source := by
  constructor
  · intro hl
    obtain ⟨⟨service, i⟩, hentry, rfl⟩ := List.mem_map.1 hl
    exact ⟨rfl, List.mk_mem_zipIdx_iff_getElem?.1 hentry⟩
  · obtain ⟨other, i, source⟩ := l
    rintro ⟨rfl, hi⟩
    exact List.mem_map.2 ⟨(source, i), List.mk_mem_zipIdx_iff_getElem?.2 hi, rfl⟩

/-- A file is narrow if and only if its own lists, and those of all that it declares, are. -/
theorem File.narrow_iff (file : File) :
    file.Narrow ↔ file.messages.length < 2 ^ 31 ∧ file.enums.length < 2 ^ 31 ∧
      file.services.length < 2 ^ 31 ∧
      (∀ l ∈ file.locatedMessages, l.source.fields.length < 2 ^ 31 ∧
        l.source.oneofs.length < 2 ^ 31 ∧
        l.source.messages.length < 2 ^ 31 ∧ l.source.enums.length < 2 ^ 31) ∧
      (∀ l ∈ file.locatedEnums, l.source.values.length < 2 ^ 31) ∧
      ∀ service ∈ file.services, service.methods.length < 2 ^ 31 := by
  constructor
  · intro h
    refine ⟨h.messages, h.enums, h.services, fun l hl => ?_, fun l hl => ?_, h.methods⟩
    · obtain ⟨-, hpath⟩ := File.mem_locatedMessages.1 hl
      exact ⟨h.fields _ _ hpath, h.oneofs _ _ hpath, h.nestedMessages _ _ hpath,
        h.nestedEnums _ _ hpath⟩
    · exact h.values _ _ (File.mem_locatedEnums.1 hl).2
  · rintro ⟨hmessages, henums, hservices, hinner, hvalues, hmethods⟩
    have hlisted := fun p message (hp : file.messageAt? p = some message) =>
      hinner ⟨file, p, message⟩ (File.mem_locatedMessages.2 ⟨rfl, hp⟩)
    exact {
      messages := hmessages
      enums := henums
      services := hservices
      fields := fun p message hp => (hlisted p message hp).1
      oneofs := fun p message hp => (hlisted p message hp).2.1
      nestedMessages := fun p message hp => (hlisted p message hp).2.2.1
      nestedEnums := fun p message hp => (hlisted p message hp).2.2.2
      values := fun p e hp => hvalues ⟨file, p, e⟩ (File.mem_locatedEnums.2 ⟨rfl, hp⟩)
      methods := hmethods }

instance (file : File) : Decidable file.Narrow :=
  decidable_of_iff _ file.narrow_iff.symm

end Listed

/-! ## What is listed is what is declared -/

/-- The file and the descriptor of a declared element. -/
def Declared.origin {α : Type} (d : Declared α) : File × α := (d.file, d.source)

/-- The file and the descriptor of an element that is listed with its way. -/
def Located.origin {path source : Type} (l : Located path source) : File × source :=
  (l.file, l.source)

/-- The enumerations that are declared in a place are listed in order. -/
theorem origin_locateEnums (file : File) (pathOf : Nat → EnumPath) (scope : List String)
    (parent : Option Nat) (enums : List Enumeration) :
    (locateEnums file pathOf enums).map Located.origin =
      (declaredEnums file scope parent enums).map Declared.origin := by
  rw [locateEnums, declaredEnums, List.map_map, List.map_map]
  change enums.zipIdx.map (Prod.mk file ∘ Prod.fst) = enums.map (Prod.mk file)
  rw [← List.map_map, List.zipIdx_map_fst]

mutual

/-- The messages that a message declares are listed in order. -/
theorem Message.origin_located (file : File) (path : MessagePath) (scope : List String)
    (parent : Option Nat) (first : Nat) (message : Message) :
    (message.located file path).map Located.origin =
      (message.preorder file scope parent first).map Declared.origin := by
  match message with
  | .mk name fields messages enums options oneofs =>
    rw [Message.located, Message.preorder, List.map_cons, List.map_cons,
      Message.origin_locatedAll file path.nested 0 _ (some first) (first + 1) messages]
    rfl

/-- The messages that messages declare are listed in order. -/
theorem Message.origin_locatedAll (file : File) (pathOf : Nat → MessagePath) (position : Nat)
    (scope : List String) (parent : Option Nat) (first : Nat) (messages : List Message) :
    (Message.locatedAll file pathOf position messages).map Located.origin =
      (Message.preorderAll file scope parent first messages).map Declared.origin := by
  match messages with
  | [] => rfl
  | message :: rest =>
    rw [Message.locatedAll, Message.preorderAll, List.map_append, List.map_append,
      Message.origin_located file _ scope parent first message,
      Message.origin_locatedAll file pathOf (position + 1) scope parent
        (first + message.count) rest]

end

mutual

/-- The enumerations that a message declares are listed in order. -/
theorem Message.origin_locatedEnums (file : File) (path : MessagePath) (scope : List String)
    (first : Nat) (message : Message) :
    (message.locatedEnums file path).map Located.origin =
      (message.enumOrder file scope first).map Declared.origin := by
  match message with
  | .mk name fields messages enums options oneofs =>
    rw [Message.locatedEnums, Message.enumOrder, List.map_append, List.map_append,
      Message.origin_locatedEnumsAll file path.nested 0 _ (first + 1) messages,
      origin_locateEnums file _ (scope ++ [name.getD ""]) (some first) enums]

/-- The enumerations that messages declare are listed in order. -/
theorem Message.origin_locatedEnumsAll (file : File) (pathOf : Nat → MessagePath) (position : Nat)
    (scope : List String) (first : Nat) (messages : List Message) :
    (Message.locatedEnumsAll file pathOf position messages).map Located.origin =
      (Message.enumOrderAll file scope first messages).map Declared.origin := by
  match messages with
  | [] => rfl
  | message :: rest =>
    rw [Message.locatedEnumsAll, Message.enumOrderAll, List.map_append, List.map_append,
      Message.origin_locatedEnums file _ scope first message,
      Message.origin_locatedEnumsAll file pathOf (position + 1) scope (first + message.count) rest]

end

namespace FileSet

/-- The messages that a set of files declares. -/
def locatedMessages (set : FileSet) : List (Located MessagePath Message) :=
  set.files.flatMap File.locatedMessages

/-- The enumerations that a set of files declares. -/
def locatedEnums (set : FileSet) : List (Located EnumPath Enumeration) :=
  set.files.flatMap File.locatedEnums

/-- The services that the files of a set declare for which a condition holds. -/
def locatedServices (set : FileSet) (selected : File → Bool) : List (Located Nat Service) :=
  (set.files.filter selected).flatMap File.locatedServices

/-- The messages that a set declares are listed in order. -/
theorem origin_locatedMessages (set : FileSet) :
    set.locatedMessages.map Located.origin = set.preorder.map Declared.origin := by
  suffices hall : ∀ (files : List File) (first : Nat),
      (files.flatMap File.locatedMessages).map Located.origin =
        (File.preorderAll first files).map Declared.origin from hall set.files 0
  intro files
  induction files with
  | nil => exact fun _ => rfl
  | cons file rest ih =>
    intro first
    rw [List.flatMap_cons, File.preorderAll, List.map_append, List.map_append, ih,
      File.locatedMessages, Message.origin_locatedAll file .top 0 [] none first]

/-- The enumerations that a set declares are listed in order. -/
theorem origin_locatedEnums (set : FileSet) :
    set.locatedEnums.map Located.origin = set.enumOrder.map Declared.origin := by
  suffices hall : ∀ (files : List File) (first : Nat),
      (files.flatMap File.locatedEnums).map Located.origin =
        (File.enumOrderAll first files).map Declared.origin from hall set.files 0
  intro files
  induction files with
  | nil => exact fun _ => rfl
  | cons file rest ih =>
    intro first
    rw [List.flatMap_cons, File.enumOrderAll, List.map_append, List.map_append, List.map_append, ih,
      File.locatedEnums, List.map_append, Message.origin_locatedEnumsAll file .top 0 [] first,
      origin_locateEnums file .top [] none]

/-- The services that a set declares are listed in order. -/
theorem origin_locatedServices (set : FileSet) (selected : File → Bool) :
    (set.locatedServices selected).map Located.origin =
      (set.declaredServices selected).map Declared.origin := by
  rw [locatedServices, declaredServices, List.map_flatMap, List.map_flatMap]
  refine List.flatMap_congr fun file _ => ?_
  rw [File.locatedServices, File.declaredServices, List.map_map, List.map_map]
  change file.services.zipIdx.map (Prod.mk file ∘ Prod.fst) = file.services.map (Prod.mk file)
  rw [← List.map_map, List.zipIdx_map_fst]

/-- Whether the lists of a set hold exactly what its files declare, services if their files are
selected: each element with the way that leads to it, in the order of the declarations. -/
structure Listed (set : FileSet) (selected : File → Bool) : Prop where
  /-- The messages. -/
  messages : ∀ l, l ∈ set.locatedMessages ↔
    l.file ∈ set.files ∧ l.file.messageAt? l.path = some l.source
  /-- The enumerations. -/
  enums : ∀ l, l ∈ set.locatedEnums ↔ l.file ∈ set.files ∧
    l.file.enumAt? l.path = some l.source
  /-- The services. -/
  services : ∀ l, l ∈ set.locatedServices selected ↔
    (l.file ∈ set.files ∧ selected l.file = true) ∧ l.file.services[l.path]? = some l.source
  /-- The order of the messages. -/
  messageOrder : set.locatedMessages.map Located.origin = set.preorder.map Declared.origin
  /-- The order of the enumerations. -/
  enumOrder : set.locatedEnums.map Located.origin = set.enumOrder.map Declared.origin
  /-- The order of the services. -/
  serviceOrder : (set.locatedServices selected).map Located.origin =
    (set.declaredServices selected).map Declared.origin

/-- The lists of a set hold exactly what its files declare. -/
theorem listed (set : FileSet) (selected : File → Bool) : set.Listed selected where
  messages l := by simp [locatedMessages, File.mem_locatedMessages]
  enums l := by simp [locatedEnums, File.mem_locatedEnums]
  services l := by simp [locatedServices, File.mem_locatedServices]
  messageOrder := set.origin_locatedMessages
  enumOrder := set.origin_locatedEnums
  serviceOrder := set.origin_locatedServices selected

end FileSet

end ApiModel.Descriptor
