import ApiModel.Proofs.Descriptor.Declarations

/-!
# The nesting of declarations

What files declare is at the top of a file or inside a declared message. In the list of all declared
messages, the message around a message is listed before it, is of the same file, and the names of
both are the same but for the last one. The same holds of the enumerations, wherever in the list the
message around them is.
-/

namespace ApiModel.Descriptor

variable {α : Type} {file : File} {ds : List (Declared Message)} {scope : List String}
  {parent : Option Nat}

/-- The name that a declared message has of its own. -/
def Declared.ownName (d : Declared Message) : String := d.source.name.getD ""

/-- Whether the names and the position around an element are those of a level of a file: its top, or
the inside of a listed message. That message is itself declared on a level of the messages before
it. -/
inductive IsLevel (file : File) : List (Declared Message) → List String → Option Nat → Prop
  /-- The top. -/
  | top {ds : List (Declared Message)} : IsLevel file ds [] none
  /-- The inside of a message. -/
  | inside {ds : List (Declared Message)} {scope : List String} (p : Declared Message)
    (houter : IsLevel file ds scope p.parent) (hfile : p.file = file)
    (hnames : p.names = scope ++ [p.ownName]) (more : List (Declared Message)) :
    IsLevel file (ds ++ p :: more) p.names (some ds.length)

/-- Whether an element is declared under its own name on a level of messages. -/
def Declared.LiesIn (ds : List (Declared Message)) (own : String) (d : Declared α) : Prop :=
  ∃ scope, IsLevel d.file ds scope d.parent ∧ d.names = scope ++ [own]

/-- Whether every message of a list is declared on a level of those before it. -/
inductive Nested : List (Declared Message) → Prop
  /-- The empty list. -/
  | nil : Nested []
  /-- One more message. -/
  | concat {ds : List (Declared Message)} {d : Declared Message} (hds : Nested ds)
    (hd : d.LiesIn ds d.ownName) : Nested (ds ++ [d])

/-- The item behind a list stands at the position that is the length of the list. -/
theorem getElem?_length_append_cons (before : List α) (x : α) (after : List α) :
    (before ++ x :: after)[before.length]? = some x := by
  rw [List.getElem?_append_right (Nat.le_refl _), Nat.sub_self, List.getElem?_cons_zero]

/-- A level of messages is a level of any list that goes on behind them. -/
theorem IsLevel.append (h : IsLevel file ds scope parent) (others : List (Declared Message)) :
    IsLevel file (ds ++ others) scope parent := by
  cases h with
  | top => exact .top
  | inside p houter hfile hnames more =>
    rw [List.append_assoc, List.cons_append]
    exact .inside p houter hfile hnames (more ++ others)

/-- An element that lies in messages lies in any list that goes on behind them. -/
theorem Declared.LiesIn.append {own : String} {d : Declared α} (h : d.LiesIn ds own)
    (others : List (Declared Message)) : d.LiesIn (ds ++ others) own := by
  obtain ⟨scope, hlevel, hnames⟩ := h
  exact ⟨scope, hlevel.append others, hnames⟩

/-- A level with a position is the inside of the message there. -/
theorem IsLevel.exists_getElem? {i : Nat} (h : IsLevel file ds scope (some i)) :
    ∃ p, ds[i]? = some p ∧ p.file = file ∧ p.names = scope := by
  cases h with
  | inside p _ hfile _ more => exact ⟨p, getElem?_length_append_cons _ p more, hfile, rfl⟩

/-- The names around an element are those of listed messages. -/
theorem IsLevel.forall_names {P : String → Prop} (h : IsLevel file ds scope parent)
    (hP : ∀ d ∈ ds, P d.ownName) :
    ∀ name ∈ scope, P name := by
  induction h with
  | top => exact fun name hname => absurd hname List.not_mem_nil
  | inside p _ _ hnames more ih =>
    rw [hnames]
    intro name hname
    rcases List.mem_append.1 hname with hname | hname
    · exact ih (fun d hd => hP d (List.mem_append_left _ hd)) name hname
    · rw [List.mem_singleton.1 hname]
      exact hP p (List.mem_append_right _ List.mem_cons_self)

/-- A message of a nested list lies in the messages before its position. -/
theorem Nested.liesIn (h : Nested ds) {i : Nat} {d : Declared Message} (hd : ds[i]? = some d) :
    d.LiesIn (ds.take i) d.ownName := by
  induction h with
  | nil => simp at hd
  | @concat ds last hds hlast ih =>
    obtain ⟨hi, -⟩ := List.getElem?_eq_some_iff.1 hd
    rw [List.length_append, List.length_singleton] at hi
    rcases Nat.lt_succ_iff_lt_or_eq.1 hi with hlt | rfl
    · rw [List.getElem?_append_left hlt] at hd
      rw [List.take_append_of_le_length (Nat.le_of_lt hlt)]
      exact ih hd
    · rw [List.getElem?_concat_length] at hd
      obtain rfl := Option.some.inj hd
      rw [List.take_left]
      exact hlast

/-- A message of a nested list lies in the list. -/
theorem Nested.liesIn_of_mem (h : Nested ds) {d : Declared Message} (hd : d ∈ ds) :
    d.LiesIn ds d.ownName := by
  obtain ⟨i, hi⟩ := List.mem_iff_getElem?.1 hd
  have hall := (h.liesIn hi).append (ds.drop i)
  rwa [List.take_append_drop] at hall

/-! ## Messages -/

mutual

/-- What a message declares is nested behind the messages before it. -/
theorem Nested.append_preorder {ds : List (Declared Message)} {scope : List String}
    {parent : Option Nat} (h : Nested ds) (hlevel : IsLevel file ds scope parent)
    (message : Message) :
    Nested (ds ++ message.preorder file scope parent ds.length) := by
  match message with
  | .mk name fields messages enums options oneofs =>
    let d : Declared Message :=
      ⟨file, scope ++ [name.getD ""], parent, .mk name fields messages enums options oneofs⟩
    have hd : Nested (ds ++ [d]) := h.concat ⟨scope, hlevel, rfl⟩
    have hinside : IsLevel file (ds ++ [d]) d.names (some ds.length) := .inside d hlevel rfl rfl []
    have hinner := Nested.append_preorderAll hd hinside messages
    rw [List.append_assoc, List.length_append] at hinner
    exact hinner

/-- What messages declare is nested behind the messages before them. -/
theorem Nested.append_preorderAll {ds : List (Declared Message)} {scope : List String}
    {parent : Option Nat} (h : Nested ds) (hlevel : IsLevel file ds scope parent)
    (messages : List Message) :
    Nested (ds ++ Message.preorderAll file scope parent ds.length messages) := by
  match messages with
  | [] =>
    rw [Message.preorderAll, List.append_nil]
    exact h
  | message :: rest =>
    have hfirst := Nested.append_preorder h hlevel message
    have hrest := Nested.append_preorderAll hfirst (hlevel.append _) rest
    rw [List.length_append, Message.length_preorder, List.append_assoc] at hrest
    exact hrest

end

/-- What files declare is nested behind the messages before them. -/
theorem Nested.append_files (h : Nested ds) (files : List File) :
    Nested (ds ++ File.preorderAll ds.length files) := by
  induction files generalizing ds with
  | nil =>
    rw [File.preorderAll, List.append_nil]
    exact h
  | cons file rest ih =>
    have htop : IsLevel file ds [] none := .top
    have hrest := ih (h.append_preorderAll htop file.messages)
    rw [List.length_append, Message.length_preorderAll, List.append_assoc] at hrest
    exact hrest

/-- Every message that a set of files declares is on a level of those before it. -/
theorem FileSet.nested_preorder (set : FileSet) : Nested set.preorder :=
  Nested.nil.append_files set.files

/-! ## Enumerations -/

/-- Enumerations that are declared in one place are on that level. -/
theorem IsLevel.liesIn_declaredEnums (hlevel : IsLevel file ds scope parent)
    {enums : List Enumeration} {d : Declared Enumeration}
    (hd : d ∈ declaredEnums file scope parent enums) :
    d.LiesIn ds (d.source.name.getD "") := by
  obtain ⟨e, -, rfl⟩ := List.mem_map.1 hd
  exact ⟨scope, hlevel, rfl⟩

mutual

/-- The enumerations that a message declares are on levels of the messages that it declares. -/
theorem IsLevel.liesIn_enumOrder {ds : List (Declared Message)} {scope : List String}
    {parent : Option Nat} (hlevel : IsLevel file ds scope parent) (message : Message)
    {d : Declared Enumeration} (hd : d ∈ message.enumOrder file scope ds.length) :
    d.LiesIn (ds ++ message.preorder file scope parent ds.length) (d.source.name.getD "") := by
  match message with
  | .mk name fields messages enums options oneofs =>
    let p : Declared Message :=
      ⟨file, scope ++ [name.getD ""], parent, .mk name fields messages enums options oneofs⟩
    have hinside : IsLevel file (ds ++ [p]) p.names (some ds.length) := .inside p hlevel rfl rfl []
    have hlength : (ds ++ [p]).length = ds.length + 1 := by
      rw [List.length_append, List.length_singleton]
    have hlies : d.LiesIn (ds ++ [p] ++ Message.preorderAll file p.names (some ds.length)
        (ds ++ [p]).length messages) (d.source.name.getD "") := by
      rcases List.mem_append.1 hd with hd | hd
      · rw [← hlength] at hd
        exact IsLevel.liesIn_enumOrderAll hinside messages hd
      · exact (hinside.liesIn_declaredEnums hd).append _
    rw [List.append_assoc, hlength] at hlies
    exact hlies

/-- The enumerations that messages declare are on levels of the messages that they declare. -/
theorem IsLevel.liesIn_enumOrderAll {ds : List (Declared Message)} {scope : List String}
    {parent : Option Nat} (hlevel : IsLevel file ds scope parent) (messages : List Message)
    {d : Declared Enumeration} (hd : d ∈ Message.enumOrderAll file scope ds.length messages) :
    d.LiesIn (ds ++ Message.preorderAll file scope parent ds.length messages)
      (d.source.name.getD "") := by
  match messages with
  | [] => cases hd
  | message :: rest =>
    rw [Message.preorderAll, ← List.append_assoc]
    rcases List.mem_append.1 hd with hd | hd
    · exact (IsLevel.liesIn_enumOrder hlevel message hd).append _
    · rw [← Message.length_preorder file scope parent ds.length message,
        ← List.length_append] at hd ⊢
      exact IsLevel.liesIn_enumOrderAll (hlevel.append _) rest hd

end

/-- The enumerations that files declare are on levels of the messages that they declare. -/
theorem File.liesIn_enumOrderAll (ds : List (Declared Message)) {files : List File}
    {d : Declared Enumeration} (hd : d ∈ File.enumOrderAll ds.length files) :
    d.LiesIn (ds ++ File.preorderAll ds.length files) (d.source.name.getD "") := by
  induction files generalizing ds with
  | nil => cases hd
  | cons file rest ih =>
    have htop : IsLevel file ds [] none := .top
    rw [File.preorderAll, ← List.append_assoc]
    rcases List.mem_append.1 hd with hd | hd
    · refine Declared.LiesIn.append ?_ _
      rcases List.mem_append.1 hd with hd | hd
      · exact htop.liesIn_enumOrderAll file.messages hd
      · exact (htop.liesIn_declaredEnums hd).append _
    · rw [← Message.length_preorderAll file [] none ds.length file.messages,
        ← List.length_append] at hd ⊢
      exact ih _ hd

/-- Every enumeration that a set of files declares is on a level of the messages that it
declares. -/
theorem FileSet.liesIn_preorder {set : FileSet} {d : Declared Enumeration}
    (hd : d ∈ set.enumOrder) :
    d.LiesIn set.preorder (d.source.name.getD "") :=
  File.liesIn_enumOrderAll [] hd

end ApiModel.Descriptor
