import ApiModel.Proofs.Descriptor.Bindings
import ApiModel.Proofs.Descriptor.Conversion
import ApiModel.Proofs.First

/-!
# Messages of the same full name

The messages of a set are noted by full name in one order, each behind those nested in it, and added
to the model in another, each before them. The last one of a name is the same in both: messages of
one name are never nested in each other, since a nested name is longer, and what is not nested in
each other is met in the same order.
-/

namespace ApiModel.Descriptor

open Model

variable {m k : Model}

/-! ## Two orders -/

mutual

/-- What a message declares has longer names than the scope around it. -/
theorem Message.length_lt_of_mem_declarations {scope : String} {message : Message}
    {e : String × Message} (he : e ∈ message.declarations scope) :
    scope.length < e.1.length := by
  match message with
  | .mk name fields messages enums options oneofs =>
    have hown : scope.length < (scope ++ "." ++ name.getD "").length := by
      rw [String.length_append, String.length_append]
      exact Nat.lt_add_right _ (Nat.lt_add_of_pos_right (by decide))
    rw [Message.declarations] at he
    rcases List.mem_append.1 he with he | he
    · exact Nat.lt_trans hown (Message.length_lt_of_mem_allDeclarations he)
    · obtain rfl := List.mem_singleton.1 he
      exact hown

/-- What messages declare has longer names than the scope around them. -/
theorem Message.length_lt_of_mem_allDeclarations {scope : String} {messages : List Message}
    {e : String × Message} (he : e ∈ Message.allDeclarations scope messages) :
    scope.length < e.1.length := by
  match messages with
  | [] => cases he
  | message :: rest =>
    rcases List.mem_append.1 he with he | he
    · exact Message.length_lt_of_mem_declarations he
    · exact Message.length_lt_of_mem_allDeclarations he

end

/-- The declared messages of a full name, in the order in which they are noted. -/
def notedUnder (id : String) (declarations : List (String × Message)) : List Message :=
  (declarations.filter fun e => e.1 == id).map Prod.snd

/-- The declared messages of a full name, in the order in which they are added. -/
def addedUnder (id : String) (ds : List (Declared Message)) : List Message :=
  (ds.filter fun d => d.id == id).map Declared.source

/-- What is declared in turn is noted in turn. -/
theorem notedUnder_append (id : String) (first later : List (String × Message)) :
    notedUnder id (first ++ later) = notedUnder id first ++ notedUnder id later := by
  rw [notedUnder, List.filter_append, List.map_append]
  rfl

/-- What is declared in turn is added in turn. -/
theorem addedUnder_append (id : String) (first later : List (Declared Message)) :
    addedUnder id (first ++ later) = addedUnder id first ++ addedUnder id later := by
  rw [addedUnder, List.filter_append, List.map_append]
  rfl

mutual

/-- The messages of a full name that a message declares are noted in the order in which they are
added. -/
theorem Message.notedUnder_declarations {file : File} {scope : String} {names : List String}
    (hscope : IsScope scope file.packageName names) (parent : Option Nat) (first : Nat)
    (id : String) (message : Message) :
    notedUnder id (message.declarations scope) =
      addedUnder id (message.preorder file names parent first) := by
  match message with
  | .mk name fields messages enums options oneofs =>
    have hnested :=
      Message.notedUnder_allDeclarations (hscope.append (name.getD "")) (some first)
        (first + 1) id messages
    have hown := hscope (name.getD "")
    have hadded := addedUnder_append id
      [⟨file, names ++ [name.getD ""], parent, .mk name fields messages enums options oneofs⟩]
      (Message.preorderAll file (names ++ [name.getD ""]) (some first) (first + 1) messages)
    rw [Message.declarations, Message.preorder, notedUnder_append]
    refine Eq.trans ?_ hadded.symm
    by_cases hid : scope ++ "." ++ name.getD "" = id
    · -- what is nested has longer names, so it is not of this name
      have hlonger :
          notedUnder id (Message.allDeclarations (scope ++ "." ++ name.getD "") messages) = [] := by
        rw [notedUnder, List.map_eq_nil_iff, List.filter_eq_nil_iff]
        intro e he hsame
        have hlength := Message.length_lt_of_mem_allDeclarations he
        rw [hid, beq_iff_eq.1 hsame] at hlength
        exact Nat.lt_irrefl _ hlength
      rw [← hnested, hlonger, List.nil_append, List.append_nil]
      simp [notedUnder, addedUnder, Declared.id, ← hown, hid]
    · rw [hnested]
      simp [notedUnder, addedUnder, Declared.id, ← hown, hid]

/-- The messages of a full name that messages declare are noted in the order in which they are
added. -/
theorem Message.notedUnder_allDeclarations {file : File} {scope : String} {names : List String}
    (hscope : IsScope scope file.packageName names) (parent : Option Nat) (first : Nat)
    (id : String) (messages : List Message) :
    notedUnder id (Message.allDeclarations scope messages) =
      addedUnder id (Message.preorderAll file names parent first messages) := by
  match messages with
  | [] => rfl
  | message :: rest =>
    have hfirst := Message.notedUnder_declarations hscope parent first id message
    have hrest := Message.notedUnder_allDeclarations hscope parent (first + message.count) id rest
    rw [Message.allDeclarations, Message.preorderAll, notedUnder_append, addedUnder_append,
      hfirst, hrest]

end

/-- The messages of a full name that a set declares are noted in the order in which they are
added. -/
theorem FileSet.notedUnder_declarations (set : FileSet) (id : String) :
    notedUnder id set.declarations = addedUnder id set.preorder := by
  suffices hall : ∀ (files : List File) (first : Nat),
      notedUnder id (files.flatMap fun file =>
        Message.allDeclarations (scopeOf file.packageName) file.messages) =
        addedUnder id (File.preorderAll first files) from hall set.files 0
  intro files
  induction files with
  | nil => exact fun _ => rfl
  | cons file rest ih =>
    intro first
    rw [List.flatMap_cons, File.preorderAll, notedUnder_append, addedUnder_append, ih,
      Message.notedUnder_allDeclarations (isScope_scopeOf file.packageName) none first id
        file.messages]

/-! ## The last message of a name -/

/-- What is found under a key is the first item of the key. -/
theorem lookup_eq_find? {κ α : Type} [BEq κ] [LawfulBEq κ] (key : κ)
    (items : List (κ × α)) :
    items.lookup key = (items.find? fun e => e.1 == key).map Prod.snd := by
  induction items with
  | nil => rfl
  | cons e rest ih =>
    obtain ⟨own, x⟩ := e
    rw [List.lookup_cons, List.find?_cons, BEq.comm]
    dsimp only
    cases own == key with
    | true => rfl
    | false => exact ih

/-- What is found from the end under a key is the last item of the key. -/
theorem lookup_reverse {κ α : Type} [BEq κ] [LawfulBEq κ] (key : κ) (items : List (κ × α)) :
    items.reverse.lookup key = ((items.filter fun e => e.1 == key).map Prod.snd).getLast? := by
  rw [lookup_eq_find?, List.getLast?_map, List.getLast?_filter]

/-! ## Places by full name -/

/-- The messages of a model by full name, put in one by one in the order in which they were
added. -/
def handles (m : Model) : Index MessageRef :=
  indexBy (fun r => (m.message r).id) ((List.range m.store.messages.size).map MessageRef.mk)

/-- The place that is found for a full name is what was put in last under it. -/
theorem lastMessageRef?_eq (m : Model) (id : String) :
    lastMessageRef? m id = (handles m).get? id := by
  rw [handles, get?_indexBy, ← List.map_reverse, List.find?_map, ← List.head?_filter,
    List.filter_reverse, List.head?_reverse]
  rfl

/-- Models with the same full names at the same places have the same messages by full name. -/
theorem handles_congr (hsize : k.store.messages.size = m.store.messages.size)
    (hid : ∀ r, (k.message r).id = (m.message r).id) : handles k = handles m := by
  simp only [handles, hsize, hid]

/-- A message that is added is put in under its full name. -/
theorem handles_addMessage (m : Model) (x : ApiModel.Message) :
    handles (m.addMessage x).model = (handles m).insert x.id (m.addMessage x).ref := by
  have hid : ∀ r, ((m.addMessage x).model.message r).id =
      if r = messageArena.next m then x.id else (m.message r).id := by
    intro r
    change (messageArena.get (messageArena.push m (x.ownedBy (messageArena.next m))) r).id = _
    rw [messageArena.get_push]
    split
    · rfl
    · rfl
  have hsize : (m.addMessage x).model.store.messages.size = m.store.messages.size + 1 :=
    Array.size_push _
  rw [handles, hsize, List.range_succ, List.map_append, List.map_singleton, indexBy_concat]
  refine congrArg₂ (fun index id => Index.insert index id _) (indexBy_congr fun r hr => ?_) ?_
  · obtain ⟨i, hi, rfl⟩ := List.mem_map.1 hr
    refine (hid _).trans (if_neg fun hsame => ?_)
    exact Nat.ne_of_lt (List.mem_range.1 hi) (congrArg MessageRef.index hsame)
  · exact (hid _).trans (if_pos rfl)

/-! ## Descriptors and places -/

/-- Whether what stands under a full name, among the descriptors and in a model, is a declared
message and the one that is converted from it. -/
structure FileSet.Defines (set : FileSet) (k : Model) (id : String) (d : Declared Message)
    (r : MessageRef) :
    Prop where
  /-- The message is declared at this place. -/
  declared : set.preorder[r.index]? = some d
  /-- No later one has the name. -/
  last : LastAt (fun d => d.id = id) set.preorder r.index
  /-- Its descriptor is the one that is found. -/
  source : set.messagesById.get? id = some d.source
  /-- Its place is the one that is found. -/
  ref : lastMessageRef? k id = some r
  /-- The message there is converted from it, so the fields are those of the descriptor, in
  order. -/
  message : ∃ x, messageArena.find? k r = some x ∧ d.ConvertsTo x.unmarked.detached ∧
    MessageYields d x

/-- Whether a full name is that of no declared message, and nothing stands under it. -/
structure FileSet.Lacks (set : FileSet) (k : Model) (id : String) : Prop where
  /-- No declared message has the name. -/
  undeclared : ∀ d ∈ set.preorder, d.id ≠ id
  /-- No descriptor is found. -/
  source : set.messagesById.get? id = none
  /-- No place is found. -/
  ref : lastMessageRef? k id = none

/-- Under a full name stands the last descriptor in the order in which messages are added. -/
theorem FileSet.get?_eq_getLast? (set : FileSet) (id : String) :
    set.messagesById.get? id =
      ((set.preorder.filter fun d => d.id == id).getLast?).map Declared.source := by
  have hnoted := set.notedUnder_declarations id
  rw [notedUnder, addedUnder] at hnoted
  rw [get?_messagesById, FileSet.message?, lookup_reverse, hnoted, List.getLast?_map]

section

variable {set : FileSet}
  (hall : List.Forall₂ (fun d (x : ApiModel.Message) => d.ConvertsTo x.unmarked.detached)
    set.preorder
    k.store.messages.toList)

include hall

/-- A message at a place is converted from the one that is declared there. -/
theorem exists_declared {i : Nat} {x : ApiModel.Message}
    (hx : messageArena.find? k ⟨i⟩ = some x) :
    ∃ d, set.preorder[i]? = some d ∧ d.ConvertsTo x.unmarked.detached :=
  exists_getElem?_of_forall₂ hall ((Array.getElem?_toList ..).trans hx)

/-- At the place of a declared message stands the one that is converted from it. -/
theorem exists_message {i : Nat} {d : Declared Message} (hd : set.preorder[i]? = some d) :
    ∃ x, messageArena.find? k ⟨i⟩ = some x ∧ d.ConvertsTo x.unmarked.detached := by
  obtain ⟨x, hx, hconverts⟩ := exists_getElem?_of_forall₂ hall.flip hd
  exact ⟨x, (Array.getElem?_toList ..).symm.trans hx, hconverts⟩

/-- The messages of a model of a full name are those that are declared under it. -/
theorem id_message_iff {i : Nat} (id : String) (hi : i < k.store.messages.size) :
    (k.message ⟨i⟩).id = id ↔ ∃ d, set.preorder[i]? = some d ∧ d.id = id := by
  have hx := messageArena.find?_of_holds (m := k) (r := ⟨i⟩) hi
  obtain ⟨d, hd, hconverts⟩ := exists_declared hall hx
  have hid : (k.message ⟨i⟩).id = d.id := hconverts.yields.id
  rw [hid, hd]
  simp

/-- Under each full name, the descriptor that is found and the place that is found belong
together. -/
theorem defines_or_lacks (id : String) : (∃ d r, set.Defines k id d r) ∨ set.Lacks k id := by
  by_cases hdeclared : ∃ d ∈ set.preorder, d.id = id
  · obtain ⟨i, hlast⟩ := exists_lastAt hdeclared
    obtain ⟨d, hd, hid⟩ := hlast.1
    obtain ⟨x, hx, hconverts⟩ := exists_message hall hd
    have hi : i < k.store.messages.size := messageArena.holds_of_find? hx
    have hplace : LastAt (fun j => (k.message ⟨j⟩).id = id)
        (List.range k.store.messages.size) i := by
      refine ⟨⟨i, List.getElem?_range hi, (id_message_iff hall id hi).2 ⟨d, hd, hid⟩⟩,
        fun j hj n hn hsame => ?_⟩
      obtain ⟨hlt, rfl⟩ := List.getElem?_eq_some_iff.1 hn
      rw [List.length_range] at hlt
      rw [List.getElem_range, id_message_iff hall id hlt] at hsame
      obtain ⟨e, he, heid⟩ := hsame
      exact hlast.2 j hj e he heid
    refine .inl ⟨d, ⟨i⟩, hd, hlast, ?_, ?_, x, hx, hconverts, hconverts.yields⟩
    · rw [set.get?_eq_getLast?, hlast.getLast?_filter (fun _ => beq_iff_eq) hd, Option.map_some]
    · unfold lastMessageRef?
      dsimp only
      rw [hplace.getLast?_filter (fun _ => beq_iff_eq) (List.getElem?_range hi), Option.map_some]
  · have hnone : ∀ d ∈ set.preorder, d.id ≠ id := fun d hd hid => hdeclared ⟨d, hd, hid⟩
    refine .inr ⟨hnone, ?_, ?_⟩
    · rw [set.get?_eq_getLast?, List.filter_eq_nil_iff.2 fun d hd hid =>
        hnone d hd (beq_iff_eq.1 hid)]
      rfl
    · unfold lastMessageRef?
      dsimp only
      rw [List.filter_eq_nil_iff.2 fun j hj hid => ?_]
      · rfl
      · obtain ⟨d, hd, hsame⟩ :=
          (id_message_iff hall id (List.mem_range.1 hj)).1 (beq_iff_eq.1 hid)
        exact hnone d (List.mem_of_getElem? hd) hsame

end

end ApiModel.Descriptor
