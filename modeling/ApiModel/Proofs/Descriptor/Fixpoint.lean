import ApiModel.Proofs.Descriptor.RoundTrip

/-!
# What is read is read back

What is read from any bytes has no more levels of messages than were allowed, whatever the bytes
are: each put keeps the bound, so a whole message does. Hence every set of files within the allowed
levels is read back from its wire form, and a set that was read is one of these, so that writing it
again changes nothing, though fields that were not known are lost.
-/

namespace ApiModel.Descriptor

open Wire

variable {α β : Type} {known : Nat → Option (Put α)}

/-! ## Levels of what is read -/

/-- A put that leaves no more levels of messages than there are. -/
def Shallow (levels : Nat) (depth : α → Nat) (put : Put α) : Prop :=
  ∀ start value final, depth start ≤ levels → put start value = some final →
    depth final ≤ levels

/-- All fields that a message knows leave no more levels of messages than there are. -/
def AllShallow (levels : Nat) (depth : α → Nat) (known : Nat → Option (Put α)) : Prop :=
  ∀ number put, known number = some put → Shallow levels depth put

section Levels

variable {depth : α → Nat} {levels : Nat} {start final : α} {bytes : Bytes}

/-- What is read has no more levels of messages than there are. -/
theorem AllShallow.mergeAt (h : AllShallow levels depth known) (hstart : depth start ≤ levels)
    (hread : Wire.mergeAt levels known start bytes = some final) : depth final ≤ levels := by
  obtain ⟨fields, -, hfold⟩ := Option.bind_eq_some_iff.1 hread
  clear hread
  induction fields generalizing start with
  | nil => cases hfold; exact hstart
  | cons field rest ih =>
    rw [List.foldlM_cons] at hfold
    obtain ⟨value, hvalue, hrest⟩ := Option.bind_eq_some_iff.1 hfold
    refine ih ?_ hrest
    split at hvalue
    · rename_i put hknown
      exact h _ put hknown _ _ _ hstart hvalue
    · split at hvalue <;> simp_all

/-- What is read one level further down has fewer levels of messages than there are. -/
theorem lt_of_mergeBelow {inner : Nat → Nat → Option (Put α)}
    (h : ∀ below < levels, AllShallow below depth (inner below))
    (hstart : depth start ≤ levels - 1)
    (hread : mergeBelow levels inner start bytes = some final) : depth final < levels := by
  cases levels with
  | zero => cases hread
  | succ below => exact Nat.lt_succ_of_le ((h below (Nat.lt_succ_self _)).mergeAt hstart hread)

namespace Shallow

/-- Putting a scalar that adds no messages keeps a value shallow. -/
theorem scalar {read : Value → Option β} {add : α → β → α}
    (hdepth : ∀ a v, depth (add a v) ≤ depth a) :
    Shallow levels depth (putScalar read add) := by
  intro start value final hstart hput
  obtain ⟨v, -, rfl⟩ := Option.map_eq_some_iff.1 hput
  exact (hdepth start v).trans hstart

variable {inner : Nat → Nat → Option (Put β)} {innerDepth : β → Nat} [Inhabited β]

/-- Putting an optional message keeps a value shallow if the message is shallow one level below. -/
theorem message {get : α → Option β} {set : α → Option β → α}
    (h : ∀ below < levels, AllShallow below innerDepth (inner below))
    (hdefault : innerDepth default = 0)
    (hget : ∀ a, depth a ≤ levels → depthOf? innerDepth (get a) ≤ levels)
    (hset : ∀ a v, depth a ≤ levels → innerDepth v + 1 ≤ levels →
      depth (set a (some v)) ≤ levels) :
    Shallow levels depth (putMessage levels inner get set) := by
  intro start value final hstart hput
  obtain ⟨bytes, -, hput⟩ := Option.bind_eq_some_iff.1 hput
  obtain ⟨v, hread, hput⟩ := Option.bind_eq_some_iff.1 hput
  cases hput
  have hbefore : innerDepth ((get start).getD default) ≤ levels - 1 := by
    have := hget start hstart
    cases hv : get start with
    | none => simp [hdefault]
    | some w => simp only [hv, depthOf?, Option.getD_some] at this ⊢; omega
  exact hset start v hstart (lt_of_mergeBelow h hbefore hread)

/-- Putting one more message keeps a value shallow if the message is shallow one level below. -/
theorem another {add : α → β → α}
    (h : ∀ below < levels, AllShallow below innerDepth (inner below))
    (hdefault : innerDepth default = 0) (hadd : ∀ a v, depth a ≤ levels →
      innerDepth v + 1 ≤ levels → depth (add a v) ≤ levels) :
    Shallow levels depth (addMessage levels inner add) := by
  intro start value final hstart hput
  obtain ⟨bytes, -, hput⟩ := Option.bind_eq_some_iff.1 hput
  obtain ⟨v, hread, hput⟩ := Option.bind_eq_some_iff.1 hput
  cases hput
  exact hadd start v hstart (lt_of_mergeBelow h (hdefault ▸ Nat.zero_le _) hread)

end Shallow

/-- A message without messages inside it has no levels, whatever is read. -/
theorem allShallow_flat : AllShallow levels flat known :=
  fun _ _ _ _ _ _ _ _ => Nat.zero_le _

end Levels

/-! ## Descriptors -/

/-- What is read as field options has no more levels than there are. -/
theorem FieldOptions.shallow (levels : Nat) :
    AllShallow levels FieldOptions.depth (FieldOptions.known levels) := by
  intro number put hknown
  unfold FieldOptions.known at hknown
  split at hknown <;> cases hknown
  · exact .scalar fun _ _ => le_rfl
  · exact .scalar fun _ _ => le_rfl
  · exact .message (fun _ _ => allShallow_flat) rfl (fun _ h => h) (fun _ _ _ h => h)

/-- What is read as a field has no more levels than there are. -/
theorem Field.shallow (levels : Nat) : AllShallow levels Field.depth (Field.known levels) := by
  intro number put hknown
  unfold Field.known at hknown
  split at hknown <;> cases hknown
  case h_6 =>
    exact .message (fun below _ => FieldOptions.shallow below) rfl (fun _ h => h)
      (fun _ _ _ h => h)
  all_goals exact .scalar fun _ _ => le_rfl

/-- What is read as a value of an enumeration has no more levels than there are. -/
theorem EnumValue.shallow (levels : Nat) :
    AllShallow levels EnumValue.depth (EnumValue.known levels) := by
  intro number put hknown
  unfold EnumValue.known at hknown
  split at hknown <;> cases hknown
  · exact .scalar fun _ _ => le_rfl
  · exact .scalar fun _ _ => le_rfl
  · exact .message (fun _ _ => allShallow_flat) rfl (fun _ h => h) (fun _ _ _ h => h)

/-- What is read as an enumeration has no more levels than there are. -/
theorem Enumeration.shallow (levels : Nat) :
    AllShallow levels Enumeration.depth (Enumeration.known levels) := by
  intro number put hknown
  unfold Enumeration.known at hknown
  split at hknown <;> cases hknown
  · exact .scalar fun _ _ => le_rfl
  · exact .another (fun below _ => EnumValue.shallow below) rfl fun a v ha hv => by
      simp only [Enumeration.depth, depthOfAll_append, depthOfAll, max_le_iff] at ha ⊢
      omega
  · exact .message (fun _ _ => allShallow_flat) rfl
      (fun _ h => (max_le_iff.1 h).2) fun a v ha hv => by
      simp only [Enumeration.depth, depthOf?, max_le_iff] at ha ⊢
      omega

/-- What is read as a message of a schema has no more levels than there are. -/
theorem Message.shallow (levels : Nat) :
    AllShallow levels Message.depth (Message.known levels) := by
  induction levels using Nat.strongRecOn with
  | ind levels ih =>
    intro number put hknown
    by_cases hnested : number = 3
    · rw [hnested, Message.known_nested] at hknown
      cases hknown
      refine .another ih rfl fun a v ha hv => ?_
      cases a
      simp only [Message.depth, Message.depthAll_eq, depthOfAll_append, depthOfAll,
        max_le_iff] at ha ⊢
      omega
    · unfold Message.known Message.knownWith at hknown
      split at hknown <;> cases hknown
      · refine .scalar fun a v => ?_
        cases a
        rfl
      · refine .another (fun below _ => Field.shallow below) rfl fun a v ha hv => ?_
        cases a
        simp only [Message.depth, depthOfAll_append, depthOfAll, max_le_iff] at ha ⊢
        omega
      · exact absurd rfl hnested
      · refine .another (fun below _ => Enumeration.shallow below) rfl fun a v ha hv => ?_
        cases a
        simp only [Message.depth, depthOfAll_append, depthOfAll, max_le_iff] at ha ⊢
        omega
      · refine .message (fun _ _ => allShallow_flat) rfl (fun a ha => ?_) fun a v ha hv => ?_ <;>
          cases a <;> simp only [Message.depth, Message.options, depthOf?, max_le_iff] at ha ⊢ <;>
            omega
      · refine .another (fun _ _ => allShallow_flat) rfl fun a v ha hv => ?_
        cases a
        simp only [Message.depth, depthOfAll_append, depthOfAll, max_le_iff] at ha ⊢
        omega

/-- A path in place of a pattern adds no levels to a rule. -/
theorem HttpRule.depth_withPattern_le {pattern : HttpPattern} (hpattern : pattern.depth = 0)
    (rule : HttpRule) : (rule.withPattern pattern).depth ≤ rule.depth := by
  cases rule
  simp only [HttpRule.withPattern, HttpRule.depth, Option.elim_some, hpattern]
  omega

/-- What is read as an HTTP rule has no more levels than there are. -/
theorem HttpRule.shallow (levels : Nat) :
    AllShallow levels HttpRule.depth (HttpRule.known levels) := by
  induction levels using Nat.strongRecOn with
  | ind levels ih =>
    have path {make : String → HttpPattern} (hmake : ∀ text, (make text).depth = 0) :
        Shallow levels HttpRule.depth
          (putScalar Value.text? fun rule text => rule.withPattern (make text)) :=
      .scalar fun rule text => HttpRule.depth_withPattern_le (hmake text) rule
    intro number put hknown
    by_cases hadditional : number = 11
    · rw [hadditional, HttpRule.known_additional] at hknown
      cases hknown
      refine .another ih rfl fun a v ha hv => ?_
      cases a
      simp only [HttpRule.depth, HttpRule.depthAll_eq, depthOfAll_append, depthOfAll,
        max_le_iff] at ha ⊢
      omega
    · unfold HttpRule.known HttpRule.knownWith at hknown
      split at hknown <;> cases hknown
      case h_1 | h_8 | h_10 =>
        refine .scalar fun a v => ?_
        cases a
        rfl
      case h_2 | h_3 | h_4 | h_5 | h_6 => exact path fun _ => rfl
      case h_7 =>
        intro start value final hstart hput
        obtain ⟨bytes, -, hput⟩ := Option.bind_eq_some_iff.1 hput
        obtain ⟨custom, hread, hput⟩ := Option.bind_eq_some_iff.1 hput
        have hlevels : flat custom < levels :=
          lt_of_mergeBelow (fun _ _ => allShallow_flat) (Nat.zero_le _) hread
        cases hput
        cases start
        simp only [HttpRule.withPattern, HttpRule.depth, Option.elim_some,
          HttpPattern.depth] at hstart ⊢
        omega
      case h_9 => exact absurd rfl hadditional

/-- What is read as a routing rule has no more levels than there are. -/
theorem RoutingRule.shallow (levels : Nat) :
    AllShallow levels RoutingRule.depth (RoutingRule.known levels) := by
  intro number put hknown
  unfold RoutingRule.known at hknown
  split at hknown <;> cases hknown
  exact .another (fun _ _ => allShallow_flat) rfl fun a v ha hv => by
    simp only [RoutingRule.depth, depthOfAll_append, depthOfAll, max_le_iff] at ha ⊢
    omega

/-- What is read as method options has no more levels than there are. -/
theorem MethodOptions.shallow (levels : Nat) :
    AllShallow levels MethodOptions.depth (MethodOptions.known levels) := by
  intro number put hknown
  unfold MethodOptions.known at hknown
  split at hknown <;> cases hknown
  · exact .scalar fun _ _ => le_rfl
  · refine .message (fun _ _ => allShallow_flat) rfl (fun a ha => ?_) fun a v ha hv => ?_ <;>
      simp only [MethodOptions.depth, depthOf?, max_le_iff] at ha ⊢ <;> omega
  · refine .message (fun below _ => HttpRule.shallow below) rfl
      (fun a ha => ?_) fun a v ha hv => ?_ <;>
      simp only [MethodOptions.depth, depthOf?, max_le_iff] at ha ⊢ <;> omega
  · refine .message (fun below _ => RoutingRule.shallow below) rfl
      (fun a ha => ?_) fun a v ha hv => ?_ <;>
      simp only [MethodOptions.depth, depthOf?, max_le_iff] at ha ⊢ <;> omega

/-- What is read as a method has no more levels than there are. -/
theorem Method.shallow (levels : Nat) : AllShallow levels Method.depth (Method.known levels) := by
  intro number put hknown
  unfold Method.known at hknown
  split at hknown <;> cases hknown
  case h_4 =>
    exact .message (fun below _ => MethodOptions.shallow below) rfl (fun _ h => h)
      (fun _ _ _ h => h)
  all_goals exact .scalar fun _ _ => le_rfl

/-- What is read as a service has no more levels than there are. -/
theorem Service.shallow (levels : Nat) :
    AllShallow levels Service.depth (Service.known levels) := by
  intro number put hknown
  unfold Service.known at hknown
  split at hknown <;> cases hknown
  · exact .scalar fun _ _ => le_rfl
  · exact .another (fun below _ => Method.shallow below) rfl fun a v ha hv => by
      simp only [Service.depth, depthOfAll_append, depthOfAll, max_le_iff] at ha ⊢
      omega
  · exact .message (fun _ _ => allShallow_flat) rfl
      (fun _ h => (max_le_iff.1 h).2) fun a v ha hv => by
      simp only [Service.depth, depthOf?, max_le_iff] at ha ⊢
      omega

/-- What is read as the places of a file has no more levels than there are. -/
theorem SourceInfo.shallow (levels : Nat) :
    AllShallow levels SourceInfo.depth (SourceInfo.known levels) := by
  intro number put hknown
  unfold SourceInfo.known at hknown
  split at hknown <;> cases hknown
  exact .another (fun _ _ => allShallow_flat) rfl fun a v ha hv => by
    simp only [SourceInfo.depth, depthOfAll_append, depthOfAll, max_le_iff] at ha ⊢
    omega

/-- What is read as a file has no more levels than there are. -/
theorem File.shallow (levels : Nat) : AllShallow levels File.depth (File.known levels) := by
  intro number put hknown
  unfold File.known at hknown
  split at hknown <;> cases hknown
  case h_4 =>
    exact .another (fun below _ => Message.shallow below) rfl fun a v ha hv => by
      simp only [File.depth, depthOfAll_append, depthOfAll, max_le_iff] at ha ⊢
      omega
  case h_5 =>
    exact .another (fun below _ => Enumeration.shallow below) rfl fun a v ha hv => by
      simp only [File.depth, depthOfAll_append, depthOfAll, max_le_iff] at ha ⊢
      omega
  case h_6 =>
    exact .another (fun below _ => Service.shallow below) rfl fun a v ha hv => by
      simp only [File.depth, depthOfAll_append, depthOfAll, max_le_iff] at ha ⊢
      omega
  case h_7 =>
    refine .message (fun below _ => SourceInfo.shallow below) rfl
      (fun a ha => ?_) fun a v ha hv => ?_ <;>
      simp only [File.depth, depthOf?, max_le_iff] at ha ⊢ <;> omega
  all_goals exact .scalar fun _ _ => le_rfl

/-- What is read as a set of files has no more levels than there are. -/
theorem FileSet.shallow (levels : Nat) :
    AllShallow levels FileSet.depth (FileSet.known levels) := by
  intro number put hknown
  unfold FileSet.known at hknown
  split at hknown <;> cases hknown
  exact .another (fun below _ => File.shallow below) rfl fun a v ha hv => by
    simp only [FileSet.depth, depthOfAll_append, depthOfAll, max_le_iff] at ha ⊢
    omega

/-! ## Sets of files -/

/-- A set of files that was read is within the levels of messages. -/
theorem FileSet.depth_le_of_read {bytes : Bytes} {set : FileSet}
    (h : FileSet.read bytes = some set) :
    set.depth ≤ maxLevels :=
  (FileSet.shallow maxLevels).mergeAt (Nat.zero_le _) h

/-- Every set of files within the levels of messages is read back from its wire form. So whatever
bytes are read, what was read from them is read back from its own wire form, and writing what is
read back changes nothing. A wire form is a sequence of bytes with a length, which is below `2 ^
64`. -/
theorem FileSet.read_write_exact :
    (∀ set : FileSet, set.depth ≤ maxLevels → set.write.length < 2 ^ 64 →
      FileSet.read set.write = some set) ∧
    ∀ (bytes : Bytes) (set : FileSet), FileSet.read bytes = some set →
      set.write.length < 2 ^ 64 →
      FileSet.read set.write = some set ∧
        (FileSet.read set.write).map FileSet.write = some set.write := by
  have exact {set : FileSet} (hdepth : set.depth ≤ maxLevels)
    (hlength : set.write.length < 2 ^ 64) :
      FileSet.read set.write = some set :=
    (set.readsBack maxLevels hdepth).mergeAt hlength maxLevels
  refine ⟨fun set => exact, fun bytes set hread hlength => ?_⟩
  have hagain := exact (FileSet.depth_le_of_read hread) hlength
  exact ⟨hagain, by rw [hagain]; rfl⟩

/-- A file with a negative field number, a nested message, a pattern of its own verb, a further
binding with an empty path and a place is read back; a file behind an unknown field is read and read
back. -/
theorem FileSet.read_write_exact_gallery :
    (∃ set : FileSet, FileSet.read set.write = some set ∧ set.depth = 6 ∧
      100 < set.write.length) ∧
    ∃ set : FileSet, FileSet.read [0xa0, 0x06, 0x01, 0x0a, 0x03, 0x0a, 0x01, 0x61] = some set ∧
      FileSet.read set.write = some set ∧ set.write = [0x0a, 0x03, 0x0a, 0x01, 0x61] := by
  constructor
  · let further : HttpRule := .mk "" (some (.get "")) "" [] ""
    let rule : HttpRule := .mk "" (some (.custom ⟨"HEAD", "/v1/a"⟩)) "*" [further] ""
    let options : MethodOptions :=
      { http := some rule, routing := some ⟨[⟨"name", ""⟩]⟩,
        operationInfo := some ⟨"A", ""⟩ }
    let field : Field :=
      { name := some "id", number := some (-1), options := some { fieldBehavior := [2, -3] } }
    let inner : Message := .mk (some "B") [] [] [] none [⟨some "kind"⟩]
    let set : FileSet :=
      ⟨[{ name := some "a.proto", dependencies := ["b.proto"],
          messages := [.mk (some "A") [field] [inner] [] none []],
          services := [{ methods := [{ options := some options }] }],
          sourceInfo := some ⟨[{ path := [4, 0], span := [1, 2, 300] }]⟩ }]⟩
    have hdepth : set.depth = 6 := by decide +kernel
    have hlength : 100 < set.write.length ∧ set.write.length < 2 ^ 64 := by decide +kernel
    exact ⟨set, FileSet.read_write_exact.1 set (by rw [hdepth]; decide) hlength.2,
      hdepth, hlength.1⟩
  · have hread :
      ((FileSet.read [0xa0, 0x06, 0x01, 0x0a, 0x03, 0x0a, 0x01, 0x61]).map FileSet.write) =
        some [0x0a, 0x03, 0x0a, 0x01, 0x61] := by decide +kernel
    obtain ⟨set, hset, hwrite⟩ := Option.map_eq_some_iff.1 hread
    have hlength : set.write.length < 2 ^ 64 := by rw [hwrite]; decide
    exact ⟨set, hset, (FileSet.read_write_exact.2 _ set hset hlength).1, hwrite⟩

end ApiModel.Descriptor
