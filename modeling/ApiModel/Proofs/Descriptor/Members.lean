import ApiModel.Descriptor.Write
import ApiModel.Proofs.Wire.RoundTrip

/-!
# Reading back the members of a message

`Carries known start bytes final`: the bytes, read into the value `start` of a message, give
`final`. The relation composes along the members of a message, and every form of member has one
lemma: from a value in which the member is blank, what the writer puts on the wire brings the value
in which it is set. How a member is blank and set is given by a function, so that a message needs no
more than the list of its members; the side conditions, that the number is known and that the member
is put and blank as the function says, hold by computation.
-/

namespace ApiModel.Descriptor

open Wire

variable {α β : Type} {known : Nat → Option (Put α)} {number : Nat}

/-! ## Integers -/

/-- The wire form of an integer is its remainder modulo `2 ^ 64`. -/
theorem wireInteger_eq (n : Int32) : wireInteger n = (n.toInt % 2 ^ 64).toNat := rfl

/-- The wire form of an integer is below `2 ^ 64`. -/
theorem wireInteger_lt (n : Int32) : wireInteger n < 2 ^ 64 := by
  rw [wireInteger_eq]
  omega

/-- An integer is read back from its wire form. -/
@[simp]
theorem int32Of_wireInteger (n : Int32) : int32Of (wireInteger n) = n := by
  have hlow := n.le_toInt
  have hhigh := n.toInt_lt
  have hsize : (Int32.size : Int) = 2 ^ 32 := rfl
  apply Int32.toInt_inj.1
  rw [int32Of, Int32.toInt_ofNat', wireInteger_eq, Int.bmod, hsize]
  omega

/-- Integers packed one behind the other are read back. -/
theorem readIntegers_wireIntegers (ns : List Int32) :
    readIntegers (ns.flatMap fun n => writeVarint (wireInteger n)) = some (ns.map wireInteger) := by
  rw [← List.flatMap_map wireInteger writeVarint]
  exact readIntegers_flatMap (List.forall_mem_map.2 fun n _ => wireInteger_lt n)

/-! ## Bytes that carry a value -/

/-- Puts fields that a message knows, one after the other. -/
def putAll (known : Nat → Option (Put α)) : α → List Wire.Field → Option α
  | value, [] => some value
  | value, field :: rest => do
    let put ← known field.number
    putAll known (← put value field.value) rest

/-- Fields in a row are put in a row. -/
theorem putAll_append (known : Nat → Option (Put α)) (start : α)
    (fields fields' : List Wire.Field) :
    putAll known start (fields ++ fields') =
      (putAll known start fields).bind fun value => putAll known value fields' := by
  induction fields generalizing start with
  | nil => rfl
  | cons field rest ih =>
    simp only [List.cons_append, putAll, ih]
    cases known field.number with
    | none => rfl
    | some put => cases h : put start field.value <;> simp [h]

/-- Putting known fields is what reading does with them. -/
theorem foldlM_of_putAll {start final : α} {fields : List Wire.Field} (levels : Nat)
    (h : putAll known start fields = some final) :
    fields.foldlM
      (fun value field =>
        match known field.number with
        | some put => put value field.value
        | none => if levels = 0 then none else some value) start = some final := by
  induction fields generalizing start with
  | nil => exact h
  | cons field rest ih =>
    obtain ⟨put, hknown, h⟩ := Option.bind_eq_some_iff.1 h
    obtain ⟨value, hput, h⟩ := Option.bind_eq_some_iff.1 h
    rw [List.foldlM_cons, hknown]
    exact Option.bind_eq_some_iff.2 ⟨value, hput, ih h⟩

/-- Bytes, if they are few enough to have a length on the wire, bring one value to another. -/
def Carries (known : Nat → Option (Put α)) (start : α) (bytes : Bytes) (final : α) : Prop :=
  bytes.length < 2 ^ 64 → ∃ fields, Spells bytes fields ∧
    putAll known start fields = some final

namespace Carries

variable {start middle final : α} {bytes bytes' : Bytes}

/-- A message is read as the value that its bytes bring. -/
theorem mergeAt (h : Carries known start bytes final) (hlength : bytes.length < 2 ^ 64)
    (levels : Nat) : Wire.mergeAt levels known start bytes = some final := by
  obtain ⟨fields, hspells, hput⟩ := h hlength
  rw [Wire.mergeAt, hspells.readFields]
  exact foldlM_of_putAll levels hput

/-- No bytes carry a value to itself. -/
theorem nil : Carries known start [] start :=
  fun _ => ⟨[], .nil, rfl⟩

/-- Bytes in a row carry a value to where the later ones carry what the first ones make of it. -/
theorem append (h : Carries known start bytes middle) (h' : Carries known middle bytes' final) :
    Carries known start (bytes ++ bytes') final := by
  intro hlength
  rw [List.length_append] at hlength
  obtain ⟨fields, hspells, hput⟩ := h (by omega)
  obtain ⟨fields', hspells', hput'⟩ := h' (by omega)
  refine ⟨fields ++ fields', hspells.append hspells', ?_⟩
  rw [putAll_append, hput]
  exact hput'

/-- A written integer brings the value into which it is put. -/
theorem integer {put : Put α} {n : Nat} (hnumber : IsNumber number) (hn : n < 2 ^ 64)
    (hknown : known number = some put) (hput : put start (.varint n) = some final) :
    Carries known start (writeInteger number n) final :=
  fun _ => ⟨_, spells_writeInteger hnumber hn, by simp [putAll, hknown, hput]⟩

/-- Written bytes bring the value into which they are put. -/
theorem delimited {put : Put α} (hnumber : IsNumber number) (hknown : known number = some put)
    (hput : bytes.length < 2 ^ 64 → put start (.delimited bytes) = some final) :
    Carries known start (writeDelimited number bytes) final := by
  intro hlength
  have hbytes := (length_lt_writeDelimited number bytes).trans hlength
  exact ⟨_, spells_writeDelimited hnumber hbytes, by simp [putAll, hknown, hput hbytes]⟩

/-! ### Members that may be left out -/

section Optional

/-- An optional member is carried if it is carried whenever it is set. -/
theorem optional (set : α → Option β → α) {write : Option β → Bytes} {v : Option β}
    (hnone : write none = []) (hblank : set start none = start)
    (hsome : ∀ w, v = some w → Carries known start (write (some w)) (set start (some w))) :
    Carries known start (write v) (set start v) := by
  cases v with
  | none => rw [hnone, hblank]; exact nil
  | some w => exact hsome w rfl

/-- The wire form of an optional text carries the text. -/
theorem text? (set : α → Option String → α) {add : α → String → α} {v : Option String}
    (hknown : known number = some (putScalar Value.text? add))
    (hset : ∀ w, add start w = set start (some w))
    (hblank : set start none = start) (hnumber : IsNumber number) :
    Carries known start (writeText? number v) (set start v) :=
  optional set rfl hblank fun w _ => delimited hnumber hknown fun _ => by
    simp [putScalar, Value.text?, hset]

/-- The wire form of an optional truth value carries the truth value. -/
theorem bool? (set : α → Option Bool → α) {add : α → Bool → α} {v : Option Bool}
    (hknown : known number = some (putScalar Value.bool? add))
    (hset : ∀ w, add start w = set start (some w))
    (hblank : set start none = start) (hnumber : IsNumber number) :
    Carries known start (writeBool? number v) (set start v) :=
  optional set rfl hblank fun w _ => integer hnumber (by split <;> decide) hknown (by
    cases w <;> simp [putScalar, Value.bool?, boolOf, hset])

/-- The wire form of an optional integer carries the integer. -/
theorem int32? (set : α → Option Int32 → α) {add : α → Int32 → α} {v : Option Int32}
    (hknown : known number = some (putScalar Value.int32? add))
    (hset : ∀ w, add start w = set start (some w))
    (hblank : set start none = start) (hnumber : IsNumber number) :
    Carries known start (writeInt32? number v) (set start v) :=
  optional set rfl hblank fun w _ => integer hnumber (wireInteger_lt w) hknown (by
    simp [putScalar, Value.int32?, hset])

end Optional

/-! ### Members with a default -/

/-- The wire form of a text, which is left out when it is empty, carries the text. -/
theorem text (set : α → String → α) {add : α → String → α} {v : String}
    (hknown : known number = some (putScalar Value.text? add))
    (hset : ∀ w, add start w = set start w)
    (hblank : set start "" = start) (hnumber : IsNumber number) :
    Carries known start (writeText number v) (set start v) := by
  unfold writeText
  split
  · rename_i hempty
    rw [String.isEmpty_iff.1 hempty, hblank]
    exact nil
  · exact delimited hnumber hknown fun _ => by simp [putScalar, Value.text?, hset]

/-- The wire form of an integer, which is left out when it is zero, carries the integer. -/
theorem int32 (set : α → Int32 → α) {add : α → Int32 → α} {v : Int32}
    (hknown : known number = some (putScalar Value.int32? add))
    (hset : ∀ w, add start w = set start w)
    (hblank : set start 0 = start) (hnumber : IsNumber number) :
    Carries known start (writeInt32 number v) (set start v) := by
  unfold writeInt32
  split
  · rename_i hzero
    rw [hzero, hblank]
    exact nil
  · exact integer hnumber (wireInteger_lt v) hknown (by simp [putScalar, Value.int32?, hset])

/-! ### Members that repeat -/

section Repeated

/-- The wire forms of elements carry the list of them, if each carries its element behind those
before. -/
theorem repeated (set : α → List β → α) {write : β → Bytes} {vs : List β}
    (hblank : set start [] = start)
    (hone : ∀ before, ∀ v ∈ vs,
      Carries known (set start before) (write v) (set start (before ++ [v]))) :
    Carries known start (vs.flatMap write) (set start vs) := by
  -- the induction is over the elements still to come, so those already put are general
  suffices h : ∀ rest before, (∀ v ∈ rest, v ∈ vs) →
      Carries known (set start before) (rest.flatMap write) (set start (before ++ rest)) by
    simpa [hblank] using h vs [] fun _ hv => hv
  intro rest
  induction rest with
  | nil => intro before _; simpa using nil
  | cons v rest ih =>
    intro before hmem
    have hrest := ih (before ++ [v]) fun w hw => hmem w (by simp [hw])
    rw [List.append_assoc, List.singleton_append] at hrest
    rw [List.flatMap_cons]
    exact (hone before v (hmem v (by simp))).append hrest

/-- The wire form of texts, one field each, carries the list of them. -/
theorem texts (set : α → List String → α) {add : α → String → α} {vs : List String}
    (hknown : known number = some (putScalar Value.text? add))
    (hset : ∀ before v, add (set start before) v = set start (before ++ [v]))
    (hblank : set start [] = start) (hnumber : IsNumber number) :
    Carries known start (vs.flatMap fun v => writeDelimited number (Text.toBytes v))
      (set start vs) :=
  repeated set hblank fun before v _ => delimited hnumber hknown fun _ => by
    simp [putScalar, Value.text?, hset]

section Integers

variable (set : α → List Int32 → α) {add : α → List Int32 → α} {vs : List Int32}

/-- The wire form of integers, one field each, carries the list of them. -/
theorem int32s (hknown : known number = some (putScalar Value.int32s? add))
    (hset : ∀ before ws, add (set start before) ws = set start (before ++ ws))
    (hblank : set start [] = start) (hnumber : IsNumber number) :
    Carries known start (writeInt32s number vs) (set start vs) :=
  repeated set hblank fun before v _ => integer hnumber (wireInteger_lt v) hknown (by
    simp [putScalar, Value.int32s?, hset])

/-- The wire form of integers behind one length carries the list of them. -/
theorem packed (hknown : known number = some (putScalar Value.int32s? add))
    (hset : ∀ ws, add start ws = set start ws) (hblank : set start [] = start)
    (hnumber : IsNumber number) :
    Carries known start (writePacked number vs) (set start vs) := by
  unfold writePacked
  split
  · rename_i hempty
    rw [List.isEmpty_iff.1 hempty, hblank]
    exact nil
  · exact delimited hnumber hknown fun _ => by
      simp [putScalar, Value.int32s?, readIntegers_wireIntegers, hset, Function.comp_def]

end Integers

end Repeated

end Carries

/-! ## Messages inside messages -/

/-- How many levels an optional message adds to the one that holds it. -/
def depthOf? (depth : α → Nat) : Option α → Nat
  | none => 0
  | some value => depth value + 1

/-- How many levels messages add to the one that holds them. -/
def depthOfAll (depth : α → Nat) : List α → Nat
  | [] => 0
  | value :: rest => max (depth value + 1) (depthOfAll depth rest)

/-- A message adds no more levels than all of them. -/
theorem lt_depthOfAll {depth : α → Nat} {values : List α} {value : α} (h : value ∈ values) :
    depth value < depthOfAll depth values := by
  induction values with
  | nil => simp at h
  | cons first rest ih =>
    simp only [depthOfAll]
    rcases List.mem_cons.1 h with rfl | h
    · omega
    · have := ih h
      omega

/-- The levels of messages in a row are those of either part. -/
theorem depthOfAll_append (depth : α → Nat) (values values' : List α) :
    depthOfAll depth (values ++ values') = max (depthOfAll depth values)
      (depthOfAll depth values') := by
  induction values with
  | nil => simp [depthOfAll]
  | cons value rest ih => simp only [List.cons_append, depthOfAll, ih]; omega

/-- A value is read back from what is written, given a level for every level of messages inside
it. -/
def ReadsBack (known : Nat → Nat → Option (Put α)) (write : α → Bytes) (depth : α → Nat)
    [Inhabited α] (value : α) : Prop :=
  ∀ levels, depth value ≤ levels → Carries (known levels) default (write value) value

section Nested

variable [Inhabited β] {inner : Nat → Nat → Option (Put β)} {write : β → Bytes}
  {depth : β → Nat}
  {levels : Nat} {start : α}

/-- A message is read one level further down. -/
theorem ReadsBack.mergeBelow {value : β} (h : ReadsBack inner write depth value)
    (hdepth : depth value < levels) (hlength : (write value).length < 2 ^ 64) :
    Wire.mergeBelow levels inner default (write value) = some value := by
  cases levels with
  | zero => omega
  | succ below => exact (h below (by omega)).mergeAt hlength below

namespace Carries

/-- The wire form of an optional message carries the message. -/
theorem message? (set : α → Option β → α) {get : α → Option β}
    {put : α → Option β → α} {v : Option β} (hread : ∀ w, ReadsBack inner write depth w)
    (hdepth : depthOf? depth v ≤ levels)
    (hknown : known number = some (putMessage levels inner get put)) (hget : get start = none)
    (hset : ∀ w, put start (some w) = set start (some w))
    (hblank : set start none = start) (hnumber : IsNumber number) :
    Carries known start (writeMessage? number write v) (set start v) :=
  optional set rfl hblank fun w hw => delimited hnumber hknown fun hlength => by
    subst hw
    simp [putMessage, Value.message?, hget, hset, (hread w).mergeBelow hdepth hlength]

/-- The wire form of messages, one field each, carries the list of them. -/
theorem messages (set : α → List β → α) {add : α → β → α} {vs : List β}
    (hread : ∀ v ∈ vs, ReadsBack inner write depth v) (hdepth : depthOfAll depth vs ≤ levels)
    (hknown : known number = some (addMessage levels inner add))
    (hset : ∀ before v, add (set start before) v = set start (before ++ [v]))
    (hblank : set start [] = start) (hnumber : IsNumber number) :
    Carries known start (writeMessages number write vs) (set start vs) :=
  repeated set hblank fun before v hv => delimited hnumber hknown fun hlength => by
    have hbelow := (hread v hv).mergeBelow ((lt_depthOfAll hv).trans_le hdepth) hlength
    simp [addMessage, Value.message?, hbelow, hset]

end Carries

end Nested

end ApiModel.Descriptor
