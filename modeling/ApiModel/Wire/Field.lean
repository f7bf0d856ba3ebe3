import ApiModel.Wire.Varint

/-!
# Fields on the wire

A message on the wire is a sequence of fields, each with a number and a value in one of a few forms.
The number and the form stand together in a key. Groups, an old form, are read only to be skipped,
and nest at most as deep as the given levels.
-/

namespace ApiModel.Wire

/-- The value of a field on the wire. -/
inductive Value where
  /-- An integer of variable length. -/
  | varint (n : Nat)
  /-- Eight bytes. -/
  | eightBytes (bytes : Bytes)
  /-- Bytes behind their length. -/
  | delimited (bytes : Bytes)
  /-- A group, without its contents. -/
  | group
  /-- Four bytes. -/
  | fourBytes (bytes : Bytes)
deriving DecidableEq, Repr

/-- A field on the wire. -/
structure Field where
  /-- The number. -/
  number : Nat
  /-- The value. -/
  value : Value
deriving DecidableEq, Repr

/-- The key before a field: its number and the form of its value. -/
structure Key where
  /-- The number of the field. -/
  number : Nat
  /-- The form of its value, below eight. -/
  form : Nat
deriving DecidableEq, Repr

/-- Reads a key, of which the number is not zero and the whole is below `2 ^ 32`. -/
def readKey (bytes : Bytes) : Option (Key × Bytes) :=
  match readVarint bytes with
  | none => none
  | some (key, rest) =>
    if key < Nat.pow 2 32 ∧ 0 < key / 8 then some (⟨key / 8, key % 8⟩, rest) else none

/-- Takes a count of bytes from the front. -/
def takeBytes (count : Nat) (bytes : Bytes) : Option (Bytes × Bytes) :=
  if count ≤ bytes.length then some (bytes.splitAt count) else none

/-- Reads bytes behind their length. -/
def readDelimited (bytes : Bytes) : Option (Bytes × Bytes) :=
  match readVarint bytes with
  | none => none
  | some (count, rest) => takeBytes count rest

/-- Reads a value that is no group. -/
def readPlain (form : Nat) (bytes : Bytes) : Option (Value × Bytes) :=
  match form with
  | 0 => (readVarint bytes).map fun (n, rest) => (.varint n, rest)
  | 1 => (takeBytes 8 bytes).map fun (value, rest) => (.eightBytes value, rest)
  | 2 => (readDelimited bytes).map fun (value, rest) => (.delimited value, rest)
  | 5 => (takeBytes 4 bytes).map fun (value, rest) => (.fourBytes value, rest)
  | _ => none

/-- Reading a key consumes at least one byte. -/
theorem length_lt_of_readKey {key : Key} {bytes rest : Bytes}
    (h : readKey bytes = some (key, rest)) : rest.length < bytes.length := by
  unfold readKey at h
  split at h
  · simp at h
  · rename_i n tail hread
    split at h
    · simp only [Option.some.injEq, Prod.mk.injEq] at h
      exact h.2 ▸ length_lt_of_readVarint hread
    · simp at h

/-- What is left after taking bytes is no longer. -/
theorem length_le_of_takeBytes {count : Nat} {bytes value rest : Bytes}
    (h : takeBytes count bytes = some (value, rest)) : rest.length ≤ bytes.length := by
  unfold takeBytes at h
  split at h
  · simp only [List.splitAt_eq, Option.some.injEq, Prod.mk.injEq] at h
    simp [← h.2]
  · simp at h

/-- Reading a value leaves no more bytes than there were. -/
theorem length_le_of_readPlain {form : Nat} {value : Value} {bytes rest : Bytes}
    (h : readPlain form bytes = some (value, rest)) : rest.length ≤ bytes.length := by
  unfold readPlain at h
  split at h
  · obtain ⟨⟨n, tail⟩, hread, heq⟩ := Option.map_eq_some_iff.1 h
    simp only [Prod.mk.injEq] at heq
    exact heq.2 ▸ Nat.le_of_lt (length_lt_of_readVarint hread)
  · obtain ⟨⟨v, tail⟩, hread, heq⟩ := Option.map_eq_some_iff.1 h
    simp only [Prod.mk.injEq] at heq
    exact heq.2 ▸ length_le_of_takeBytes hread
  · obtain ⟨⟨v, tail⟩, hread, heq⟩ := Option.map_eq_some_iff.1 h
    simp only [Prod.mk.injEq] at heq
    unfold readDelimited at hread
    split at hread
    · simp at hread
    · rename_i count after hvarint
      exact heq.2 ▸ Nat.le_trans (length_le_of_takeBytes hread)
        (Nat.le_of_lt (length_lt_of_readVarint hvarint))
  · obtain ⟨⟨v, tail⟩, hread, heq⟩ := Option.map_eq_some_iff.1 h
    simp only [Prod.mk.injEq] at heq
    exact heq.2 ▸ length_le_of_takeBytes hread
  · simp at h

/-- Skips to the end of the outermost of the open groups, whose numbers are given innermost
first. -/
def skipGroups (levels : Nat) (opened : List Nat) (bytes : Bytes) : Option Bytes :=
  match opened with
  | [] => some bytes
  | innermost :: outer =>
    match _hkey : readKey bytes with
    | none => none
    | some (key, rest) =>
      if key.form = 4 then
        if key.number = innermost then skipGroups levels outer rest else none
      else if levels ≤ opened.length then none
      else if key.form = 3 then skipGroups levels (key.number :: opened) rest
      else
        match _hvalue : readPlain key.form rest with
        | none => none
        | some (_, after) => skipGroups levels opened after
termination_by bytes.length
decreasing_by
  · exact length_lt_of_readKey _hkey
  · exact length_lt_of_readKey _hkey
  · exact Nat.lt_of_le_of_lt (length_le_of_readPlain _hvalue) (length_lt_of_readKey _hkey)

/-- Skipping groups leaves no more bytes than there were. -/
theorem length_le_of_skipGroups {levels : Nat} {opened : List Nat} {bytes rest : Bytes}
    (h : skipGroups levels opened bytes = some rest) : rest.length ≤ bytes.length := by
  induction hsize : bytes.length using Nat.strongRecOn generalizing opened bytes with
  | ind size ih =>
    subst hsize
    unfold skipGroups at h
    split at h
    · simp_all
    · split at h
      · simp at h
      · rename_i innermost outer _ key tail hkey
        have shorter := length_lt_of_readKey hkey
        have step {opened : List Nat} {after : Bytes} (hle : after.length ≤ tail.length)
            (h : skipGroups levels opened after = some rest) : rest.length ≤ bytes.length :=
          Nat.le_trans (ih after.length (Nat.lt_of_le_of_lt hle shorter) h rfl)
            (Nat.le_trans hle (Nat.le_of_lt shorter))
        split at h
        · split at h
          · exact step (Nat.le_refl _) h
          · simp at h
        · split at h
          · simp at h
          · split at h
            · exact step (Nat.le_refl _) h
            · split at h
              · simp at h
              · rename_i value after hvalue
                exact step (length_le_of_readPlain hvalue) h

/-- Reads the fields of a message; groups nest at most as deep as the levels allow. -/
def readFields (levels : Nat) (bytes : Bytes) : Option (List Field) :=
  if bytes.isEmpty then some []
  else
    match _hkey : readKey bytes with
    | none => none
    | some (key, rest) =>
      if key.form = 3 then
        if levels = 0 then none
        else
          match _hskip : skipGroups levels [key.number] rest with
          | none => none
          | some after =>
            (readFields levels after).map (⟨key.number, .group⟩ :: ·)
      else
        match _hvalue : readPlain key.form rest with
        | none => none
        | some (value, after) => (readFields levels after).map (⟨key.number, value⟩ :: ·)
termination_by bytes.length
decreasing_by
  · exact Nat.lt_of_le_of_lt (length_le_of_skipGroups _hskip) (length_lt_of_readKey _hkey)
  · exact Nat.lt_of_le_of_lt (length_le_of_readPlain _hvalue) (length_lt_of_readKey _hkey)

/-! ## Writing -/

/-- Writes a key. -/
def Key.write (key : Key) : Bytes :=
  writeVarint (key.number * 8 + key.form)

/-- Writes a field with an integer. -/
def writeInteger (number n : Nat) : Bytes :=
  Key.write ⟨number, 0⟩ ++ writeVarint n

/-- Writes a field with bytes behind their length. -/
def writeDelimited (number : Nat) (bytes : Bytes) : Bytes :=
  Key.write ⟨number, 2⟩ ++ writeVarint bytes.length ++ bytes

end ApiModel.Wire
