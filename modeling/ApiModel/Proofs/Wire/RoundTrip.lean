import ApiModel.Wire.Merge
import Mathlib.Algebra.Order.Ring.Int
import Mathlib.Data.List.Basic

/-!
# Reading back what was written

What the writers of integers, texts and fields put on the wire is read as the same integers, texts
and fields, whatever follows. `Spells bytes fields`: the bytes are read as these fields and what is
behind them is read next, so that fields in a row are read back one after the other. Lengths and
integers on the wire are below `2 ^ 64`.
-/

namespace ApiModel

/-! ## Texts -/

/-- The bytes of an array from a place on are those of the list from there on. -/
theorem Text.toList_loop (bytes : ByteArray) (i : Nat) (before : List UInt8) :
    ByteArray.toList.loop bytes i before = before.reverse ++ bytes.data.toList.drop i := by
  fun_induction ByteArray.toList.loop bytes i before with
  | case1 i before hi ih =>
    have hlength : i < bytes.data.toList.length := by simpa using hi
    have hget : bytes.get! i = bytes.data.toList[i] := getElem!_pos bytes.data i (by simpa using hi)
    rw [ih, hget, List.drop_eq_getElem_cons hlength, List.reverse_cons, List.append_assoc,
      List.singleton_append]
  | case2 i before hi =>
    have hlength : bytes.data.toList.length ≤ i := by simpa using hi
    rw [List.drop_eq_nil_of_le hlength, List.append_nil]

/-- A text is read back from its bytes. -/
@[simp]
theorem Text.ofBytes?_toBytes (text : String) : Text.ofBytes? (Text.toBytes text) = some text := by
  have harray : ByteArray.mk (Text.toBytes text).toArray = text.toUTF8 := by
    simp [Text.toBytes, ByteArray.toList, Text.toList_loop]
  simp only [Text.ofBytes?, harray, String.fromUTF8?, String.toUTF8_eq_toByteArray,
    dif_pos text.isValidUTF8]
  rfl

namespace Wire

/-! ## Integers -/

/-- A number is read back within a budget of bytes of which the last one holds a single bit. -/
theorem readVarintWithin_writeVarint (budget : Nat) {n : Nat} (hn : n < 2 * 128 ^ budget)
    (rest : Bytes) :
    readVarintWithin (budget + 1) (writeVarint n ++ rest) = some (n, rest) := by
  induction budget generalizing n with
  | zero =>
    have hsmall : n < 2 := by simpa using hn
    have hbyte : n.toUInt8.toNat = n := by simp; omega
    rw [writeVarint, if_pos (by omega), List.singleton_append, readVarintWithin, hbyte,
      if_pos (by omega), if_neg (by omega)]
  | succ budget ih =>
    rw [writeVarint]
    split
    · rename_i hlow
      have hbyte : n.toUInt8.toNat = n := by simp; omega
      rw [List.singleton_append, readVarintWithin, hbyte, if_pos hlow, if_neg (by omega)]
    · have hbyte : (n % 128 + 128).toUInt8.toNat = n % 128 + 128 := by simp; omega
      have hhigh : n / 128 < 2 * 128 ^ budget := by
        rw [Nat.pow_succ] at hn
        omega
      rw [List.cons_append, readVarintWithin, hbyte, if_neg (by omega), ih hhigh]
      simp only [Option.map_some, Option.some.injEq, Prod.mk.injEq, and_true]
      omega

/-- A number below `2 ^ 64` is read back. -/
theorem readVarint_writeVarint {n : Nat} (hn : n < 2 ^ 64) (rest : Bytes) :
    readVarint (writeVarint n ++ rest) = some (n, rest) :=
  readVarintWithin_writeVarint 9 (by omega) rest

/-- A number takes at least one byte. -/
theorem writeVarint_ne_nil (n : Nat) : writeVarint n ≠ [] := by
  rw [writeVarint]
  split <;> simp

/-- Numbers below `2 ^ 64` one behind the other are read back. -/
theorem readIntegers_flatMap {ns : List Nat} (hns : ∀ n ∈ ns, n < 2 ^ 64) :
    readIntegers (ns.flatMap writeVarint) = some ns := by
  induction ns with
  | nil => simp [readIntegers]
  | cons n rest ih =>
    have hread := readVarint_writeVarint (hns n (by simp)) (rest.flatMap writeVarint)
    rw [List.flatMap_cons, readIntegers, if_neg (by simp [writeVarint_ne_nil])]
    split
    · simp_all
    · rename_i n' rest' hread'
      rw [hread] at hread'
      obtain ⟨rfl, rfl⟩ : n = n' ∧ rest.flatMap writeVarint = rest' := by simpa using hread'
      rw [ih fun n hn => hns n (by simp [hn])]
      rfl

/-! ## Fields -/

/-- The numbers that a field may have on the wire. -/
def IsNumber (number : Nat) : Prop := 0 < number ∧ number < 2 ^ 29

instance (number : Nat) : Decidable (IsNumber number) := inferInstanceAs (Decidable (_ ∧ _))

/-- A key is read back. -/
theorem readKey_write {key : Key} (hnumber : IsNumber key.number) (hform : key.form < 8)
    (rest : Bytes) : readKey (key.write ++ rest) = some (key, rest) := by
  obtain ⟨hpos, hlt⟩ := hnumber
  have hkey : key.number * 8 + key.form < 2 ^ 32 := by omega
  have hdiv : (key.number * 8 + key.form) / 8 = key.number := by omega
  have hmod : (key.number * 8 + key.form) % 8 = key.form := by omega
  rw [readKey, Key.write, readVarint_writeVarint (by omega)]
  simp only [hdiv, hmod]
  rw [if_pos ⟨hkey, hpos⟩]

/-- Bytes behind their length are read back. -/
theorem readDelimited_write {bytes : Bytes} (hlength : bytes.length < 2 ^ 64) (rest : Bytes) :
    readDelimited (writeVarint bytes.length ++ bytes ++ rest) = some (bytes, rest) := by
  rw [readDelimited, List.append_assoc, readVarint_writeVarint hlength]
  simp [takeBytes]

/-- Bytes that are read as the given fields, whatever follows. -/
def Spells (bytes : Bytes) (fields : List Field) : Prop :=
  ∀ (levels : Nat) (rest : Bytes),
    readFields levels (bytes ++ rest) = (readFields levels rest).map (fields ++ ·)

/-- The empty sequence of bytes spells the empty list of fields. -/
theorem Spells.nil : Spells [] [] := by
  intro levels rest
  simp

/-- Bytes in a row spell their fields in a row. -/
theorem Spells.append {first second : Bytes} {fields fields' : List Field}
    (hfirst : Spells first fields) (hsecond : Spells second fields') :
    Spells (first ++ second) (fields ++ fields') := by
  intro levels rest
  rw [List.append_assoc, hfirst, hsecond, Option.map_map]
  simp [Function.comp_def]

/-- Fields that bytes spell are read from these bytes alone. -/
theorem Spells.readFields {bytes : Bytes} {fields : List Field} (h : Spells bytes fields)
    (levels : Nat) : readFields levels bytes = some fields := by
  have hend : Wire.readFields levels [] = some [] := by rw [Wire.readFields]; rfl
  simpa [hend] using h levels []

/-- A key and a value that is no group spell one field. -/
theorem spells_plain (key : Key) {value : Value} {bytes : Bytes} (hnumber : IsNumber key.number)
    (hform : key.form < 8) (hgroup : key.form ≠ 3)
    (hvalue : ∀ rest, readPlain key.form (bytes ++ rest) = some (value, rest)) :
    Spells (key.write ++ bytes) [⟨key.number, value⟩] := by
  intro levels rest
  have hkey := readKey_write hnumber hform (bytes ++ rest)
  rw [List.append_assoc, Wire.readFields, if_neg (by simp [Key.write, writeVarint_ne_nil])]
  split
  · simp_all
  · rename_i key' tail hkey'
    rw [hkey] at hkey'
    obtain ⟨rfl, rfl⟩ : key = key' ∧ bytes ++ rest = tail := by simpa using hkey'
    rw [if_neg hgroup]
    split
    · simp_all
    · rename_i value' after hvalue'
      rw [hvalue] at hvalue'
      obtain ⟨rfl, rfl⟩ : value = value' ∧ rest = after := by simpa using hvalue'
      rfl

/-- A written integer spells its field. -/
theorem spells_writeInteger {number n : Nat} (hnumber : IsNumber number) (hn : n < 2 ^ 64) :
    Spells (writeInteger number n) [⟨number, .varint n⟩] :=
  spells_plain ⟨number, 0⟩ hnumber (by simp) (by simp) fun rest => by
    rw [readPlain, readVarint_writeVarint hn]
    rfl

/-- Written bytes spell their field. -/
theorem spells_writeDelimited {number : Nat} {bytes : Bytes} (hnumber : IsNumber number)
    (hlength : bytes.length < 2 ^ 64) :
    Spells (writeDelimited number bytes) [⟨number, .delimited bytes⟩] := by
  rw [writeDelimited, List.append_assoc]
  refine spells_plain ⟨number, 2⟩ hnumber (by simp) (by simp) fun rest => ?_
  rw [readPlain, readDelimited_write hlength]
  rfl

/-- Written bytes are longer than the bytes. -/
theorem length_lt_writeDelimited (number : Nat) (bytes : Bytes) :
    bytes.length < (writeDelimited number bytes).length := by
  have := List.length_pos_of_ne_nil (writeVarint_ne_nil bytes.length)
  simp only [writeDelimited, List.length_append]
  omega

end Wire

end ApiModel
