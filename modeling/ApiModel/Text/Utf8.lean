import ApiModel.Text.Basic

/-!
# Reading bytes as text

Bytes that are not well-formed UTF-8 still have a readable form, in which the replacement character
stands for every longest part that begins like a character and then breaks off. Where single bytes
matter, a text has one character for each byte instead. Main statement: no byte is lost there.
-/

namespace ApiModel.Text

/-- How a character of several bytes goes on behind its first byte. -/
structure Continuation where
  /-- How many bytes follow. -/
  count : Nat
  /-- The least second byte. -/
  least : UInt8 := 0x80
  /-- The greatest second byte. -/
  greatest : UInt8 := 0xBF
deriving DecidableEq, Repr

/-- How a character goes on behind a byte, if a character of several bytes may begin with it. -/
def continuation? (first : UInt8) : Option Continuation :=
  if 0xC2 ≤ first ∧ first ≤ 0xDF then some ⟨1, 0x80, 0xBF⟩
  else if first = 0xE0 then some ⟨2, 0xA0, 0xBF⟩
  else if first = 0xED then some ⟨2, 0x80, 0x9F⟩
  else if 0xE1 ≤ first ∧ first ≤ 0xEF then some ⟨2, 0x80, 0xBF⟩
  else if first = 0xF0 then some ⟨3, 0x90, 0xBF⟩
  else if 0xF1 ≤ first ∧ first ≤ 0xF3 then some ⟨3, 0x80, 0xBF⟩
  else if first = 0xF4 then some ⟨3, 0x80, 0x8F⟩
  else none

/-- The bytes behind the first that still fit its character. -/
def Continuation.fitting (c : Continuation) (rest : Bytes) : Bytes :=
  match rest.take c.count with
  | [] => []
  | second :: others =>
    if c.least ≤ second ∧ second ≤ c.greatest then
      second :: others.takeWhile fun byte => 0x80 ≤ byte ∧ byte ≤ 0xBF
    else []

/-- The character that a first byte and the bytes behind it stand for. -/
def characterOf (first : UInt8) (following : Bytes) : Char :=
  let high := first.toNat % Nat.pow 2 (6 - following.length)
  Char.ofNat (following.foldl (fun code byte => code * 64 + byte.toNat % 64) high)

/-- The characters of bytes; the replacement character stands for what is no character. -/
def decoded : Bytes → List Char
  | [] => []
  | first :: rest =>
    if first < 0x80 then Char.ofNat first.toNat :: decoded rest
    else
      match continuation? first with
      | none => '\ufffd' :: decoded rest
      | some c =>
        let following := c.fitting rest
        let character := if following.length = c.count then characterOf first following
          else '\ufffd'
        character :: decoded (rest.drop following.length)
termination_by bytes => bytes.length
decreasing_by
  all_goals
    simp only [List.length_cons, List.length_drop]
    omega

/-- The readable form of bytes. -/
def ofBytes (bytes : Bytes) : String :=
  String.ofList (decoded bytes)

/-- One character for each byte. -/
def spread (bytes : Bytes) : String :=
  String.ofList (bytes.map fun byte => Char.ofNat byte.toNat)

/-- The bytes for which the characters of a text stand. -/
def gather (text : String) : Bytes :=
  text.toList.map fun c => UInt8.ofNat c.toNat

/-- Spreading bytes to characters and gathering them again gives the bytes. -/
theorem gather_spread (bytes : Bytes) : gather (spread bytes) = bytes := by
  have toNat_ofNat (byte : UInt8) : (Char.ofNat byte.toNat).toNat = byte.toNat := by
    have : byte.toNat < 256 := byte.toNat_lt
    have valid : byte.toNat.isValidChar := Or.inl (by omega)
    rw [Char.ofNat, dif_pos valid]
    rfl
  simp [gather, spread, Function.comp_def, toNat_ofNat]

end ApiModel.Text
