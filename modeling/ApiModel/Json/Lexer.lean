import ApiModel.Json.Value

/-!
# JSON tokens

Reading tokens out of the bytes of a document. Texts may not hold control characters, escapes have
to be among the known ones, and numbers have the usual form; whether a text has characters and a
number is in range is noted in the token.
-/

namespace ApiModel.Json

/-- Whether a byte is white space. -/
def isSpace (b : UInt8) : Bool :=
  b == 0x20 || b == 0x0A || b == 0x0D || b == 0x09

/-- Whether a byte is a decimal digit. -/
def isDigit (b : UInt8) : Bool :=
  0x30 ≤ b && b ≤ 0x39

/-- The value of a hexadecimal digit. -/
def hexValue? (b : UInt8) : Option Nat :=
  if isDigit b then some (b.toNat - 0x30)
  else if 0x41 ≤ b ∧ b ≤ 0x46 then some (b.toNat - 0x41 + 10)
  else if 0x61 ≤ b ∧ b ≤ 0x66 then some (b.toNat - 0x61 + 10)
  else none

/-! ## Texts -/

/-- A part of a text: a byte as it stands, or a 16-bit unit that was escaped. -/
inductive TextPart where
  /-- A byte. -/
  | byte (b : UInt8)
  /-- A 16-bit unit. -/
  | unit (n : Nat)
deriving DecidableEq, Repr

/-- The bytes of a character. -/
def charBytes (code : Nat) : Bytes :=
  Text.toBytes (String.singleton (Char.ofNat code))

/-- The bytes of a text, latest first, put before those of the parts that are left; a surrogate
needs its partner next to it. -/
def partBytes (done : List UInt8) : List TextPart → Option Bytes
  | [] => some done.reverse
  | .byte b :: rest => partBytes (b :: done) rest
  | .unit high :: .unit low :: rest =>
    if 0xD800 ≤ high ∧ high < 0xDC00 then
      if 0xDC00 ≤ low ∧ low < 0xE000 then
        partBytes
          ((charBytes (0x10000 + (high - 0xD800) * 0x400 + (low - 0xDC00))).reverse ++ done) rest
      else none
    else if 0xDC00 ≤ high ∧ high < 0xE000 then none
    else partBytes ((charBytes high).reverse ++ done) (.unit low :: rest)
  | .unit n :: rest =>
    if 0xD800 ≤ n ∧ n < 0xE000 then none
    else partBytes ((charBytes n).reverse ++ done) rest

/-- The text of its parts, if they are characters. -/
def textOfParts (parts : List TextPart) : Option String :=
  (partBytes [] parts).bind Text.ofBytes?

/-- The byte that a letter behind a backslash stands for. -/
def escapedByte? (b : UInt8) : Option UInt8 :=
  if b == 0x22 || b == 0x5C || b == 0x2F then some b
  else if b == 0x62 then some 0x08
  else if b == 0x66 then some 0x0C
  else if b == 0x6E then some 0x0A
  else if b == 0x72 then some 0x0D
  else if b == 0x74 then some 0x09
  else none

/-- Reads a text behind its opening quote; the parts are latest first. -/
def readText (parts : List TextPart) : Bytes → Option (List TextPart × Bytes)
  | [] => none
  | 0x22 :: rest => some (parts.reverse, rest)
  | 0x5C :: 0x75 :: a :: b :: c :: d :: rest =>
    match hexValue? a, hexValue? b, hexValue? c, hexValue? d with
    | some a, some b, some c, some d =>
      readText (.unit (((a * 16 + b) * 16 + c) * 16 + d) :: parts) rest
    | _, _, _, _ => none
  | 0x5C :: letter :: rest =>
    match escapedByte? letter with
    | some byte => readText (.byte byte :: parts) rest
    | none => none
  | byte :: rest =>
    if byte < 0x20 || byte == 0x5C then none else readText (.byte byte :: parts) rest

/-! ## Numbers -/

/-- The value of decimal digits. -/
def digitsValue (digits : Bytes) : Nat :=
  digits.foldl (fun n d => n * 10 + (d.toNat - 0x30)) 0

/-- A whole number that fits in 64 bits, and how many digits did not fit behind it. -/
structure Significand where
  /-- The number. -/
  value : Nat
  /-- How many digits went into it. -/
  taken : Nat

/-- Takes digits while the number fits in 64 bits. -/
def Significand.takeDigits (s : Significand) : Bytes → Significand
  | [] => s
  | d :: rest =>
    let next := s.value * 10 + (d.toNat - 0x30)
    if next < Nat.pow 2 64 then takeDigits ⟨next, s.taken + 1⟩ rest else s

/-- Whether a number is in the range of 64-bit floating point: its first digits, as far as they fit
in 64 bits, times a power of ten. -/
def inRange (significand : Nat) (exponent : Int) : Bool :=
  if significand = 0 ∨ exponent < 0 then true
  else if 308 < exponent then false
  else !(Float.ofNat significand * Float.ofScientific 1 false exponent.toNat).isInf

/-- Whether a number with the given digits is in range. -/
def numberInRange (whole fraction : Bytes) (exponent : Int) : Bool :=
  let first := Significand.takeDigits ⟨0, 0⟩ whole
  let dropped := whole.length - first.taken
  let all := Significand.takeDigits ⟨first.value, 0⟩ fraction
  inRange all.value (exponent + dropped - all.taken)

/-- The part of a number behind the letter of its exponent. -/
def readExponent (bytes : Bytes) : Option (Int × Bytes) :=
  let (negative, rest) : Bool × Bytes :=
    match bytes with
    | 0x2B :: rest => (false, rest)
    | 0x2D :: rest => (true, rest)
    | rest => (false, rest)
  let digits := rest.takeWhile isDigit
  if digits.isEmpty then none
  else
    let size : Int := digitsValue digits
    some (if negative then -size else size, rest.drop digits.length)

/-- Reads a number behind its sign. -/
def readNumber (bytes : Bytes) : Option (Bool × Bytes) := do
  let whole := bytes.takeWhile isDigit
  let rest := bytes.drop whole.length
  if whole.isEmpty || (whole.head? == some 0x30 && 1 < whole.length) then none
  else
    let (fraction, rest) ←
      match rest with
      | 0x2E :: rest =>
        let digits := rest.takeWhile isDigit
        if digits.isEmpty then none else some (digits, rest.drop digits.length)
      | rest => some ([], rest)
    let (exponent, rest) ←
      match rest with
      | 0x65 :: rest => readExponent rest
      | 0x45 :: rest => readExponent rest
      | rest => some (0, rest)
    return (numberInRange whole fraction exponent, rest)

/-! ## Tokens -/

/-- Reads the token that begins with a byte. -/
def readToken (first : UInt8) (rest : Bytes) : Option (Token × Bytes) :=
  if first == 0x5B then some (.arrayStart, rest)
  else if first == 0x5D then some (.arrayEnd, rest)
  else if first == 0x7B then some (.objectStart, rest)
  else if first == 0x7D then some (.objectEnd, rest)
  else if first == 0x2C then some (.comma, rest)
  else if first == 0x3A then some (.colon, rest)
  else if first == 0x22 then
    (readText [] rest).map fun (parts, rest) => (.text (textOfParts parts), rest)
  else if first == 0x2D then (readNumber rest).map fun (finite, rest) => (.number finite, rest)
  else if isDigit first then
    (readNumber (first :: rest)).map fun (finite, rest) => (.number finite, rest)
  else if first == 0x6E then
    ((Text.toBytes "ull").isPrefixOf? rest).map fun rest => (.null, rest)
  else if first == 0x74 then
    ((Text.toBytes "rue").isPrefixOf? rest).map fun rest => (.bool true, rest)
  else if first == 0x66 then
    ((Text.toBytes "alse").isPrefixOf? rest).map fun rest => (.bool false, rest)
  else none

/-- Reads all tokens; every round takes at least one byte. -/
def readTokens : Nat → Array Token → Bytes → Option (Array Token)
  | 0, _, _ => none
  | fuel + 1, tokens, bytes =>
    match bytes.dropWhile isSpace with
    | [] => some tokens
    | first :: rest =>
      match readToken first rest with
      | none => none
      | some (token, rest) => readTokens fuel (tokens.push token) rest

/-- Reads the value of a document. -/
def Value.ofBytes? (bytes : Bytes) : Option Value :=
  (readTokens (bytes.length + 1) #[] bytes).bind fun tokens => Value.ofTokens? tokens.toList

end ApiModel.Json
