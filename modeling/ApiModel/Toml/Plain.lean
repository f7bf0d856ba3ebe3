import ApiModel.Text.Decimal
import ApiModel.Toml.Quote

/-!
# Plain scalars

Numbers, truth values, dates and times. No setting takes one, so only their form and range are told.
-/

namespace ApiModel.Toml

/-- Whether digits are there, and underscores only between them. -/
def areDigits (isDigit : Char → Bool) (cs : List Char) : Bool :=
  (Text.pieces (· == '_') cs).all fun group => !group.isEmpty && group.all isDigit

/-- The characters without their sign. -/
def unsigned : List Char → List Char
  | '+' :: rest => rest
  | '-' :: rest => rest
  | cs => cs

/-- The value of digits in a base, underscores passed over. -/
def digitsValue (base : Nat) (cs : List Char) : Nat :=
  (cs.filterMap hexDigit?).foldl (fun n d => n * base + d) 0

/-- Whether the whole part of a decimal number is well formed: digits, and no zero before others. -/
def isWhole (cs : List Char) : Bool :=
  areDigits Char.isDigit cs && (cs.head? != some '0' || cs.length == 1)

/-- Whether a whole number fits in 128 bits. -/
def fits (negative : Bool) (size : Nat) : Bool :=
  if negative then size ≤ Nat.pow 2 127 else size < Nat.pow 2 128

/-- Whether a whole number is in range, or none if it is malformed. -/
def integer? : List Char → Option Bool
  | '0' :: 'x' :: digits =>
    if areDigits (fun c => (hexDigit? c).isSome) digits
      then some (fits false (digitsValue 16 digits))
    else none
  | '0' :: 'o' :: digits =>
    if areDigits (fun c => '0' ≤ c && c ≤ '7') digits
      then some (fits false (digitsValue 8 digits))
    else none
  | '0' :: 'b' :: digits =>
    if areDigits (fun c => c == '0' || c == '1') digits
      then some (fits false (digitsValue 2 digits))
    else none
  | cs =>
    let digits := unsigned cs
    if isWhole digits then some (fits (cs.head? == some '-') (digitsValue 10 digits)) else none

/-- The exponent behind its letter. -/
def exponent? (cs : List Char) : Option Int :=
  let digits := unsigned cs
  if areDigits Char.isDigit digits then
    let size : Int := digitsValue 10 digits
    some (if cs.head? == some '-' then -size else size)
  else none

/-- Whether a number with a fraction or an exponent is in range, or none if it is malformed. -/
def float? (cs : List Char) : Option Bool := do
  let body := unsigned cs
  if body == "inf".toList || body == "nan".toList then some true
  else
    let (mantissa, exponent, hasExponent) ←
      match body.span fun c => c != 'e' && c != 'E' with
      | (mantissa, _ :: digits) => (exponent? digits).map fun exponent => (mantissa, exponent, true)
      | (mantissa, []) => some (mantissa, 0, false)
    match Text.splitFirst? '.' mantissa with
    | some (whole, fraction) =>
      if isWhole whole && areDigits Char.isDigit fraction then
        let places := (fraction.filter Char.isDigit).length
        some (Text.isFinite (digitsValue 10 (whole ++ fraction)) (exponent - places))
      else none
    | none =>
      if hasExponent && isWhole mantissa
        then some (Text.isFinite (digitsValue 10 mantissa) exponent)
      else none

/-! ## Dates and times -/

/-- The number of so many digits at the beginning. -/
def fixedDigits? (count : Nat) (cs : List Char) : Option (Parsed Nat) :=
  let digits := cs.take count
  if digits.length == count && digits.all Char.isDigit then
    some ⟨digitsValue 10 digits, cs.drop count⟩
  else none

/-- The last day of a month. -/
def lastDay (year month : Nat) : Nat :=
  if month == 2 then
    if year % 4 == 0 && (year % 100 != 0 || year % 400 == 0) then 29 else 28
  else if month == 4 || month == 6 || month == 9 || month == 11 then 30
  else 31

/-- The characters behind a date. -/
def afterDate? (cs : List Char) : Option (List Char) := do
  let year ← fixedDigits? 4 cs
  let '-' :: rest := year.rest | none
  let month ← fixedDigits? 2 rest
  let '-' :: rest := month.rest | none
  let day ← fixedDigits? 2 rest
  if 1 ≤ month.value && month.value ≤ 12 && 1 ≤ day.value
      && day.value ≤ lastDay year.value month.value then
    some day.rest
  else none

/-- The characters behind an hour and a minute. -/
def afterClock? (cs : List Char) : Option (List Char) := do
  let hour ← fixedDigits? 2 cs
  let ':' :: rest := hour.rest | none
  let minute ← fixedDigits? 2 rest
  if hour.value ≤ 23 && minute.value ≤ 59 then some minute.rest else none

/-- The characters behind a time; seconds and their fraction may be missing. -/
def afterTime? (cs : List Char) : Option (List Char) := do
  match ← afterClock? cs with
  | ':' :: rest =>
    let second ← fixedDigits? 2 rest
    if 60 < second.value then none
    else
      match second.rest with
      | '.' :: fraction =>
        let digits := fraction.takeWhile Char.isDigit
        if digits.isEmpty then none else some (fraction.drop digits.length)
      | rest => some rest
  | rest => some rest

/-- Whether the characters are an offset from universal time, or nothing. -/
def isOffset : List Char → Bool
  | [] => true
  | ['Z'] => true
  | ['z'] => true
  | '+' :: rest => afterClock? rest == some []
  | '-' :: rest => afterClock? rest == some []
  | _ => false

/-- Whether the characters are a date, a time, or both. -/
def isMoment (cs : List Char) : Bool :=
  match afterDate? cs with
  | some [] => true
  | some (mark :: rest) =>
    (mark == 'T' || mark == 't' || mark == ' ') && (afterTime? rest).any isOffset
  | none => afterTime? cs == some []

/-! ## Scalars -/

/-- Whether a character may stand in a plain scalar. -/
def isPlainScalar (c : Char) : Bool :=
  c.isAlphanum || c == '_' || c == '+' || c == '-' || c == '.' || c == ':'

/-- The characters of a plain scalar; a space between a date and a time belongs to it. -/
def plainScalarText (input : List Char) : List Char :=
  let first := input.takeWhile isPlainScalar
  match afterDate? first, input.drop first.length with
  | some [], ' ' :: c :: rest =>
    if c.isDigit then first ++ ' ' :: (c :: rest).takeWhile isPlainScalar else first
  | _, _ => first

/-- Reads a plain scalar. -/
def plainScalar? (input : List Char) : Option (Parsed Item) :=
  let cs := plainScalarText input
  let rest := input.drop cs.length
  if cs == "true".toList || cs == "false".toList || isMoment cs then some ⟨.scalar true, rest⟩
  else (integer? cs <|> float? cs).map fun inRange => ⟨.scalar inRange, rest⟩

end ApiModel.Toml
