import ApiModel.Text.Decimal

/-!
# Plain scalars that are no texts

Which texts a reader of plain scalars would take for an empty value, a truth value or a number. When
they are written as texts they need quotes.
-/

namespace ApiModel.Yaml

/-- Whether a text reads as no value. -/
def readsAsNull (text : String) : Bool :=
  ["", "null", "Null", "NULL", "~"].contains text

/-- Whether a text reads as a truth value. -/
def readsAsBool (text : String) : Bool :=
  ["true", "True", "TRUE", "false", "False", "FALSE"].contains text

/-- The characters behind a sign, if there is one. -/
def behindSign : List Char → List Char
  | '+' :: rest => rest
  | '-' :: rest => rest
  | cs => cs

/-- Whether a text has only digits, and a zero before others. -/
def hasLeadingZero (cs : List Char) : Bool :=
  match behindSign cs with
  | '0' :: c :: rest => (c :: rest).all Char.isDigit
  | _ => false

/-- The value of a digit in bases up to sixteen. -/
def digitValue (c : Char) : Nat :=
  if c.isDigit then c.toNat - '0'.toNat
  else if 'a' ≤ c && c ≤ 'f' then c.toNat - 'a'.toNat + 10
  else if 'A' ≤ c && c ≤ 'F' then c.toNat - 'A'.toNat + 10
  else 16

/-- The number that digits make in a base, if they are digits of it. -/
def numberIn? (base : Nat) (digits : List Char) : Option Nat :=
  if digits.isEmpty || digits.any (fun c => base ≤ digitValue c) then none
  else some (digits.foldl (fun n c => n * base + digitValue c) 0)

/-- The number that stands behind the mark of its base, if there is one. -/
def markedNumber? : List Char → Option Nat
  | '0' :: 'x' :: digits => numberIn? 16 digits
  | '0' :: 'o' :: digits => numberIn? 8 digits
  | '0' :: 'b' :: digits => numberIn? 2 digits
  | _ => none

/-- Whether a text reads as a whole number with the mark of its base, of up to 128 bits. -/
def readsAsMarked : List Char → Bool
  | '-' :: rest => (markedNumber? rest).any fun n => n ≤ Nat.pow 2 127
  | '+' :: rest => (markedNumber? rest).any fun n => n < Nat.pow 2 128
  | cs => (markedNumber? cs).any fun n => n < Nat.pow 2 128

/-- The exponent behind the letter for it; none is zero. -/
def exponentOf? : List Char → Option Int
  | [] => some 0
  | _ :: rest =>
    let digits := behindSign rest
    if digits.isEmpty || !digits.all Char.isDigit then none
    else
      let size : Int := Text.decimalValue digits
      some (if rest.head? == some '-' then -size else size)

/-- Whether digits with at most one point between them, and an exponent, are a finite number. -/
def readsAsDecimal (cs : List Char) : Bool :=
  let (mantissa, rest) := cs.span fun c => c != 'e' && c != 'E'
  let (whole, fraction) := (Text.splitFirst? '.' mantissa).getD (mantissa, [])
  match exponentOf? rest with
  | none => false
  | some exponent =>
    let digits := whole ++ fraction
    !digits.isEmpty && digits.all Char.isDigit
      && Text.isFinite (Text.decimalValue digits) (exponent - fraction.length)

/-- Whether a text reads as a number with a point or an exponent, as infinity or as no number. -/
def readsAsFloat (text : String) : Bool :=
  let cs := text.toList
  [".inf", ".Inf", ".INF", "+.inf", "+.Inf", "+.INF", "-.inf", "-.Inf", "-.INF", ".nan", ".NaN",
    ".NAN"].contains text || readsAsDecimal (behindSign cs)

/-- Whether a text, written plainly, would not be read as a text by every reader. -/
def readsAsOther (text : String) : Bool :=
  readsAsNull text || readsAsBool text || readsAsMarked text.toList || hasLeadingZero text.toList
    || readsAsFloat text

end ApiModel.Yaml
