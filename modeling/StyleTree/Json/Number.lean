import StyleTree.Json.Basic
import StyleTree.Text.Basic

/-!
# `StyleTree.Json.Number` — numbers of JSON

A number is a whole part with an optional minus sign, then possibly a fraction, then possibly an exponent
(`Json.numberParts?`). A reader that does not need the value of a number still computes it in double precision,
the fast way: it takes as many digits as fit a machine word and multiplies them by a power of ten, rounding
three times with `Json.roundToDouble`. A number stands for a value unless that computation overflows.
-/

namespace StyleTree.Json

/-! ## Parts -/

/-- The parts of a number but for its sign. -/
structure NumberParts where
  /-- The digits of the whole part. -/
  whole : List Char
  /-- The digits behind the point; none if there is no point. -/
  places : List Char
  /-- The power of ten that the number is multiplied by; zero if there is no exponent. -/
  exponent : Int
deriving DecidableEq, Repr

/-- The value of a nonempty run of digits. -/
def digits? (text : List Char) : Option Nat :=
  if !text.isEmpty && text.all Char.isDigit then some (Nat.ofDigitChars 10 text 0) else none

/-- The exponent that a text is; the empty text is none. -/
def exponent? : List Char → Option Int
  | [] => some 0
  | mark :: text =>
    if mark = 'e' ∨ mark = 'E' then
      match text with
      | '-' :: digits => (digits? digits).map fun n => -(n : Int)
      | '+' :: digits => (digits? digits).map Int.ofNat
      | digits => (digits? digits).map Int.ofNat
    else none

/-- The parts of a number without its sign. A zero may only lead if it is the whole part. -/
def unsignedParts? (text : List Char) : Option NumberParts :=
  let whole := text.takeWhile Char.isDigit
  if whole.isEmpty || (whole.head? == some '0' && whole != ['0']) then none
  else
    match text.dropWhile Char.isDigit with
    | '.' :: rest =>
      let places := rest.takeWhile Char.isDigit
      if places.isEmpty then none
      else (exponent? (rest.dropWhile Char.isDigit)).map fun e => ⟨whole, places, e⟩
    | rest => (exponent? rest).map fun e => ⟨whole, [], e⟩

/-- The parts of the number that a text is, if it is one. -/
def numberParts? : List Char → Option NumberParts
  | '-' :: text => unsignedParts? text
  | text => unsignedParts? text

/-! ## Range -/

/-- The nearest number of at most 53 significant bits; of two that are equally near, the one whose last bit
    is zero. -/
def roundToDouble (n : Nat) : Nat :=
  let unit := Nat.pow 2 (n.log2 + 1 - 53)
  let quotient := n / unit
  let twice := 2 * (n % unit)
  if twice > unit ∨ (twice = unit ∧ quotient % 2 = 1) then (quotient + 1) * unit else quotient * unit

/-- The least number that rounds to infinity in double precision. -/
def doubleBound : Nat := Nat.pow 2 1024 - Nat.pow 2 970

/-- The greatest power of ten within double precision. -/
def greatestPower : Nat := 308

/-- Takes digits as long as the number they make fits a machine word. Returns that number and how many
    digits were not taken. -/
def takeDigits (taken : Nat) : List Char → Nat × Nat
  | [] => (taken, 0)
  | digit :: digits =>
    let more := taken * 10 + (digit.toNat - '0'.toNat)
    if more < wordBound then takeDigits more digits else (taken, digits.length + 1)

/-- The digits taken of a number, and the power of ten that they are multiplied by. Digits of the whole part
    that are not taken count as zeros, digits behind the point that are not taken are left out. -/
def NumberParts.scaled (parts : NumberParts) : Nat × Int :=
  let (whole, zeros) := takeDigits 0 parts.whole
  let (taken, leftOut) := takeDigits whole parts.places
  (taken, parts.exponent + zeros - (parts.places.length - leftOut : Nat))

/-- Whether the number is out of the range of double precision. Multiplied by a negative power of ten no
    number is. -/
def NumberParts.overflows (parts : NumberParts) : Bool :=
  let (taken, power) := parts.scaled
  if taken = 0 ∨ power < 0 then false
  else if power > greatestPower then true
  else roundToDouble taken * roundToDouble (Nat.pow 10 power.toNat) ≥ doubleBound

/-! ## The value -/

/-- The number that a text is, if it is one. -/
def numberOf? (text : List Char) : Option Json :=
  match numberParts? text with
  | none => none
  | some parts =>
    if parts.overflows then some .invalid
    else if parts.whole = text ∧ Nat.ofDigitChars 10 text 0 < wordBound then
      some (.natural (Nat.ofDigitChars 10 text 0))
    else some (.numeral (String.ofList text))

end StyleTree.Json
