import Tilde.Decimal.Exponential
import Tilde.Decimal.Monetary
import Tilde.Dynamic.Digits
import Tilde.Dynamic.Parts
import Tilde.Dynamic.Setting
import Tilde.Value.Written

/-!
# Fields for real numbers with settings of any kind

The rules are those of the fields on integers, but every width, place and exponent is a value: what
is compared only may be a number of any kind, and only what counts characters in the end has to be
an integer. A field that is too narrow is filled with copies of a value that need not be a text.

* `RealSettings`, `MoneySettings`: the settings, and the styles that they make if they are ordinary;
* `fixedField`, `exponentialField`, `generalField`, `monetaryField`: the fields.
-/

namespace Tilde

/-! ## Settings -/

/-- The settings of a field for real numbers. -/
structure RealSettings where
  width : Value := .nothing
  places : Value := .nothing
  exponentDigits : Value := .nothing
  scale : Value := .int 0
  overflow : Value := .nothing
  pad : Value := .text [' ']
  mark : Value := .nothing
  plus : Bool := false

namespace RealSettings

/-- The text that a setting is, the other one if the setting is missing or empty. -/
def textOr? (otherwise : Text) (v : Value) : Option Text :=
  if v.isTrue then v.text? else some otherwise

/-- The style that the settings make, if they are ordinary. -/
def style? (s : RealSettings) : Option Decimal.FloatStyle := do
  some {
    width := ← s.width.ordinaryOrNothing?
    places := ← s.places.ordinaryOrNothing?
    exponentDigits := ← s.exponentDigits.ordinaryOrNothing?
    scale := ← s.scale.ordinary?
    overflow := ← textOr? [] s.overflow
    pad := ← s.pad.text?
    mark := ← textOr? ['E'] s.mark
    plus := s.plus }

/-- The field filled with copies of the overflow value. -/
def overflowing (s : RealSettings) : Except Fault Value := s.overflow.times s.width

/-- A text with padding in front, up to the width. -/
def padded (s : RealSettings) (filled : Value) (text : Text) : Except Fault Value := do
  (← s.pad.times (← s.width.minus filled)).plus (.text text)

/-! ## Fixed-point fields -/

/-- The positional text, without the zero in front of the point if there is no room for it. -/
def fixedBody (s : RealSettings) (inner : Value) (p : Decimal.Parts) (exponent : Value) :
    Except Fault Text := do
  let r ← roundDigits (.text p.digits) exponent s.places inner
  let body ← positionalDigits r.digits (← r.leading) s.places
  if s.width.isNothing || s.places.isNothing then return body
  else if (← (Value.int 1).numberAtMost s.places) && ['0', '.'].isPrefixOf body then
    return if ← inner.less (.int body.length) then body.drop 1 else body
  else return body

/-- The fixed-point field. -/
def fixed (s : RealSettings) (negative : Bool) (p : Decimal.Parts) : Except Fault Value := do
  let sign := Decimal.signText s.plus negative
  let exponent ← (Value.int p.exponent).plus s.scale
  let wantsBack ← if s.places.isNothing then
      (Value.int ((p.digits.length : Int) - 1)).numberAtMost exponent
    else pure false
  let inner ← if s.width.isNothing then pure s.width else s.width.minus (.int sign.length)
  let body ← s.fixedBody inner p exponent
  let wantsFront := ['.'].isPrefixOf body
  let shown (front back : Bool) : Text :=
    sign ++ (if front then ['0'] else []) ++ body ++ if back then ['0'] else []
  if s.width.isNothing then return .text (shown wantsFront wantsBack)
  else
    let signed := body.length + sign.length
    let front ← if wantsFront then (Value.int signed).less s.width else pure false
    let back ← if wantsBack then (Value.int signed).less s.width else pure false
    let full : Value := .int (if front || back then signed + 1 else signed : Nat)
    if (← s.width.less full) && s.overflow.isTrue then s.overflowing
    else s.padded full (shown front back)

/-! ## Exponential fields -/

/-- The form of a number for readers. -/
def shownNumber (v : Value) : Except Fault Text :=
  if v.isWritable then .ok v.shown else .error .wrongValue

/-- The digits of the exponent to print for a number whose first digit has the exponent, and the
mark, the sign and these digits. -/
def power (s : RealSettings) (exponent : Int) : Except Fault (Text × Text) := do
  let shown ← (Value.int exponent).minus (← s.scale.minus (.int 1))
  let digits ← shownNumber (← shown.absolute)
  let digits ← if s.exponentDigits.isNothing then pure digits
    else Value.filledLeft digits s.exponentDigits (.text ['0'])
  let sign := if ← shown.isBelowZero then '-' else '+'
  let mark ← if s.mark.isTrue then s.mark.asText else pure ['E']
  return (digits, mark ++ sign :: digits)

/-- How many digits the mantissa may have, given the width of the sign and of the power. -/
def mantissaCount (s : RealSettings) (signWidth powerWidth : Nat) : Except Fault Value := do
  if !s.places.isNothing then
    s.places.plus (if ← (Value.int 0).less s.scale then .int 1 else s.scale)
  else if s.width.isNothing then return .nothing
  else
    let inner ← (← s.width.minus (.int signWidth)).minus (.int powerWidth)
    let inner ← inner.minus (.int 1)
    inner.minus (← (Value.int 0).larger (← s.scale.negated))

/-- The digits of the mantissa and those of the exponent with the power. After a carry out of the
first digit the number is a power of ten, to which no rounding applies. -/
def mantissa (s : RealSettings) (signWidth : Nat) (p : Decimal.Parts) :
    Except Fault (Text × Text × Text) := do
  let (digits, power) ← s.power p.exponent
  match ← s.mantissaCount signWidth power.length with
  | .nothing => return (p.digits, digits, power)
  | count =>
    let count ← count.larger (.int 1)
    if ← count.less (.int p.digits.length) then
      let r := Decimal.cutAt p.digits p.exponent (← count.asInteger).toNat
      if r.carried then
        let (digits, power) ← s.power (p.exponent + 1)
        discard (s.mantissaCount signWidth power.length)
        return (['1'], digits, power)
      else return (r.digits, digits, power)
    else return (p.digits, digits, power)

/-- The mantissa in front of the point and behind it. -/
def split (s : RealSettings) (digits : Text) : Except Fault (Text × Text) := do
  if ← (Value.int 0).less s.scale then
    let count ← s.scale.asInteger
    let whole ← Value.filledRight (digits.take count.toNat) s.scale '0'
    let rest := digits.drop count.toNat
    if s.places.isNothing then return (whole, rest)
    else
      return (whole,
        ← Value.filledRight rest (← (← s.places.minus s.scale).plus (.int 1)) '0')
  else
    let rest := (← Value.repeatText ['0'] (← s.scale.negated)) ++ digits
    if s.places.isNothing then return ([], rest)
    else return ([], ← Value.filledRight rest s.places '0')

/-- The exponential field. -/
def exponential (s : RealSettings) (negative : Bool) (p : Decimal.Parts) : Except Fault Value := do
  let sign := Decimal.signText s.plus negative
  let (digits, exponentDigits, power) ← s.mantissa sign.length p
  let (whole, rest) ← s.split digits
  let rest ←
    if rest.isEmpty && s.places.isNothing then
      if s.width.isNothing then pure ['0']
      else
        let least := sign.length + whole.length + 2 + power.length
        pure (if ← (Value.int least).numberAtMost s.width then ['0'] else rest)
    else pure rest
  let body := whole ++ '.' :: rest
  if s.width.isNothing then
    return .text (sign ++ (if whole.isEmpty then ['0'] else []) ++ body ++ power)
  else
    let bare := sign.length + body.length + power.length
    let front ← if whole.isEmpty then (Value.int bare).less s.width else pure false
    let body := if front then '0' :: body else body
    let full : Value := .int (if front then bare + 1 else bare : Nat)
    let crowded ←
      if ← s.width.less full then pure true
      else if s.exponentDigits.isNothing then pure false
      else s.exponentDigits.less (.int exponentDigits.length)
    if crowded && s.overflow.isTrue then s.overflowing
    else s.padded full (sign ++ body ++ power)

/-! ## General fields -/

/-- The general field: a fixed one, with blanks for the exponent that is not there, as long as the
number has its first digit near the point. Whether the number is negative is asked last. -/
def general (s : RealSettings) (isNegative : Except Fault Bool) (p : Decimal.Parts) :
    Except Fault Value := do
  let n : Int := if p.digits = ['0'] then 0 else p.exponent + 1
  let blanks ← if s.exponentDigits.isNothing then pure (.int 4)
    else s.exponentDigits.plus (.int 2)
  let inner ← if s.width.isNothing then pure s.width else s.width.minus blanks
  let places := if s.places.isNothing then .int (max p.digits.length (min n 7)) else s.places
  let behind ← places.minus (.int n)
  let isNear ←
    if ← (Value.int 0).numberAtMost behind then behind.numberAtMost places else pure false
  if isNear then
    let near := { s with width := inner, places := behind, scale := .int 0 }
    let field ← near.fixed (← isNegative) p
    field.plus (.text (← Value.repeatText [' '] blanks))
  else exponential { s with places := places } (← isNegative) p

/-! ## Fields of values -/

/-- The field of a value: laid out on integers if the settings are ordinary, by the rules for values
otherwise. -/
def field (s : RealSettings) (plain : Decimal.FloatStyle → Bool → Decimal.Parts → Text)
    (lenient : RealSettings → Bool → Decimal.Parts → Except Fault Value) (v : Value) :
    Except Fault Value := do
  let negative ← v.isNegative s.plus
  let p ← (← v.absolute).parts
  match s.style? with
  | some style => return .text (plain style negative p)
  | none => lenient s negative p

end RealSettings

/-- A number in a fixed-point field. -/
def fixedField (s : RealSettings) (v : Value) : Except Fault Value :=
  s.field Decimal.fixed RealSettings.fixed v

/-- A number in an exponential field. -/
def exponentialField (s : RealSettings) (v : Value) : Except Fault Value :=
  s.field Decimal.exponential RealSettings.exponential v

/-- A number in a general field. -/
def generalField (s : RealSettings) (v : Value) : Except Fault Value := do
  let p ← (← v.absolute).parts
  match s.style? with
  | some style => return .text (Decimal.general style (← v.isNegative s.plus) p)
  | none => s.general (v.isNegative s.plus) p

/-! ## Monetary fields -/

/-- The settings of a monetary field. -/
structure MoneySettings where
  places : Value := .int 2
  wholeDigits : Value := .int 1
  width : Value := .int 0
  pad : Value := .text [' ']
  signFirst : Bool := false
  plus : Bool := false

namespace MoneySettings

/-- The style that the settings make, if they are ordinary. -/
def style? (s : MoneySettings) : Option Decimal.MoneyStyle := do
  some {
    places := ← s.places.ordinaryOrNothing?
    wholeDigits := ← s.wholeDigits.ordinary?
    width := ← s.width.ordinary?
    pad := ← s.pad.text?
    signFirst := s.signFirst
    plus := s.plus }

/-- The monetary field. -/
def field (s : MoneySettings) (negative : Bool) (p : Decimal.Parts) : Except Fault Text := do
  let sign := Decimal.signText s.plus negative
  let r ← roundDigits (.text p.digits) (.int p.exponent) s.places .nothing
  let body ← positionalDigits r.digits (← r.leading) s.places
  let whole := body.takeWhile (· != '.')
  let zeros ← Value.repeatText ['0'] (← s.wholeDigits.minus (.int whole.length))
  let full := zeros ++ body
  let room ← (← s.width.minus (.int full.length)).minus (.int sign.length)
  let padding ← (← s.pad.times room).asText
  return if s.signFirst then sign ++ padding ++ full else padding ++ sign ++ full

end MoneySettings

/-- A number in a monetary field. -/
def monetaryField (s : MoneySettings) (v : Value) : Except Fault Text := do
  let negative ← v.isNegative s.plus
  let p ← (← v.absolute).parts
  match s.style? with
  | some style => return Decimal.monetary style negative p
  | none => s.field negative p

end Tilde
