import Tilde.English
import Tilde.Roman
import Tilde.Value.Arithmetic
import Tilde.Value.Written

/-!
# Numerals of values

Digits, Roman numerals and English names are those of integers, but the rules by which they are
found work on other numbers as long as nothing has to be looked up by a number that is no integer.
So a ratio that is whole has an English name, and a binary number just below four is `IV`, because
it becomes five when one is added.

* `Value.digits`: the digits of a value in a radix;
* `Value.grouped`: a digit string with separators;
* `Value.romanNumeral`, `Value.englishName`: the numerals.
-/

namespace Tilde

/-! ## Radices -/

namespace Value

/-- The radix is one of those with a notation of their own; numbers of any kind will do. -/
def commonRadix? (radix : Value) : Except Fault (Option Nat) :=
  [10, 16, 8, 2].findM? fun (b : Nat) => radix.equal (.int b)

/-- The whole part of a number, if there is one that has not too many digits. -/
def wholePart (n : Number) : Except Fault Nat :=
  match n with
  | .integer n => .ok n.natAbs
  | .ratio q => .ok (q.num.natAbs / q.den)
  | .binary .nan | .decimal (.nan ..) => .error .wrongValue
  | .binary (.infinite _) | .decimal (.infinite _) => .error .tooLarge
  | .binary x => .ok ((x.toRat?.getD 0).num.natAbs / (x.toRat?.getD 0).den)
  | .decimal (.finite _ c e) =>
    if c ≠ 0 ∧ Text.greatestDigitCount ≤ Decimal.adjusted c e then .error .wrongValue
    else .ok (c * Nat.pow 10 e.toNat / Nat.pow 10 (-e).toNat)
  | .complex .. => .error .wrongType

/-- The digits of an absolute value in a radix with a notation of its own. Radix ten takes the whole
part of other numbers, the other radices refuse them. -/
def commonDigits (radix : Nat) (n : Number) : Except Fault Text :=
  match n, radix with
  | .integer n, _ => .ok (Radix.magnitude radix n.natAbs)
  | n, 10 => do return Radix.magnitude 10 (← wholePart n)
  | .binary _, 2 | .decimal _, 2 => .error .wrongValue
  | _, _ => .error .wrongType

/-- The digits of an integer by division, in a radix that has to be one. Numbers below one have no
digits, but zero has one. -/
def digitsByDivision (n radix : Value) : Except Fault Text := do
  if (← radix.less (.int 2)) || (← (Value.int 36).less radix) then throw .radixOutOfRange
  else match n.integer?, radix.integer? with
    | some n, some r => return if n < 0 then [] else Radix.digits r.toNat n.toNat
    | _, _ =>
      if ← n.equal (.int 0) then return ['0']
      else if ← (Value.int 0).less n then
        discard (n.remainder radix)
        throw .wrongType
      else return []

/-- The digits of the absolute value of a number. -/
def magnitudeDigits (n : Number) (radix : Value) : Except Fault Text := do
  match ← radix.commonRadix? with
  | some b => commonDigits b n
  | none => n.toValue.digitsByDivision radix

/-- The digits of a value, after its sign. -/
def digits (v radix : Value) : Except Fault Text := do
  let negative ← v.isBelowZero
  let n ← (← v.asNumber).magnitude
  return (if negative then ['-'] else []) ++ (← magnitudeDigits n radix)

/-! ## Groups -/

/-- The text that can join texts. -/
def asSeparator (v : Value) : Except Fault Text :=
  match v with
  | .text s => .ok s
  | .bytes _ => .error .wrongType
  | _ => .error .unsupported

/-- The interval of groups, given how many digits there are. One that is no integer is refused, as
soon as it is clear that there is a remainder. -/
def asInterval (v : Value) (count : Nat) : Except Fault Int := do
  let first ← (Value.int count).remainder v
  discard ((Value.int 0).less first)
  v.asInteger

/-- Puts separators between the groups of a digit string. -/
def groupedDigits (s : Text) (separator interval : Value) : Except Fault Text := do
  let interval ← interval.asInterval s.length
  return Radix.grouped (← separator.asSeparator) interval s

/-- Puts separators between the groups of a text or of a byte string. Other sequences are refused as
soon as there is a group. -/
def grouped (v separator interval : Value) : Except Fault Value := do
  let count ← v.length
  let interval ← interval.asInterval count
  let groupless := decide (interval < 0 ∨ count = 0)
  match v, separator with
  | .text s, .text t => return .text (Radix.grouped t interval s)
  | .bytes s, .bytes t =>
    let letters (bs : List UInt8) : Text := bs.map fun b => Char.ofNat b.toNat
    return .bytes ((Radix.grouped (letters t) interval (letters s)).map fun c =>
      UInt8.ofNat c.toNat)
  | _, .text _ => if groupless then return .text [] else throw .wrongType
  | _, .bytes _ => if groupless then return .bytes [] else throw .wrongType
  | .text _, _ | .bytes _, _ | .list _, _ | .tuple _, _ => throw .unsupported
  | _, _ => throw (if groupless then .unsupported else .wrongType)

end Value

/-! ## Roman numerals -/

namespace Roman

/-- The sign of a rank, what it counts, and the lower rank that can stand before it. -/
structure Rank where
  sign : Char
  value : Nat
  before : Option (Char × Nat)

/-- The ranks, highest first. -/
def ranks : List Rank :=
  [⟨'M', 1000, some ('C', 100)⟩, ⟨'D', 500, some ('C', 100)⟩, ⟨'C', 100, some ('X', 10)⟩,
    ⟨'L', 50, some ('X', 10)⟩, ⟨'X', 10, some ('I', 1)⟩, ⟨'V', 5, some ('I', 1)⟩, ⟨'I', 1, none⟩]

/-- Takes away what the ranks count, from the highest on. A rank is tried again after a lower one
has been put before it. What the ranks cannot count is left over at the end and refused. -/
def spellNumber (old : Bool) : Nat → List Rank → Number → Except Fault Text
  | 0, _, _ => .error .tooDeep
  | _ + 1, [], _ => .error .indexOutOfRange
  | steps + 1, rank :: lower, n => do
    let value := Number.integer rank.value
    if ← value.atMost n then
      return rank.sign :: (← spellNumber old steps (rank :: lower) (← n.minus value))
    else if ← n.atMost (.integer 0) then return []
    else match rank.before with
      | none => throw .indexOutOfRange
      | some (sign, less) =>
        let raised ← n.plus (.integer less)
        if (← value.atMost raised) && !old then
          return sign :: (← spellNumber old steps (rank :: lower) raised)
        else spellNumber old steps lower n

end Roman

/-- The Roman numeral of a number in the style's range. -/
def Value.romanNumeral (old : Bool) (v : Value) : Except Fault Text := do
  let n ← v.asNumber
  if (← n.below (.integer 1)) || (← (Number.integer (Roman.limit old)).below n) then
    throw .notRoman
  else match n with
    | .integer n => return Roman.numeral old n.toNat
    | n => Roman.spellNumber old 100 Roman.ranks n

/-! ## English names -/

namespace English

/-- An entry at an index, which has to be an integer. -/
def entryAt (table : List String) (i : Number) : Except Fault Text :=
  match i with
  | .integer i => .ok (entry table i.toNat)
  | _ => .error .wrongType

/-- The names below twenty. -/
def smallNames (asOrdinal : Bool) : List String := if asOrdinal then ordinals else cardinals

/-- The names of the groups of a number from the `v`-th down, given how a group is named. -/
def groupNames (name : Bool → Number → Except Fault Text) (asOrdinal : Bool) :
    Nat → Number → Except Fault Text
  | v, n => do
    let unit := Number.integer (Nat.pow 1000 v)
    let group ← n.floorQuotient unit
    let (words, rest) ← if group.isZero then pure ([], n) else do
      let words ← name (asOrdinal && (← n.below (.integer 1000))) group
      let power :=
        if v < powers.length then (if v = 0 then [] else ' ' :: entry powers v)
        else " times ten to the ".toList ++ ordinal (3 * v : Nat) ++ " power plus".toList
      let rest ← n.remainder unit
      let after ←
        if rest.isZero then pure (if v = 0 then [] else ending asOrdinal)
        else do
          let comma := (← (Number.integer 100).atMost rest) && decide (v < powers.length)
          pure ((if comma then [','] else []) ++ [' '])
      pure (words ++ power ++ after, rest)
    match v with
    | 0 => return words
    | w + 1 => return words ++ (← groupNames name asOrdinal w rest)

/-- The name of a number that need not be an integer. How many groups it has is guessed from the
length of its written form. -/
def nameOf : Nat → Bool → Number → Except Fault Text
  | 0, _, _ => .error .tooDeep
  | depth + 1, asOrdinal, n => do
    match n with
    | .integer n => return if asOrdinal then ordinal n else cardinal n
    | n =>
      let negative ← n.below (.integer 0)
      let n ← if negative then n.magnitude else pure n
      let words ←
        if ← n.below (.integer 1000) then
          if ← (Number.integer 100).atMost n then do
            let hundreds ← nameOf depth false (← n.floorQuotient (.integer 100))
            let rest ← n.remainder (.integer 100)
            let after ← if rest.isZero then pure (ending asOrdinal) else do
              pure (' ' :: (← nameOf depth asOrdinal rest))
            pure (hundreds ++ " hundred".toList ++ after)
          else if ← n.below (.integer 20) then entryAt (smallNames asOrdinal) n
          else do
            let ones ← n.remainder (.integer 10)
            let stem ← entryAt stems (← n.floorQuotient (.integer 10))
            if ones.isZero then pure (stem ++ if asOrdinal then "ieth".toList else ['y'])
            else pure (stem ++ 'y' :: '-' :: (← entryAt (smallNames asOrdinal) ones))
        else groupNames (nameOf depth) asOrdinal ((n.toValue.shown.length - 1) / 3) n
      return (if negative then "negative ".toList else []) ++ words

end English

/-- The English name of a number. That of an infinity never comes to an end. -/
def Value.englishName (asOrdinal : Bool) (v : Value) : Except Fault Text := do
  English.nameOf 330 asOrdinal (← v.asNumber)

end Tilde
