import Tilde.Decimal.Shortest
import Tilde.Text.DecimalDigit
import Tilde.Text.Quoted
import Tilde.Value.Basic

/-!
# Written forms of values

Every value has a form for programs, in which texts are quoted, and a form for readers, in which a
text stands for itself. The elements of containers are always in the form for programs.

* `written`: the form for programs;
* `shown`: the form for readers;
* `isWritable`: the numbers that have not too many digits.
-/

namespace Tilde.Value

/-- Texts separated by a comma and a space. -/
def listed (parts : List Text) : Text := Text.join [',', ' '] parts

/-- The numerator and denominator of a fraction in program form. -/
def writtenFraction (q : Rat) : Text :=
  "Fraction(".toList ++ listed [Radix.decimal q.num, Radix.decimal q.den] ++ [')']

/-- Numerator and denominator of a fraction, the latter unless it is one. -/
def shownFraction (q : Rat) : Text :=
  Radix.decimal q.num ++ if q.den = 1 then [] else '/' :: Radix.decimal q.den

mutual

/-- The form for programs. -/
def written : Value → Text
  | .nothing => "None".toList
  | .bool b => if b then "True".toList else "False".toList
  | .int n => Radix.decimal n
  | .float x => x.text
  | .decimal d => "Decimal('".toList ++ d.text ++ "')".toList
  | .fraction q => writtenFraction q
  | .complex re im => Binary64.complexText re im
  | .text s => Text.quoted s
  | .bytes bs => Text.quotedBytes bs
  | .list vs => '[' :: listed (writtenItems vs) ++ [']']
  | .tuple vs =>
    match writtenItems vs with
    | [s] => '(' :: s ++ [',', ')']
    | parts => '(' :: listed parts ++ [')']
  | .set vs =>
    match writtenItems vs with
    | [] => "set()".toList
    | parts => '{' :: listed parts ++ ['}']
  | .frozenSet vs =>
    match writtenItems vs with
    | [] => "frozenset()".toList
    | parts => "frozenset(".toList ++ '{' :: listed parts ++ ['}', ')']
  | .deque vs => "deque([".toList ++ listed (writtenItems vs) ++ [']', ')']
  | .dict es => '{' :: listed (writtenEntries es) ++ ['}']
  | .control _ => "<control>".toList
  | .object written _ => written
  | .layoutObject written _ _ _ => written

def writtenItems : List Value → List Text
  | [] => []
  | v :: vs => written v :: writtenItems vs

def writtenEntries : List (Value × Value) → List Text
  | [] => []
  | (k, v) :: es => (written k ++ ':' :: ' ' :: written v) :: writtenEntries es

end

/-- The form for readers. -/
def shown : Value → Text
  | .text s => s
  | .decimal d => d.text
  | .fraction q => shownFraction q
  | .object _ shown => shown
  | .layoutObject _ shown _ _ => shown
  | v => written v

/-- An integer that has no more digits than numerals can have. -/
def isWritableInteger (n : Int) : Bool := decide (n.natAbs < Nat.pow 10 Text.greatestDigitCount)

/-- A number whose written form can be read back. Arithmetic can lead beyond these numbers. -/
def isWritable : Value → Bool
  | .int n => isWritableInteger n
  | .fraction q => isWritableInteger q.num && isWritableInteger q.den
  | _ => true

end Tilde.Value
