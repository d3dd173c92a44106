import Tilde.Decimal.Arithmetic
import Tilde.Decimal.Shortest
import Tilde.Number.Basic

/-!
# Equality and order of numbers

Numbers of all kinds compare by their exact values. The exponents of decimal numbers can be far too
large for their values to be written out, so they are compared by the exponents of their first
digits before anything else.

* `Number.equal`, `Number.below`, `Number.atMost`: the comparisons;
* `Number.larger`: the greater of two numbers.

A NaN is neither equal to anything nor in order with anything. Decimal NaNs refuse to be ordered,
those that signal refuse to be compared at all, and complex numbers have no order.
-/

namespace Tilde

/-- A real number as far as comparisons tell. -/
inductive Extended
  | ratio (q : Rat)
  | scaled (negative : Bool) (coefficient : Nat) (exponent : Int)
  | infinite (negative : Bool)
  | nan
  | decimalNaN (signals : Bool)

namespace Extended

/-- The order of `c · 10 ^ e` and `num / den`, all of them positive. -/
def compareScaled (c : Nat) (e : Int) (num den : Nat) : Ordering :=
  let first := Decimal.leadingExponent num den
  let here := Decimal.adjusted c e
  if here < first then .lt
  else if first < here then .gt
  else compare (c * Nat.pow 10 e.toNat * den) (num * Nat.pow 10 (-e).toNat)

/-- The order of `c · 10 ^ e` and `d · 10 ^ f`, all of them positive. -/
def compareTerms (c : Nat) (e : Int) (d : Nat) (f : Int) : Ordering :=
  let here := Decimal.adjusted c e
  let there := Decimal.adjusted d f
  if here < there then .lt
  else if there < here then .gt
  else compare (c * Nat.pow 10 (e - f).toNat) (d * Nat.pow 10 (f - e).toNat)

/-- The sign of a term. -/
def termSign (negative : Bool) (c : Nat) : Int :=
  if c = 0 then 0 else if negative then -1 else 1

/-- The order of two numbers of one sign whose magnitudes have the order given. -/
def signedOrder (sign : Int) (magnitudes : Ordering) : Ordering :=
  if sign = 0 then .eq else if sign < 0 then magnitudes.swap else magnitudes

/-- The order of a term and a ratio. -/
def compareRatio (negative : Bool) (c : Nat) (e : Int) (q : Rat) : Ordering :=
  let here := termSign negative c
  if here = q.num.sign then signedOrder here (compareScaled c e q.num.natAbs q.den)
  else compare here q.num.sign

/-- The order of two numbers, if there is one. -/
def compare? : Extended → Extended → Option Ordering
  | ratio p, ratio q => some (if p < q then .lt else if p = q then .eq else .gt)
  | scaled s c e, ratio q => some (compareRatio s c e q)
  | ratio q, scaled s c e => some (compareRatio s c e q).swap
  | scaled s c e, scaled t d f =>
    let here := termSign s c
    let there := termSign t d
    some (if here = there then signedOrder here (compareTerms c e d f) else compare here there)
  | infinite a, infinite b => some (if a = b then .eq else if a then .lt else .gt)
  | infinite a, ratio _ | infinite a, scaled .. => some (if a then .lt else .gt)
  | ratio _, infinite b | scaled .., infinite b => some (if b then .gt else .lt)
  | _, _ => none

def isDecimalNaN : Extended → Bool
  | decimalNaN _ => true
  | _ => false

def isSignal : Extended → Bool
  | decimalNaN signals => signals
  | _ => false

end Extended

/-- The binary number for comparisons. -/
def Binary64.extended (x : Binary64) : Extended :=
  match x with
  | .nan => .nan
  | .infinite negative => .infinite negative
  | .finite .. => .ratio (x.toRat?.getD 0)

namespace Number

/-- The real number for comparisons; complex numbers have none. -/
def extended? : Number → Option Extended
  | integer n => some (.ratio n)
  | ratio q => some (.ratio q)
  | binary x => some x.extended
  | decimal (.finite negative c e) => some (.scaled negative c e)
  | decimal (.infinite negative) => some (.infinite negative)
  | decimal (.nan _ signals _) => some (.decimalNaN signals)
  | complex .. => none

/-- Equality of real numbers. -/
def equalReals (x y : Extended) : Except Fault Bool :=
  if x.isSignal ∨ y.isSignal then .error .invalidDecimal
  else .ok (x.compare? y == some .eq)

/-- A complex number equals a real one that its real part equals, if its imaginary part is zero. -/
def equalComplex (re im : Binary64) (n : Number) : Except Fault Bool :=
  match n with
  | complex re' im' => do
    return (← equalReals re.extended re'.extended) && (← equalReals im.extended im'.extended)
  | n =>
    match n.extended? with
    | some x => if im.isZero then equalReals re.extended x else .ok false
    | none => .ok false

/-- The numbers have one value. -/
def equal (m n : Number) : Except Fault Bool :=
  match m, n with
  | integer m, integer n => .ok (m == n)
  | complex re im, n => equalComplex re im n
  | m, complex re im => equalComplex re im m
  | m, n =>
    match m.extended?, n.extended? with
    | some x, some y => equalReals x y
    | _, _ => .ok false

def isDecimal : Number → Bool
  | decimal _ => true
  | _ => false

/-- The order of two real numbers, if they have one. A NaN of any kind refuses to be ordered with a
decimal number. -/
def order? (m n : Number) : Except Fault (Option Ordering) :=
  match m, n with
  | integer m, integer n => .ok (some (compare m n))
  | m, n =>
    match m.extended?, n.extended? with
    | some x, some y =>
      match x.compare? y with
      | some o => .ok (some o)
      | none =>
        if m.isDecimal ∨ n.isDecimal then .error .invalidDecimal else .ok none
    | _, _ => .error .wrongType

/-- The first number is less than the second. -/
def below (m n : Number) : Except Fault Bool := do return (← m.order? n) == some .lt

/-- The first number is at most the second. -/
def atMost (m n : Number) : Except Fault Bool := do
  match ← m.order? n with
  | some .lt | some .eq => return true
  | _ => return false

/-- The second number if it is greater than the first one, else the first one. -/
def larger (m n : Number) : Except Fault Number := do return if ← m.below n then n else m

/-- The second number if it is less than the first one, else the first one. -/
def smaller (m n : Number) : Except Fault Number := do return if ← n.below m then n else m

end Number

end Tilde
