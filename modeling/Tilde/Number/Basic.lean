import Tilde.Value.Basic

/-!
# Numbers

Numbers are of five kinds: integers, ratios, binary and decimal floating point, and complex ones.

* `Number`: the type;
* `Value.number?`, `Number.toValue`: the numbers among the values.
-/

namespace Tilde

/-- A number of any kind. -/
inductive Number
  | integer (n : Int)
  | ratio (q : Rat)
  | binary (x : Binary64)
  | decimal (d : Decimal)
  | complex (re im : Binary64)
  deriving DecidableEq, Repr

namespace Number

instance : Inhabited Number := ⟨.integer 0⟩

/-- The number as a value. -/
def toValue : Number → Value
  | integer n => .int n
  | ratio q => .fraction q
  | binary x => .float x
  | decimal d => .decimal d
  | complex re im => .complex re im

end Number

/-- The number that a value is; truth values count as zero and one. -/
def Value.number? : Value → Option Number
  | .bool b => some (.integer (if b then 1 else 0))
  | .int n => some (.integer n)
  | .float x => some (.binary x)
  | .decimal d => some (.decimal d)
  | .fraction q => some (.ratio q)
  | .complex re im => some (.complex re im)
  | _ => none

namespace Number

@[simp] theorem number?_toValue (n : Number) : n.toValue.number? = some n := by cases n <;> rfl

end Number

end Tilde
