import Tilde.Binary64
import Tilde.Decimal.Basic
import Tilde.Directive.Basic
import Tilde.Layout.NewlineKind

/-!
# Values

The arguments of directives are dynamic values: numbers of several kinds, texts, containers,
compiled control strings, and objects of which only the written forms are known.

* `Value`: the type;
* `isTrue`: which values count as true;
* `items?`: the elements of a value that can be walked through;
* `isHashable`: which values can be keys.
-/

namespace Tilde

/-- How an object lays itself out: the texts around its items and the newlines between them. -/
structure ObjectLayout where
  opening : Text
  closing : Text
  newline : NewlineKind
  deriving DecidableEq, Repr

/-- A dynamic value. An object has two written forms, one for programs and one for readers; one that
lays itself out has items besides. -/
inductive Value
  | nothing
  | bool (b : Bool)
  | int (n : Int)
  | float (x : Binary64)
  | decimal (d : Decimal)
  | fraction (q : Rat)
  | complex (re im : Binary64)
  | text (s : Text)
  | bytes (bs : List UInt8)
  | list (items : List Value)
  | tuple (items : List Value)
  | set (items : List Value)
  | frozenSet (items : List Value)
  | deque (items : List Value)
  | dict (entries : List (Value × Value))
  | control (nodes : List Node)
  | object (written shown : Text)
  | layoutObject (written shown : Text) (layout : ObjectLayout) (items : List Value)

instance : Inhabited Value := ⟨.nothing⟩

namespace Value

/-- Zeros, empty texts and containers, and the missing value are false. -/
def isTrue : Value → Bool
  | .nothing => false
  | .bool b => b
  | .int n => n != 0
  | .float x => !x.isZero
  | .decimal (.finite _ c _) => c != 0
  | .decimal _ => true
  | .fraction q => q != 0
  | .complex re im => !(re.isZero && im.isZero)
  | .text s => !s.isEmpty
  | .bytes bs => !bs.isEmpty
  | .list vs | .tuple vs | .set vs | .frozenSet vs | .deque vs => !vs.isEmpty
  | .dict es => !es.isEmpty
  | .control _ | .object .. | .layoutObject .. => true

/-- The elements of a container, the keys of a dictionary, the characters of a text, the numbers of
a byte string. -/
def items? : Value → Option (List Value)
  | .text s => some (s.map fun c => .text [c])
  | .bytes bs => some (bs.map fun b => .int b.toNat)
  | .list vs | .tuple vs | .set vs | .frozenSet vs | .deque vs => some vs
  | .dict es => some (es.map (·.1))
  | _ => none

/-- The whole number that a value is; truth values count as zero and one. -/
def integer? : Value → Option Int
  | .bool b => some (if b then 1 else 0)
  | .int n => some n
  | _ => none

/-- The value is a whole number and not a truth value. -/
def isInteger : Value → Bool
  | .int _ => true
  | _ => false

/-- The value is a finite real number and not a truth value. -/
def isReal : Value → Bool
  | .int _ | .fraction _ => true
  | .float x => x.isFinite
  | .decimal d => d.isFinite
  | _ => false

mutual

/-- The value can be a key: it is no container that can change, and no tuple of such. -/
def isHashable : Value → Bool
  | .list _ | .set _ | .deque _ | .dict _ => false
  | .decimal (.nan _ signals _) => !signals
  | .tuple vs => allHashable vs
  | _ => true

def allHashable : List Value → Bool
  | [] => true
  | v :: vs => isHashable v && allHashable vs

end

end Value

end Tilde
