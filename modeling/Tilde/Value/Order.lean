import Tilde.Number.Order

/-!
# Equality and order of values

Texts, byte strings and sequences compare element by element, sets by inclusion, numbers by their
exact values; other values have no order.

* `equal`, `atMost`: the comparisons;
* `less`: the order of numbers;
* `ofEntries`, `ofElements`: dictionaries and sets, in which no two keys are equal.
-/

namespace Tilde

namespace Value

mutual

/-- The values are equal: numbers by value, containers of one kind by their elements. Lists of
different lengths differ whatever is in them; tuples are compared up to the shorter length. -/
def equal : Value → Value → Except Fault Bool
  | .nothing, .nothing => .ok true
  | .text s, .text t => .ok (s == t)
  | .bytes a, .bytes b => .ok (a == b)
  | .list a, .list b => if a.length = b.length then equalItems a b else .ok false
  | .tuple a, .tuple b => equalItems a b
  | .deque a, .deque b => if a.length = b.length then equalItems a b else .ok false
  | .set a, .set b | .set a, .frozenSet b | .frozenSet a, .set b | .frozenSet a, .frozenSet b =>
    if a.length = b.length then included a b else .ok false
  | .dict a, .dict b => if a.length = b.length then includedEntries a b else .ok false
  | v, w =>
    match v.number?, w.number? with
    | some m, some n => m.equal n
    | _, _ => .ok false

/-- The lists have equal elements at every place. -/
def equalItems : List Value → List Value → Except Fault Bool
  | [], [] => .ok true
  | v :: vs, w :: ws => do if ← equal v w then equalItems vs ws else return false
  | _, _ => .ok false

/-- Every element of the first list equals one of the second. -/
def included : List Value → List Value → Except Fault Bool
  | [], _ => .ok true
  | v :: vs, ws => do if ← ws.anyM (equal v) then included vs ws else return false

/-- Every entry of the first dictionary equals one of the second. -/
def includedEntries : List (Value × Value) → List (Value × Value) → Except Fault Bool
  | [], _ => .ok true
  | (k, v) :: es, ws => do
    if ← ws.anyM (fun w => do if ← equal k w.1 then equal v w.2 else return false) then
      includedEntries es ws
    else return false

end

/-- The texts are in order, by the codes of their characters. -/
def textAtMost : Text → Text → Bool
  | [], _ => true
  | _ :: _, [] => false
  | a :: s, b :: t => if a == b then textAtMost s t else decide (a.toNat ≤ b.toNat)

/-- The byte strings are in order. -/
def bytesAtMost : List UInt8 → List UInt8 → Bool
  | [], _ => true
  | _ :: _, [] => false
  | a :: s, b :: t => if a == b then bytesAtMost s t else decide (a ≤ b)

mutual

/-- The first value is at most the second. -/
def atMost : Value → Value → Except Fault Bool
  | .text s, .text t => .ok (textAtMost s t)
  | .bytes a, .bytes b => .ok (bytesAtMost a b)
  | .list a, .list b => itemsAtMost a b
  | .tuple a, .tuple b => itemsAtMost a b
  | .deque a, .deque b => itemsAtMost a b
  | .set a, .set b | .set a, .frozenSet b | .frozenSet a, .set b | .frozenSet a, .frozenSet b =>
    included a b
  | v, w =>
    match v.number?, w.number? with
    | some m, some n => m.atMost n
    | _, _ => .error .wrongType

/-- The first unequal elements decide; without any, the lengths do. -/
def itemsAtMost : List Value → List Value → Except Fault Bool
  | [], _ => .ok true
  | _ :: _, [] => .ok false
  | v :: vs, w :: ws => do if ← equal v w then itemsAtMost vs ws else atMost v w

end

/-- The first value is a number less than the second. -/
def less (v w : Value) : Except Fault Bool :=
  match v.number?, w.number? with
  | some m, some n => m.below n
  | _, _ => .error .wrongType

/-- The value is below zero. -/
def isBelowZero (v : Value) : Except Fault Bool := v.less (.int 0)

/-- The number that a value is; other values are of the wrong type for arithmetic. -/
def asNumber (v : Value) : Except Fault Number :=
  match v.number? with
  | some n => .ok n
  | none => .error .wrongType

/-- A dictionary from entries in order: a later entry with an equal key gives its value to the
earlier one. -/
def putEntry : List (Value × Value) → Value → Value → Except Fault (List (Value × Value))
  | [], k, v => .ok [(k, v)]
  | (k', v') :: es, k, v => do
    if ← equal k' k then return (k', v) :: es else return (k', v') :: (← putEntry es k v)

/-- The dictionary with these entries; keys must be hashable. -/
def ofEntries (entries : List (Value × Value)) : Except Fault Value := do
  if entries.all (·.1.isHashable) then
    return .dict (← entries.foldlM (fun es e => putEntry es e.1 e.2) [])
  else .error .wrongType

/-- The set of at most one element; it must be hashable. -/
def ofElements (frozen : Bool) (items : List Value) : Except Fault Value := do
  if items.all isHashable then
    let elements := (← items.foldlM (fun es v => putEntry es v v) []).map (·.1)
    return if frozen then .frozenSet elements else .set elements
  else .error .wrongType

end Value

end Tilde
