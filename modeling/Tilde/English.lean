import Tilde.Text.Basic

/-!
# English number names

Cardinals and ordinals of integers of any size. A number is spelled in groups of three digits; a
group is followed by the name of its power of a thousand, or, beyond the nonillions, by `times ten
to the … power plus` with the exponent spelled as an ordinal in turn.

* `cardinal`, `ordinal`: the names of an integer.
-/

namespace Tilde.English

/-- The names of the cardinals below twenty. -/
def cardinals : List String :=
  ["zero", "one", "two", "three", "four", "five", "six", "seven", "eight", "nine", "ten", "eleven",
    "twelve", "thirteen", "fourteen", "fifteen", "sixteen", "seventeen", "eighteen", "nineteen"]

/-- The names of the ordinals below twenty. -/
def ordinals : List String :=
  ["zeroth", "first", "second", "third", "fourth", "fifth", "sixth", "seventh", "eighth", "ninth",
    "tenth", "eleventh", "twelfth", "thirteenth", "fourteenth", "fifteenth", "sixteenth",
    "seventeenth", "eighteenth", "nineteenth"]

/-- What the names of the multiples of ten begin with. -/
def stems : List String :=
  ["", "ten", "twent", "thirt", "fourt", "fift", "sixt", "sevent", "eight", "ninet"]

/-- The names of the powers of a thousand. -/
def powers : List String :=
  ["", "thousand", "million", "billion", "trillion", "quadrillion", "quintillion", "sextillion",
    "septillion", "octillion", "nonillion"]

/-- The entry at an index, as a text. -/
def entry (table : List String) (i : Nat) : Text := (table.getD i "").toList

/-- The name of a number below twenty. -/
def small (asOrdinal : Bool) (n : Nat) : Text := entry (if asOrdinal then ordinals else cardinals) n

/-- The ending that makes the name of a power an ordinal. -/
def ending (asOrdinal : Bool) : Text := if asOrdinal then "th".toList else []

/-- The name of a number below a hundred. -/
def belowHundred (asOrdinal : Bool) (n : Nat) : Text :=
  if n < 20 then small asOrdinal n
  else entry stems (n / 10) ++
    if n % 10 = 0 then (if asOrdinal then "ieth".toList else ['y'])
    else 'y' :: '-' :: small asOrdinal (n % 10)

/-- The name of a number below a thousand. -/
def belowThousand (asOrdinal : Bool) (n : Nat) : Text :=
  if n < 100 then belowHundred asOrdinal n
  else belowHundred false (n / 100) ++ " hundred".toList ++
    if n % 100 = 0 then ending asOrdinal else ' ' :: belowHundred asOrdinal (n % 100)

/-- The index of the highest group of three digits. -/
def topGroup (n : Nat) : Nat := if n < 1000 then 0 else topGroup (n / 1000) + 1

theorem three_mul_lt_pow (v : Nat) : 3 * v < Nat.pow 1000 v := by
  induction v with
  | zero => decide
  | succ v ih =>
    have : Nat.pow 1000 (v + 1) = Nat.pow 1000 v * 1000 := rfl
    omega

mutual

/-- The name of a natural number. -/
def spell (asOrdinal : Bool) (n : Nat) : Text :=
  if n < 1000 then belowThousand asOrdinal n else spellGroups asOrdinal n (topGroup n)
termination_by (n, topGroup n + 1)

/-- The names of the groups from the `v`-th down, of a number that has no higher one. Only a lowest
group can be an ordinal; a number that ends in a power name puts the ending there. -/
def spellGroups (asOrdinal : Bool) (n v : Nat) : Text :=
  let group := n / Nat.pow 1000 v
  let rest := n % Nat.pow 1000 v
  (if _ : group = 0 then []
   else
    belowThousand (asOrdinal && decide (n < 1000)) group ++
    (if v < powers.length then (if v = 0 then [] else ' ' :: entry powers v)
     else " times ten to the ".toList ++ spell true (3 * v) ++ " power plus".toList) ++
    if rest = 0 then (if v = 0 then [] else ending asOrdinal)
    else (if 100 ≤ rest ∧ v < powers.length then [','] else []) ++ [' ']) ++
  match v with
  | 0 => []
  | w + 1 => spellGroups asOrdinal rest w
termination_by (n, v)
decreasing_by
  · have hq : Nat.pow 1000 v ≤ n := by
      rcases Nat.lt_or_ge n (Nat.pow 1000 v) with hlt | hge
      · exact absurd (Nat.div_eq_of_lt hlt) (by assumption)
      · exact hge
    have := three_mul_lt_pow v
    exact Prod.Lex.left _ _ (by omega)
  · have hle : n % Nat.pow 1000 v ≤ n := Nat.mod_le _ _
    rcases Nat.lt_or_eq_of_le hle with hlt | heq
    · exact Prod.Lex.left _ _ hlt
    · rw [heq]; exact Prod.Lex.right _ (Nat.lt_succ_self w)

end

/-- What goes before the name of a negative number. -/
def sign (n : Int) : Text := if n < 0 then "negative ".toList else []

/-- The cardinal name of an integer. -/
def cardinal (n : Int) : Text := sign n ++ spell false n.natAbs

/-- The ordinal name of an integer. -/
def ordinal (n : Int) : Text := sign n ++ spell true n.natAbs

end Tilde.English
