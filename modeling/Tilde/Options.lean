import Tilde.Fault

/-!
# Printer options

* `Options`: how values are printed and lines are broken;
* `check`: the options that make sense from the start.
-/

namespace Tilde

/-- How values are printed. A missing right margin leaves lines as long as they are; a missing miser
width turns the miser style off; missing limits on depth and length are no limits. With an
`enclosure`, texts are printed between its two halves, and never quoted. -/
structure Options where
  rightMargin : Option Int := some 72
  miserWidth : Option Int := some 40
  base : Int := 10
  showRadix : Bool := false
  pretty : Bool := false
  escape : Bool := true
  level : Option Int := none
  length : Option Int := none
  enclosure : Option (Text × Text) := none
  deriving DecidableEq, Repr

/-- Refuses a margin below one and a radix out of range. -/
def Options.check (o : Options) : Except Fault Options :=
  if o.rightMargin.any (· ≤ 0) then .error .marginNotPositive
  else if o.base < 2 ∨ 36 < o.base then .error .radixOutOfRange
  else .ok o

end Tilde
