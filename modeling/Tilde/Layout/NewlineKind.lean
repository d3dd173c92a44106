/-!
# Conditional newlines

The rules by which a newline may become a line break.
-/

namespace Tilde

/-- When a newline breaks the line: a linear one together with all linear ones of its block, a fill
one when what follows it does not fit, a miser one only near the right margin, a mandatory and a
literal one always. A literal one keeps the white space before it. -/
inductive NewlineKind
  | linear
  | fill
  | miser
  | mandatory
  | literal
  deriving DecidableEq, Repr

end Tilde
