import Tilde.Directive.Malformed

/-!
# The clauses of a group

What the clauses and separators of a group stand for, by the kind of the group, and the checks that
a group has to pass when it is closed.

* `Block`: the parts of a logical block;
* `choices`, `fallback?`: the clauses of a conditional;
* `segments`, `overflow?`: the clauses of a justification;
* `closedGroup`: the checks.
-/

namespace Tilde

/-! ## Logical blocks -/

/-- The parts of a logical block: what is printed around it, what is printed at the start of each of
its lines, and its nodes. -/
structure Block where
  opening : Text
  perLine : Option Text
  closing : Text
  body : List Node

/-- The text of a clause that is nothing but text. -/
def plainText? : List Node → Option Text
  | [] => some []
  | .text s :: ns => (plainText? ns).map (s ++ ·)
  | .copies c count :: ns => (plainText? ns).map (List.replicate count c ++ ·)
  | _ => none

/-- Cuts a text at the ends of its runs of spaces. -/
def spaceRuns (s : Text) : List Text := s.splitBy fun a b => (a == ' ') == (b == ' ')

/-- Puts a fill-style conditional newline behind every run of spaces in the literal text. The
newlines have the span of the group. -/
def insertFills (start stop : Nat) : List Node → List Node
  | [] => []
  | .text s :: ns =>
    (spaceRuns s).flatMap (fun run =>
      if run.head? = some ' ' then
        [.text run, .atom .conditionalNewline ⟨[], [], true, false, start, stop⟩]
      else [.text run]) ++ insertFills start stop ns
  | n :: ns => n :: insertFills start stop ns

/-- The parts of a logical block from the clauses of a group with the heads of its opening
directive, its separators and its closing directive. A first separator with an at-sign makes the
first clause the start of every line. -/
def Block.ofClauses (head : Head) (clauses : List (List Node)) (separators : List Head)
    (closing : Head) : Except Complaint Block := do
  let text (clause : List Node) : Except Complaint Text :=
    match plainText? clause with
    | some s => .ok s
    | none => .error .blockText
  let (opening, body, ending) ← match clauses with
    | [body] =>
      .ok (if head.colon then ['('] else [], body, if head.colon then [')'] else [])
    | [opening, body] => do
      let s ← text opening
      .ok (s, body, if head.colon then [')'] else [])
    | [opening, body, ending] => do
      let s ← text opening
      let t ← text ending
      .ok (s, body, t)
    | _ => .error .blockSegments
  let everyLine := separators.head?.any (·.atSign)
  return {
    opening := if everyLine then [] else opening
    perLine := if everyLine then some opening else none
    closing := ending
    body := if closing.atSign then insertFills head.start closing.stop body else body }

/-! ## Conditionals -/

/-- The last separator has a colon: the last clause is the one for all other cases. -/
def hasFallback (separators : List Head) : Bool := separators.getLast?.any (·.colon)

/-- The numbered clauses of a conditional. -/
def choices (clauses : List (List Node)) (separators : List Head) : List (List Node) :=
  if hasFallback separators then clauses.dropLast else clauses

/-- The clause of a conditional for all other cases. -/
def fallback? (clauses : List (List Node)) (separators : List Head) : Option (List Node) :=
  if hasFallback separators then clauses.getLast? else none

/-! ## Justifications -/

/-- The first separator of a justification has a colon: the clause before it is for lines that
overflow. -/
def overflowSeparator? (separators : List Head) : Option Head :=
  separators.head?.filter (·.colon)

/-- The clauses of a justification that are justified. -/
def segments (clauses : List (List Node)) (separators : List Head) : List (List Node) :=
  if (overflowSeparator? separators).isSome then clauses.drop 1 else clauses

/-- The clause of a justification that is printed first if the line overflows. -/
def overflow? (clauses : List (List Node)) (separators : List Head) : Option (List Node) :=
  if (overflowSeparator? separators).isSome then clauses.head? else none

/-! ## Checks -/

def checkConditional (head : Head) (clauses : List (List Node)) (separators : List Head) :
    Except Complaint Group :=
  if head.colon ∧ clauses.length ≠ 2 then .error .twoSections
  else if !head.colon ∧ head.atSign ∧ clauses.length ≠ 1 then .error .oneSection
  else if separators.any (·.atSign) then .error .conditionalAtSign
  else if separators.dropLast.any (·.colon) ∨
      ((head.colon ∨ head.atSign) ∧ separators.any (·.colon)) then .error .conditionalColon
  else .ok .conditional

def checkBlock (head : Head) (clauses : List (List Node)) (separators : List Head)
    (closing : Head) : Except Complaint Group :=
  if separators.any (·.colon) then .error .blockColon
  else if (separators.drop 1).any (·.atSign) then .error .blockAtSign
  else (Block.ofClauses head clauses separators closing).map fun _ => .logicalBlock

def checkJustification (separators : List Head) (closing : Head) : Except Complaint Group :=
  if closing.atSign then .error .justificationClosing
  else if separators.any (·.atSign) then .error .justificationAtSign
  else if (separators.drop 1).any (·.colon) then .error .justificationColon
  else .ok .justification

/-- The kind of group that a bracket with these parts is. The closing directive decides whether
angle brackets justify their clauses or are a logical block. -/
def closedGroup (bracket : Bracket) (head : Head) (clauses : List (List Node))
    (separators : List Head) (closing : Head) : Except Complaint Group :=
  match bracket with
  | .conditional => checkConditional head clauses separators
  | .iteration => .ok .iteration
  | .caseConversion => .ok .caseConversion
  | .justification =>
    if closing.colon then checkBlock head clauses separators closing
    else checkJustification separators closing

end Tilde
