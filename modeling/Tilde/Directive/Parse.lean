import Tilde.Directive.Prologue
import Tilde.Directive.Section

/-!
# Reading control strings

A control string is cut into lexemes, runs of literal text and single directives, and the lexemes
are put together to a list of nodes by a builder that keeps the groups still open.

* `readLexeme?`: the next lexeme, which takes at least one character;
* `Builder.add`, `Builder.finish`: the tree;
* `parse`: the nodes of a control string, or what is wrong with it.
-/

namespace Tilde

/-! ## Lexemes -/

/-- A run of literal text, copies of a character, or a directive on its own. -/
inductive Lexeme
  | text (s : Text)
  | copies (c : Char) (count : Nat)
  | directive (command : Command) (head : Head)

/-- The character that a directive repeats. -/
def Command.repeated? : Command → Option Char
  | .atom .newline => some '\n'
  | .atom .page => some (Char.ofNat 12)
  | .atom .tilde => some '~'
  | _ => none

/-- Checks a directive on its own. -/
def checkHead (command : Command) (head : Head) : Except Malformed Unit :=
  match command.permission.check head.colon head.atSign with
  | some complaint => .error (.located head.start complaint)
  | none =>
    checkParameters command.parameters (head.parameters.zip head.offsets) head.start

/-- The lexeme of a directive: a repeated character with a count that is known is just text, and so
is the end of a line. -/
def Lexeme.ofDirective (command : Command) (head : Head) : Except Malformed Lexeme :=
  match command, command.repeated? with
  | .continuation, _ =>
    if !head.parameters.isEmpty then .error (.located head.start .noParameters)
    else if head.colon ∧ head.atSign then .error (.located head.start .notBothModifiers)
    else .ok (.text (if head.atSign then ['\n'] else []))
  | _, some c =>
    if head.colon ∨ head.atSign then .error (.located head.start .noModifiers)
    else match head.parameters with
      | [] => .ok (.text [c])
      | [.number n] =>
        match Text.asCount n with
        | .ok count => .ok (.copies c count)
        | .error e => .error (.excessive e)
      | _ => (checkHead command head).map fun _ => .directive command head
  | _, none => (checkHead command head).map fun _ => .directive command head

/-- Skips the spaces and tabs at the start of the line after a continuation. -/
def Remainder.skipIndentation (r : Remainder) : Remainder :=
  let blank (c : Char) := c == ' ' || c == '\t'
  ⟨r.text.dropWhile blank, r.offset + (r.text.takeWhile blank).length⟩

/-- Reads the directive whose tilde stands at `start`, after the tilde. -/
def readDirective (start : Nat) (r : Remainder) : Except Malformed (Lexeme × Remainder) := do
  let (given, r1) ← scanParameters r
  let (colon, atSign, r2) ← scanModifiers false false r1.text r1.offset
  match r2.text with
  | [] => .error (.located start .unterminated)
  | c :: s =>
    match Command.ofChar? c with
    | none => .error (.located start .unknownDirective)
    | some command =>
      let lexeme ← Lexeme.ofDirective command
        ⟨given.map (·.1), given.map (·.2), colon, atSign, start, r2.offset + 1⟩
      let rest : Remainder := ⟨s, r2.offset + 1⟩
      return (lexeme, if command = .continuation ∧ !colon then rest.skipIndentation else rest)

/-- Reads the next lexeme, if the text is not at its end. -/
def readLexeme? (r : Remainder) : Except Malformed (Option (Lexeme × Remainder)) :=
  match r.text with
  | [] => .ok none
  | '~' :: s => (readDirective r.offset ⟨s, r.offset + 1⟩).map some
  | c :: s =>
    let run := s.takeWhile (· != '~')
    .ok (some (.text (c :: run), ⟨s.dropWhile (· != '~'), r.offset + 1 + run.length⟩))

theorem length_le_of_readDirective {start : Nat} {r r' : Remainder} {x : Lexeme}
    (h : readDirective start r = .ok (x, r')) : r'.text.length ≤ r.text.length := by
  unfold readDirective at h
  cases hp : scanParameters r with
  | error e => simp [hp, bind, Except.bind] at h
  | ok given =>
    cases hm : scanModifiers false false given.2.text given.2.offset with
    | error e => simp [hp, hm, bind, Except.bind] at h
    | ok seen =>
      have h1 : given.2.text.length ≤ r.text.length := length_le_of_scanParameters hp
      have h2 : seen.2.2.text.length ≤ given.2.text.length := length_le_of_scanModifiers hm
      simp only [hp, hm, bind, Except.bind] at h
      split at h
      · simp at h
      · rename_i c s hs
        rw [hs, List.length_cons] at h2
        split at h
        · simp at h
        · split at h
          · simp at h
          · simp only [pure, Except.pure, Except.ok.injEq, Prod.mk.injEq] at h
            rw [← h.2]
            split
            · have := (List.dropWhile_suffix (l := s)
                fun c => c == ' ' || c == '\t').length_le
              simp only [Remainder.skipIndentation]; omega
            · simp only; omega

theorem length_lt_of_readLexeme {r r' : Remainder} {x : Lexeme}
    (h : readLexeme? r = .ok (some (x, r'))) : r'.text.length < r.text.length := by
  unfold readLexeme? at h
  split at h
  · simp at h
  · rename_i s hs
    cases hd : readDirective r.offset ⟨s, r.offset + 1⟩ with
    | error e => simp [hd, Except.map] at h
    | ok found =>
      simp only [hd, Except.map, Except.ok.injEq, Option.some.injEq] at h
      subst h
      have := length_le_of_readDirective hd
      rw [hs, List.length_cons]
      simp only at this; omega
  · rename_i c s _ hs
    simp only [Except.ok.injEq, Option.some.injEq, Prod.mk.injEq] at h
    rw [← h.2, hs, List.length_cons]
    have := (List.dropWhile_suffix (l := s) (· != '~')).length_le
    simp only; omega

/-! ## The tree -/

/-- A group that is still open. Nodes, clauses and separators are kept latest first. -/
structure Frame where
  bracket : Bracket
  head : Head
  clauses : List (List Node)
  current : List Node
  separators : List Head

/-- The groups still open, innermost first, and the nodes outside of them, latest first. -/
structure Builder where
  frames : List Frame
  nodes : List Node

/-- Adds a node to the innermost open group. -/
def Builder.push (b : Builder) (n : Node) : Builder :=
  match b.frames with
  | [] => { b with nodes := n :: b.nodes }
  | f :: fs => { b with frames := { f with current := n :: f.current } :: fs }

/-- The node of a group that is closed now. -/
def Frame.close (f : Frame) (closing : Head) : Except Malformed Node :=
  let clauses := (f.current.reverse :: f.clauses).reverse
  let separators := f.separators.reverse
  match closedGroup f.bracket f.head clauses separators closing with
  | .error complaint => .error (.located f.head.start complaint)
  | .ok kind =>
    .ok (.group kind { f.head with stop := closing.stop } clauses separators closing)

/-- The innermost iteration that is open goes over sublists. -/
def Builder.inSublists (b : Builder) : Bool :=
  (b.frames.find? (·.bracket == .iteration)).any (·.head.colon)

/-- How many groups can be open at a time. -/
def greatestDepth : Nat := 980

/-- Takes the next lexeme into the tree. -/
def Builder.add (b : Builder) : Lexeme → Except Malformed Builder
  | .text s => .ok (if s.isEmpty then b else b.push (.text s))
  | .copies c count => .ok (if count = 0 then b else b.push (.copies c count))
  | .directive .continuation _ => .ok b
  | .directive (.atom kind) head =>
    if kind = .escape ∧ head.colon ∧ !b.inSublists then
      .error (.located head.start .escapeOutsideSublists)
    else .ok (b.push (.atom kind head))
  | .directive (.opening bracket) head =>
    if greatestDepth ≤ b.frames.length then .error .tooDeep
    else .ok { b with frames := ⟨bracket, head, [], [], []⟩ :: b.frames }
  | .directive .separator head =>
    match b.frames with
    | [] => .error (.located head.start .noOpening)
    | f :: fs =>
      if f.bracket.hasClauses then
        .ok { b with
          frames := { f with
            clauses := f.current.reverse :: f.clauses
            current := []
            separators := head :: f.separators } :: fs }
      else .error (.located head.start .separatorNotPermitted)
  | .directive (.closing bracket) head =>
    match b.frames with
    | [] => .error (.located head.start .noOpening)
    | f :: fs =>
      if f.bracket = bracket then
        (f.close head).map fun n => Builder.push { b with frames := fs } n
      else .error (.located head.start .mismatchedClosing)

/-- The nodes, if no group is open any more. -/
def Builder.finish (b : Builder) : Except Malformed (List Node) :=
  match b.frames with
  | [] => .ok b.nodes.reverse
  | f :: _ => .error (.located f.head.start .noClosing)

/-- Takes all lexemes of the text into the tree. -/
def parseFrom (b : Builder) (r : Remainder) : Except Malformed (List Node) :=
  match _ : readLexeme? r with
  | .error e => .error e
  | .ok none => b.finish
  | .ok (some (x, r')) =>
    match b.add x with
    | .error e => .error e
    | .ok b' => parseFrom b' r'
termination_by r.text.length
decreasing_by exact length_lt_of_readLexeme (by assumption)

/-- The nodes of a control string. -/
def parse (control : Text) : Except Malformed (List Node) := parseFrom ⟨[], []⟩ ⟨control, 0⟩

end Tilde
