import Tilde.Column
import Tilde.Layout.Buffer
import Tilde.Number.Arithmetic
import Tilde.Text.Blank

/-!
# The pretty printer

Text goes straight to a column stream until a conditional newline comes. From then on everything is
buffered as tokens, until the line is too long or the output is flushed; then it is decided which of
the newlines break.

* `PrinterState`, `Printer`: the state, and what went wrong during an operation;
* `settle`, `writeLine`: break what does not fit, sections inside of sections, as deeply as `room`
  allows;
* `writeBuffered`: output everything;
* `write`, `begin`, `finish`, `newline`, `indent`, `flush`, `close`: the operations.

Lines are laid out by total functions. An indentation that cannot be written is recorded where it
occurs, together with the state at that time, and becomes the outcome of the operation.
-/

namespace Tilde

/-- A logical block: the texts around it, the text at the start of each of its lines, and what the
printer knows about it. `lead` is what its lines begin with; `broken` says that a newline has broken
in it, `brokenInside` that the last one did in a block inside of it. -/
structure BlockState where
  opening : Text := []
  perLine : Text := []
  closing : Text := []
  startColumn : Int := 0
  indent : Number := .integer 0
  broken : Bool := false
  brokenInside : Bool := false
  lead : Text := []
  deriving DecidableEq, Repr

/-- What an observer of the printer is told: a block's start or its end has been output. -/
inductive BlockEvent
  | start
  | finish
  deriving DecidableEq, Repr

/-- The state of a pretty printer. Blocks are kept in a table, the outermost level first, which is
no block that anybody has begun; `path` is the current block and those around it. `held` is white
space that is written unless a line break follows. Of what observers are told, the last comes first.
`room` is how many sections may be broken up inside each other, if there is a bound. -/
structure PrinterState where
  base : Column
  options : Options
  blocks : Array BlockState := #[{}]
  path : Path := [0]
  buffering : Bool := false
  pending : Buffer := .empty
  position : Nat := 0
  held : Text := []
  closed : Bool := false
  told : List BlockEvent := []
  room : Option Nat := none

/-- A pretty printer. While an operation runs, `stopped` is the first thing that has gone wrong in
it, with the state as it was then. -/
structure Printer extends PrinterState where
  stopped : Option (Fault × PrinterState) := none

/-- An operation has failed: why, and the printer as it was left. -/
structure Printer.Stop where
  fault : Fault
  printer : Printer

/-- The spaces at the start of a line of the block, after its lead. -/
def BlockState.indentation (b : BlockState) : Except Fault Text :=
  match b.indent with
  | .integer n => Fault.bounded (Text.repeated [' '] (n - b.lead.length))
  | _ => .error .wrongType

namespace Printer

/-! ## The state -/

/-- A printer on an empty sink, with its right margin at `width`, or where the options have it. -/
def create (options : Options) (width : Option Int) (column : Int) : Except Fault Printer :=
  if width.any (· ≤ 0) then .error .marginNotPositive
  else
    let options :=
      if width.isSome then { options with rightMargin := width } else options
    .ok {
      base := { column := column, maxColumn := options.rightMargin, options := options }
      options := options }

/-- The block with this index. -/
def block (p : Printer) (i : Nat) : BlockState := p.blocks.getD i {}

/-- The index of the current block. -/
def current (p : Printer) : Nat := p.path.headD 0

/-- How many blocks are open. -/
def depth (p : Printer) : Nat := p.path.length - 1

/-- Changes the block with this index. -/
def modifyBlock (p : Printer) (i : Nat) (f : BlockState → BlockState) : Printer :=
  { p with blocks := p.blocks.modify i f }

/-- What observers have been told. -/
def events (p : Printer) : List BlockEvent := p.told.reverse

/-- Tells observers of an event. -/
def tell (p : Printer) (e : BlockEvent) : Printer := { p with told := e :: p.told }

/-- Records that something has gone wrong, unless something has before. -/
def stop (p : Printer) (e : Fault) : Printer :=
  if p.stopped.isSome then p else { p with stopped := some (e, p.toPrinterState) }

/-- The outcome of an operation. -/
def conclude (p : Printer) : Except Stop Printer :=
  match p.stopped with
  | none => .ok p
  | some (e, s) => .error ⟨e, { toPrinterState := s }⟩

/-- The buffered tokens. -/
def buffer (p : Printer) : List Token := p.pending.toList

/-- The column in which the next character will stand if no newline breaks. -/
def column (p : Printer) : Int :=
  p.base.column + p.held.length +
    match p.pending.first? with
    | none => 0
    | some t => (p.position : Int) - t.start

/-- So many characters fit on the current line. -/
def hasRoom (p : Printer) (extent : Int) : Bool :=
  match p.base.maxColumn with
  | none => true
  | some limit => decide (p.base.column + extent < limit)

/-- The tokens fit on the current line. -/
def fits (p : Printer) (tokens : List Token) : Bool := p.hasRoom (Token.extent tokens)

/-- The buffered tokens fit on the current line. -/
def bufferFits (p : Printer) : Bool := p.hasRoom p.pending.extent

theorem bufferFits_eq (p : Printer) : p.bufferFits = p.fits p.buffer := by
  rw [bufferFits, Buffer.extent_eq, fits, buffer]

/-- The block starts so near to the right margin that the miser style is on. -/
def isMiserly (p : Printer) (i : Nat) : Bool :=
  match p.options.miserWidth, p.base.maxColumn with
  | some width, some limit => decide (limit - width ≤ (p.block i).startColumn)
  | _, _ => false

/-- A miser newline of the block breaks before the section. -/
def miserBreaks (p : Printer) (i : Nat) (tokens : List Token) : Bool :=
  p.isMiserly i && ((p.block i).broken || !p.fits tokens)

/-- Whether a newline breaks, given the section and the subsection behind it. -/
def breaks (p : Printer) (kind : NewlineKind) (i : Nat) (tokens subtokens : List Token) : Bool :=
  match kind with
  | .linear => (p.block i).broken || !p.fits tokens
  | .miser => p.miserBreaks i tokens
  | .fill => (p.block i).brokenInside || !p.fits subtokens || p.miserBreaks i tokens
  | .mandatory | .literal => true

/-- Whether a newline breaks when everything behind it is known to fit: only if an earlier line
break wants it to. -/
def breaksAnyway (p : Printer) (kind : NewlineKind) (i : Nat) : Bool :=
  match kind with
  | .mandatory => true
  | .linear => (p.block i).broken
  | .miser => (p.block i).broken && p.isMiserly i
  | .fill | .literal => false

/-! ## Output -/

/-- Writes a text to the stream below. -/
def put (p : Printer) (s : Text) : Printer := { p with base := p.base.write s }

/-- Writes the white space held back. -/
def putHeld (p : Printer) : Printer := { p.put p.held with held := [] }

/-- Records that a newline has broken in the block of the path. -/
def markBroken (p : Printer) : Path → Printer
  | [] => p
  | i :: around =>
    around.foldl
      (fun p j => p.modifyBlock j fun b => { b with broken := true, brokenInside := true })
      (p.modifyBlock i fun b => { b with broken := true, brokenInside := false })

/-- Writes a text that may be impossible to make. -/
def putOrStop (p : Printer) (s : Except Fault Text) : Printer :=
  match s with
  | .ok s => p.put s
  | .error e => p.stop e

/-- Breaks the line for a newline of the block of the path: the held white space is dropped, and the
new line begins with the block's lead and indentation. -/
def breakLine (p : Printer) (path : Path) : Printer :=
  let b := p.block (path.headD 0)
  let p := { p.put ['\n'] with held := [] }
  ((p.put b.lead).putOrStop b.indentation).markBroken path

/-- What the lines of a block begin with whose per-line text begins in a column. -/
def leadBelow (parentLead perLine : Text) (column : Int) : Except Fault Text :=
  if perLine.isEmpty then .ok parentLead
  else do
    let gap ← Fault.bounded (Text.repeated [' '] (column - parentLead.length))
    return parentLead ++ gap ++ perLine

/-- Outputs the start of a block: its opening text and the first of its per-line texts. Where the
latter begins, it begins on all lines of the block; where it ends, the block starts. -/
def startBlock (p : Printer) (path : Path) : Printer :=
  let i := path.headD 0
  let b := p.block i
  let parentLead := match path.tail with
    | j :: _ => (p.block j).lead
    | [] => []
  let p := (p.tell .start).put b.opening
  match leadBelow parentLead b.perLine p.base.column with
  | .error e => p.stop e
  | .ok lead =>
    let p := p.put b.perLine
    let column := p.base.column
    p.modifyBlock i fun b =>
      { b with lead := lead, startColumn := column, indent := .integer column }

/-- Outputs the end of a block. -/
def endBlock (p : Printer) (path : Path) : Printer :=
  (p.put (p.block (path.headD 0)).closing).tell .finish

/-- Sets the indentation of the block: relative to the current column, held white space included, or
to the column where the block starts. -/
def setIndent (p : Printer) (path : Path) (offset : Option Number) (relative : Bool) : Printer :=
  let i := path.headD 0
  let origin :=
    if relative then p.base.column + p.held.length else (p.block i).startColumn
  let indent : Except Fault Number := match offset with
    | some n => (Number.integer origin).plus n
    | none => .error .wrongType
  match indent with
  | .ok n => p.modifyBlock i fun b => { b with indent := n }
  | .error e => p.stop e

/-- Outputs a token, everything behind it being known to fit. -/
def putToken (p : Printer) (t : Token) : Printer :=
  match t.kind with
  | .indent path offset relative => p.setIndent path offset relative
  | .newline kind path =>
    if p.breaksAnyway kind (path.headD 0) then p.breakLine path else p.putHeld
  | .text body trailing => { p.putHeld.put body with held := trailing }
  | .blockStart path => p.putHeld.startBlock path
  | .blockEnd path => p.putHeld.endBlock path

/-- Outputs tokens. -/
def putTokens (p : Printer) (tokens : List Token) : Printer := tokens.foldl putToken p

/-! ## Breaking lines -/

/-- Outputs tokens up to the first newline whose fate can be decided, and returns those still to be
output. If what follows the newline does not fit, its section is broken up, too, unless that goes
too deep. -/
def settle (p : Printer) (room : Option Nat) (tokens : List Token) : Printer × List Token :=
  if room = some 0 then (p.stop .tooDeep, [])
  else
    let p := p.putTokens (tokens.takeWhile fun t => !t.isNewline)
    match _ : tokens.dropWhile fun t => !t.isNewline with
    | [] => (p, [])
    | t :: following =>
      match t.kind with
      | .newline kind path =>
        let stretch := Token.sectionOf path following
        let (p, result) :=
          if p.breaks kind (path.headD 0) stretch (Token.subsectionOf path following) then
            (p.breakLine path, following)
          else (p, t :: following)
        if p.fits result then (p, result)
        else
          let (p, rest) := p.settle (room.map (· - 1)) stretch
          if rest.length = stretch.length then
            (p.putTokens stretch, Token.afterSection path following)
          else (p, rest ++ Token.afterSection path following)
      | _ => (p, t :: following)
termination_by tokens.length
decreasing_by
  rename_i h _
  have h1 := (List.dropWhile_suffix (l := tokens) fun t => !t.isNewline).length_le
  have h2 := Token.length_sectionOf_le path following
  rw [h, List.length_cons] at h1
  omega

/-- Settles newlines until the tokens that are left fit. -/
def writeLine (p : Printer) (tokens : List Token) : Printer × List Token :=
  if p.fits tokens then (p, tokens)
  else
    let (p', rest) := p.settle p.room tokens
    if rest.length < tokens.length then p'.writeLine rest else (p', tokens)
termination_by tokens.length

/-- Takes a token into the buffer; if the line gets too long, settles newlines. -/
def enqueue (p : Printer) (t : Token) : Printer :=
  let p := { p with pending := p.pending.push t }
  if p.bufferFits then p
  else
    let (p', rest) := p.writeLine p.buffer
    { p' with pending := .ofList rest, buffering := !rest.isEmpty && p'.buffering }

/-- Outputs the whole buffer. -/
def writeBuffered (p : Printer) : Printer :=
  let (p', rest) := p.writeLine p.buffer
  let p' :=
    if rest.isEmpty then p' else ({ p' with pending := .ofList rest }.putTokens rest).putHeld
  { p' with pending := .empty, buffering := false }

/-! ## Operations -/

/-- Appends a token of a width to the output. -/
def append (p : Printer) (width : Nat) (kind : TokenKind) : Printer :=
  let start := p.position
  { p with position := start + width }.enqueue ⟨start, start + width, kind⟩

/-- Writes a text without line breaks. White space at its end is held back. -/
def writeText (p : Printer) (s : Text) : Printer :=
  if s.isEmpty then p
  else
    let (body, trailing) := Text.splitTrailing s
    if p.buffering then p.append s.length (.text body trailing)
    else { p.putHeld.put body with held := trailing }

/-- Breaks the line where a written text has a line break: nothing is dropped, and only the block's
lead goes to the new line. -/
def literalNewline (p : Printer) : Printer :=
  let p := p.writeBuffered.putHeld
  (p.put ('\n' :: (p.block p.current).lead)).markBroken p.path

/-- Takes a conditional newline of the current block. -/
def conditionalNewline (p : Printer) (kind : NewlineKind) : Printer :=
  if kind = .literal then p.literalNewline
  else { p with buffering := true }.append 0 (.newline kind p.path)

/-- Writes a text, whose line breaks are literal. -/
def writeLines (p : Printer) : Text → Text → Printer
  | acc, [] => p.writeText acc.reverse
  | acc, c :: s =>
    if c = '\n' then (p.writeText acc.reverse).literalNewline.writeLines [] s
    else p.writeLines (c :: acc) s

/-- Opens a block and outputs its start. -/
def openBlock (p : Printer) (opening perLine closing : Text) : Printer :=
  let path := p.blocks.size :: p.path
  let fresh : BlockState := {
    opening := opening, perLine := perLine, closing := closing
    lead := (p.block p.current).lead }
  if p.buffering then
    let width := opening.length + perLine.length
    let column := p.column + width
    { p with
      blocks := p.blocks.push { fresh with startColumn := column, indent := .integer column }
      path := path }.append width (.blockStart path)
  else
    { p.putHeld with blocks := p.blocks.push fresh, path := path }.startBlock path

/-- Outputs the end of the current block and closes it. -/
def closeBlock (p : Printer) : Printer :=
  let p' :=
    if p.buffering then p.append (p.block p.current).closing.length (.blockEnd p.path)
    else p.putHeld.endBlock p.path
  { p' with path := p.path.tail }

/-- Refuses an operation on a closed printer. -/
def whileOpen (p : Printer) : Except Stop Unit :=
  if p.closed then .error ⟨.closedStream, p⟩ else .ok ()

/-- Writes a text. -/
def write (p : Printer) (s : Text) : Except Stop Printer := do
  p.whileOpen
  (p.writeLines [] s).conclude

/-- Begins a logical block, unless so many are open already. -/
def begin (p : Printer) (opening perLine closing : Text) (level : Option Int) :
    Except Stop Printer := do
  p.whileOpen
  if level.any fun n => decide (n ≤ (p.depth : Int)) then throw ⟨.levelExceeded p.depth, p⟩
  else (p.openBlock opening perLine closing).conclude

/-- Ends the current logical block. -/
def finish (p : Printer) : Except Stop Printer := do
  p.whileOpen
  if p.depth = 0 then throw ⟨.noOpenBlock, p⟩ else p.closeBlock.conclude

/-- Takes a newline of the current block. -/
def newline (p : Printer) (kind : NewlineKind) : Except Stop Printer := do
  p.whileOpen
  (p.conditionalNewline kind).conclude

/-- Sets the indentation of the current block. -/
def indent (p : Printer) (offset : Option Number) (relative : Bool) : Except Stop Printer := do
  p.whileOpen
  if p.buffering then (p.append 0 (.indent p.path offset relative)).conclude
  else (p.setIndent p.path offset relative).conclude

/-- Outputs everything, deciding all newlines. -/
def flush (p : Printer) : Except Stop Printer := p.writeBuffered.putHeld.conclude

/-- Ends the line, unless it is empty; tells whether it did. -/
def freshLine (p : Printer) : Except Stop (Bool × Printer) :=
  if 0 < p.column then (p.write ['\n']).map (true, ·) else .ok (false, p)

/-- Outputs everything and closes the printer, unless a block is open; the output is flushed in any
case. -/
def close (p : Printer) : Except Stop Printer := do
  if p.closed then return p
  else
    let p ← p.flush
    if p.depth = 0 then return { p with closed := true } else throw ⟨.unclosedBlock, p⟩

end Printer

end Tilde
