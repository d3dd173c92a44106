import Tilde.Text.Alphanumeric
import Tilde.Text.Blank
import Tilde.Text.CharacterName
import Tilde.Text.DecimalDigit
import Tilde.Text.LetterCase
import Tilde.Text.Printable
import Tilde.Text.Size
import Tilde.Binary64
import Tilde.Binary64.Arithmetic
import Tilde.Decimal.Basic
import Tilde.Decimal.Arithmetic
import Tilde.Decimal.Shortest
import Tilde.English
import Tilde.Radix
import Tilde.Roman
import Tilde.Decimal.Exponential
import Tilde.Decimal.Monetary
import Tilde.Directive.Basic
import Tilde.Directive.Signature
import Tilde.Directive.Malformed
import Tilde.Directive.Prologue
import Tilde.Directive.Parse
import Tilde.Number.Basic
import Tilde.Number.Order
import Tilde.Number.Arithmetic
import Tilde.Value.Order
import Tilde.Value.Arithmetic
import Tilde.Value.Written
import Tilde.Fault.Custom
import Tilde.Cursor
import Tilde.Options
import Tilde.Column
import Tilde.Fold
import Tilde.Text.CharacterForm
import Tilde.Layout.Printer
import Tilde.Print
import Tilde.Stream.Value
import Tilde.Field.Integer
import Tilde.Field.Padded
import Tilde.Dynamic.Digits
import Tilde.Dynamic.Integer
import Tilde.Dynamic.Real
import Tilde.Dynamic.Padded
import Tilde.Dynamic.Character
import Tilde.Format.Formatter
import Tilde.Walk
import Tilde.Proofs.Column
import Tilde.Proofs.Cut.Congruent
import Tilde.Proofs.Cut.Write
import Tilde.Proofs.Decimal.Agreement
import Tilde.Proofs.Decimal.Concord
import Tilde.Proofs.Decimal.Digits
import Tilde.Proofs.Decimal.Exponential
import Tilde.Proofs.Decimal.Filled
import Tilde.Proofs.Decimal.Fitted
import Tilde.Proofs.Decimal.FixedField
import Tilde.Proofs.Decimal.General
import Tilde.Proofs.Decimal.Leading
import Tilde.Proofs.Decimal.Lossless
import Tilde.Proofs.Decimal.Monetary
import Tilde.Proofs.Decimal.Parts
import Tilde.Proofs.Decimal.Positional
import Tilde.Proofs.Decimal.Range
import Tilde.Proofs.Decimal.Rounding
import Tilde.Proofs.Decimal.Scientific
import Tilde.Proofs.Decimal.Significant
import Tilde.Proofs.Decimal.Spelled
import Tilde.Proofs.Directive.Alike
import Tilde.Proofs.Directive.Bracketed
import Tilde.Proofs.Directive.Build
import Tilde.Proofs.Directive.Extent
import Tilde.Proofs.Directive.Governed
import Tilde.Proofs.Directive.Joined
import Tilde.Proofs.Directive.Leaves
import Tilde.Proofs.Directive.Parameters
import Tilde.Proofs.Directive.Refusal
import Tilde.Proofs.Directive.Reread
import Tilde.Proofs.Directive.Respelled
import Tilde.Proofs.Directive.Shifted
import Tilde.Proofs.Directive.Undivided
import Tilde.Proofs.English.Ordinal
import Tilde.Proofs.English.Reading
import Tilde.Proofs.English.Spelling
import Tilde.Proofs.Field.Justified
import Tilde.Proofs.Field.ZeroFilled
import Tilde.Proofs.Fold.Aloof
import Tilde.Proofs.Fold.Joined
import Tilde.Proofs.Fold.Pieces
import Tilde.Proofs.Fold.Refused
import Tilde.Proofs.Fold.Request
import Tilde.Proofs.Fold.Route
import Tilde.Proofs.Fold.Spared
import Tilde.Proofs.Layout.Buffered
import Tilde.Proofs.Layout.Extent
import Tilde.Proofs.Layout.Fatal
import Tilde.Proofs.Layout.Forced
import Tilde.Proofs.Layout.Ink
import Tilde.Proofs.Layout.Invariant
import Tilde.Proofs.Layout.Nested
import Tilde.Proofs.Layout.Operation
import Tilde.Proofs.Layout.Output
import Tilde.Proofs.Layout.Progress
import Tilde.Proofs.Layout.Rolled
import Tilde.Proofs.Layout.Rooted
import Tilde.Proofs.Layout.Run
import Tilde.Proofs.Layout.Safe
import Tilde.Proofs.Layout.Scroll
import Tilde.Proofs.Layout.Settle
import Tilde.Proofs.Layout.Stroke
import Tilde.Proofs.Layout.Stroking
import Tilde.Proofs.Layout.Unbroken
import Tilde.Proofs.Layout.Written
import Tilde.Proofs.Linear.Calm
import Tilde.Proofs.Linear.Direct
import Tilde.Proofs.Linear.Laid
import Tilde.Proofs.Linear.Law
import Tilde.Proofs.Linear.Queued
import Tilde.Proofs.Linear.Section
import Tilde.Proofs.Linear.Steady
import Tilde.Proofs.Linear.Tracks
import Tilde.Proofs.Linear.Uneven
import Tilde.Proofs.Message.Caret
import Tilde.Proofs.Message.Naming
import Tilde.Proofs.Message.Puts
import Tilde.Proofs.Message.Wording
import Tilde.Proofs.Print.Abridged
import Tilde.Proofs.Print.Display
import Tilde.Proofs.Print.Element
import Tilde.Proofs.Print.Exact
import Tilde.Proofs.Print.Faithful
import Tilde.Proofs.Print.Line
import Tilde.Proofs.Print.Literal
import Tilde.Proofs.Print.Margin
import Tilde.Proofs.Print.Numeral
import Tilde.Proofs.Print.Respaced
import Tilde.Proofs.Print.Uttered
import Tilde.Proofs.Print.Value
import Tilde.Proofs.Radix.Digits
import Tilde.Proofs.Radix.Groups
import Tilde.Proofs.Radix.Numeral
import Tilde.Proofs.Run.Alongside
import Tilde.Proofs.Run.Balanced
import Tilde.Proofs.Run.Inlined
import Tilde.Proofs.Run.Inner
import Tilde.Proofs.Run.Inside
import Tilde.Proofs.Run.Interchange
import Tilde.Proofs.Run.Justification
import Tilde.Proofs.Run.Mirrored
import Tilde.Proofs.Run.Mirroring
import Tilde.Proofs.Run.Moves
import Tilde.Proofs.Run.Orderly
import Tilde.Proofs.Run.Passes
import Tilde.Proofs.Run.Portable
import Tilde.Proofs.Run.Position
import Tilde.Proofs.Run.Printerless
import Tilde.Proofs.Run.Rule
import Tilde.Proofs.Run.Sublists
import Tilde.Proofs.Run.Supplied
import Tilde.Proofs.Run.Tandem
import Tilde.Proofs.Run.Unpadded
import Tilde.Proofs.Sheet.Ending
import Tilde.Proofs.Sheet.Follow
import Tilde.Proofs.Sheet.Rules
import Tilde.Proofs.Sheet.Shows
import Tilde.Proofs.Sheet.Spells
import Tilde.Proofs.Sheet.Unharmed
import Tilde.Proofs.Value.Integer
