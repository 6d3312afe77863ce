import Easel.Brush
import Easel.Canvas
import Easel.Canvas.Circle
import Easel.Canvas.Fill
import Easel.Canvas.Stroke
import Easel.Color
import Easel.Command
import Easel.Cursor
import Easel.Diagnostic
import Easel.Expr
import Easel.Fault
import Easel.Instruction
import Easel.Machine
import Easel.Machine.Run
import Easel.NameMap
import Easel.Number.Parts
import Easel.Number.Reading
import Easel.Number.Shortest
import Easel.Operator
import Easel.Point
import Easel.Position
import Easel.Program
import Easel.Program.Outline
import Easel.Program.Parser
import Easel.Proofs.CursorBounds
import Easel.Proofs.Evaluation
import Easel.Proofs.Execution
import Easel.Proofs.Grammar
import Easel.Proofs.ParserComplete
import Easel.Proofs.ParserSound
import Easel.Proofs.Printing
import Easel.Proofs.Scanning
import Easel.Proofs.Tree
import Easel.Scalar
import Easel.Scope
import Easel.Segment
import Easel.Text.CodeRange
import Easel.Text.Graphic
import Easel.Text.Letter
import Easel.Text.Numeral
import Easel.Text.Quoted
import Easel.Token
import Easel.Token.Lexer
import Easel.Value
import Easel.Proofs.Flat
import Easel.Proofs.Halting
import Easel.Proofs.LabelInsertion
import Easel.Proofs.Layout
import Easel.Proofs.Noninterference
import Easel.Proofs.Assignment
import Easel.Proofs.Frames
import Easel.Proofs.Checked
import Easel.Proofs.CheckedStrokes
import Easel.Proofs.Walk
import Easel.Proofs.Overflow
import Easel.Proofs.ViablePrefix
import Easel.Proofs.FirstImpossible
import Easel.Proofs.ForwardJumps
import Easel.Proofs.Lexemes
import Easel.Proofs.Lookahead
import Easel.Proofs.Relocation
import Easel.Proofs.Respacing
import Easel.Proofs.Legibility
import Easel.Proofs.Lines
import Easel.Proofs.Places
import Easel.Proofs.FaultPlaces
import Easel.Proofs.Filling
import Easel.Proofs.Stamping
import Easel.Proofs.PlainCircle
import Easel.Proofs.NumberText
import Easel.Proofs.Names
import Easel.Proofs.Outline
import Easel.Proofs.CallChecks
import Easel.Proofs.Strictness
import Easel.Proofs.Rounding
import Easel.Proofs.Doubles
import Easel.Proofs.Clipping
import Easel.Proofs.PlainLine
import Easel.Proofs.PaintSets
import Easel.Proofs.ExactClipping
import Easel.Proofs.StraightLines
import Easel.Proofs.RectangleBorder
import Easel.Proofs.NearestColumns
import Easel.Proofs.CircleRing
import Easel.Proofs.Truncation
import Easel.Proofs.LexicalFaults
import Easel.Proofs.ScopeStacks
import Easel.Proofs.ColorCount
import Easel.Proofs.BrushDisk
import Easel.Proofs.RealClipping
import Easel.Proofs.Positional
import Easel.Proofs.PositionalAgreement
import Easel.Proofs.Progress
import Easel.Proofs.WordStrokes
import Easel.Proofs.Roots
import Easel.Proofs.CanvasGrid
