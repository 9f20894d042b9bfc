import Interpolation.Engine.Summary
import Interpolation.Main
import Interpolation.Proofs.Engine.Rendering
import Interpolation.Proofs.Expr.Display
import Interpolation.Proofs.Pattern.Step
import Interpolation.Proofs.Pattern.Stream
import Interpolation.Proofs.Engine.Embedding
import Interpolation.Proofs.Pattern.Contents
import Interpolation.Proofs.Engine.Operators
import Interpolation.Proofs.Engine.Masking
import Interpolation.Proofs.Engine.Registries
import Interpolation.Proofs.Catalog.Inlining
import Interpolation.Proofs.Engine.EvaluationOrder
import Interpolation.Proofs.Expr.Incomplete
import Interpolation.Proofs.Engine.FurtherArguments
import Interpolation.Proofs.Engine.Escaping
import Interpolation.Proofs.Engine.Grouping
import Interpolation.Proofs.Formatter.Printf.Grammar
import Interpolation.Proofs.Formatter.Printf.Generic
import Interpolation.Proofs.Engine.BareLabel
import Interpolation.Proofs.Decimal.Characters
import Interpolation.Proofs.Text.Ascii
import Interpolation.Proofs.Binary64
import Interpolation.Proofs.Formatter.Printf.Figures
import Interpolation.Proofs.Formatter.Printf.Width
import Interpolation.Proofs.Formatter.Printf.Radix
import Interpolation.Proofs.Formatter.History
import Interpolation.Proofs.Formatter.Clock.Seconds
import Interpolation.Proofs.Formatter.Clock.Layout
import Interpolation.Proofs.Catalog.Overlay
import Interpolation.Proofs.Value.Integers
import Interpolation.Proofs.Formatter.Mask
import Interpolation.Proofs.Engine.Rounds
import Interpolation.Proofs.Expr.Walking
