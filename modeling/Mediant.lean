import Mediant.Approximation
import Mediant.ArrayLibrary
import Mediant.Binary64.Arithmetic
import Mediant.Binary64.Basic
import Mediant.Binary64.Bits
import Mediant.Binary64.Narrowing
import Mediant.Binary64.Rounding
import Mediant.Bracket
import Mediant.Conversion
import Mediant.Decimal.Numeral
import Mediant.Decimal.PowerOfTen
import Mediant.Decimal.Printing
import Mediant.Decimal.Reading
import Mediant.Decimal.Shortest
import Mediant.Denominator
import Mediant.Entry
import Mediant.Extended
import Mediant.Fault
import Mediant.Fraction.Basic
import Mediant.Fraction.Order
import Mediant.Proofs.Bracket.Ceiling
import Mediant.Proofs.Bracket.Coarse
import Mediant.Proofs.Bracket.Exact
import Mediant.Proofs.Bracket.Growth
import Mediant.Proofs.Bracket.Noise
import Mediant.Proofs.Bracket.Rational
import Mediant.Proofs.Bracket.Regular
import Mediant.Proofs.Bracket.Run
import Mediant.Proofs.Bracket.Step
import Mediant.Proofs.Bracket.Tightening
import Mediant.Proofs.Faults
import Mediant.Proofs.Fraction.DoubleOrder
import Mediant.Proofs.Fraction.Equality
import Mediant.Proofs.Fraction.Order
import Mediant.Proofs.Fraction.Reduction
import Mediant.Proofs.Fraction.Rounded
import Mediant.Proofs.Fraction.Sign
import Mediant.Proofs.GreatestCommonDivisor
import Mediant.Proofs.LowestTerms
import Mediant.Proofs.Numbers
import Mediant.Proofs.Rounding.IntegerPart
import Mediant.Proofs.Rounding.Nearest
import Mediant.Proofs.Rounding.Operations
import Mediant.Proofs.Rounding.Parts
import Mediant.Proofs.Rounding.Range
import Mediant.Proofs.Rounding.Remainder
import Mediant.Proofs.Rounding.RoundOff
import Mediant.Proofs.Search.Accuracy
import Mediant.Proofs.Search.Ceiling
import Mediant.Proofs.Search.Checks
import Mediant.Proofs.Search.Enclosure
import Mediant.Proofs.Search.Flooring
import Mediant.Proofs.Search.Integers
import Mediant.Proofs.Search.Lattice
import Mediant.Proofs.Search.Mirror
import Mediant.Proofs.Search.Nearer
import Mediant.Proofs.Search.Opening
import Mediant.Proofs.Search.Overflow
import Mediant.Proofs.Search.Recovery
import Mediant.Proofs.Search.Splitting
import Mediant.Proofs.Search.Stages
import Mediant.Proofs.Search.Stopping
import Mediant.Proofs.Search.Structure
import Mediant.Proofs.Search.Termination
import Mediant.Proofs.Search.Unstopped
import Mediant.Proofs.Search.Warnings
import Mediant.Proofs.Search.Width
import Mediant.Proofs.Session
import Mediant.Proofs.Sorting.Balance
import Mediant.Proofs.Sorting.Boundary
import Mediant.Proofs.Sorting.Merge
import Mediant.Proofs.Sorting.Run
import Mediant.Proofs.Sorting.Stable
import Mediant.Proofs.Sorting.Values
import Mediant.Proofs.Tensor.Entrywise
import Mediant.Proofs.Tensor.Filling
import Mediant.Proofs.Tensor.Library
import Mediant.Proofs.Tensor.RowMajor
import Mediant.Rationalization
import Mediant.Reduction
import Mediant.Search
import Mediant.Session.Command
import Mediant.Session.Evaluation
import Mediant.Session.Run
import Mediant.Session.State
import Mediant.Settings
import Mediant.Sorting.Balance
import Mediant.Sorting.Boundary
import Mediant.Sorting.Merge
import Mediant.Sorting.Run
import Mediant.Splitting
import Mediant.Tensor
import Mediant.Tensor.Columns
import Mediant.Tensor.Library
import Mediant.Tensor.Printing
import Mediant.Text.CharacterClass
import Mediant.Text.Invisible
import Mediant.Text.Quoted
import Mediant.Value.Arithmetic
import Mediant.Value.Basic
import Mediant.Value.Comparison
import Mediant.Value.Entry
import Mediant.Value.HashKey
import Mediant.Value.Number
import Mediant.Value.Sorting
