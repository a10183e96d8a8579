import DeskCalc.Binary.SquareRoot
import DeskCalc.Expression
import DeskCalc.Factorial
import DeskCalc.Main
import DeskCalc.NumberType
import DeskCalc.Registers
import DeskCalc.Rendering
import DeskCalc.Proofs.Settling
import DeskCalc.Proofs.Balance
import DeskCalc.Proofs.Reading
import DeskCalc.Proofs.Refinement
import DeskCalc.Proofs.Scanning
import DeskCalc.Proofs.MissingOperand
import DeskCalc.Proofs.DivisionByZero
import DeskCalc.Proofs.Squaring
import DeskCalc.Proofs.Trace
import DeskCalc.Proofs.RuntimeErrors
import DeskCalc.Proofs.Acceptance
import DeskCalc.Proofs.Congruence
import DeskCalc.Proofs.Brackets
import DeskCalc.Proofs.Alternation
import DeskCalc.Proofs.Layout
import DeskCalc.Proofs.Keystrokes
import DeskCalc.Proofs.WholeRegisters
import DeskCalc.Proofs.Printing
import DeskCalc.Proofs.Operands
import DeskCalc.Proofs.RunningValue
import DeskCalc.Proofs.Messages
import DeskCalc.Proofs.Arguments
import DeskCalc.Proofs.Requests
import DeskCalc.Proofs.ExpressionRuns
import DeskCalc.Proofs.LineEnds
import DeskCalc.Proofs.FileRuns
import DeskCalc.Proofs.FileNames
import DeskCalc.Proofs.UnreadableFiles
import DeskCalc.Proofs.VanishingPowers
import DeskCalc.Proofs.IntegerLiterals
import DeskCalc.Proofs.IntegerPowers
import DeskCalc.Proofs.Spelling
import DeskCalc.Proofs.Magnitudes
import DeskCalc.Proofs.Rounding
import DeskCalc.Proofs.RoundedLiterals
import DeskCalc.Proofs.SignificantDigits
import DeskCalc.Proofs.ShortestDigits
import DeskCalc.Proofs.ShortestText
import DeskCalc.Proofs.EmptyExpressions
import DeskCalc.Proofs.Factorials
import DeskCalc.Proofs.PositiveValues
import DeskCalc.Proofs.NewtonGuesses
import DeskCalc.Proofs.Levels
import DeskCalc.Proofs.Exponents
