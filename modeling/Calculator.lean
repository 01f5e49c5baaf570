import Calculator.Expr.Canonical
import Calculator.Expr.Descent
import Calculator.Expr.Value
import Calculator.Number.Text
import Calculator.Screen
import Calculator.Service
import Calculator.Service.Address
import Calculator.Settings.File
import Calculator.Proofs.Grammar
import Calculator.Proofs.Reading
import Calculator.Proofs.OpenGroups
import Calculator.Proofs.UnclosedParens
import Calculator.Proofs.Scanning
import Calculator.Proofs.Pieces
import Calculator.Proofs.GluedConstants
import Calculator.Proofs.Spelling
import Calculator.Proofs.SpacedText
import Calculator.Proofs.CanonicalTokens
import Calculator.Proofs.Rereading
import Calculator.Proofs.Composition
import Calculator.Proofs.UnmaskedFailures
import Calculator.Proofs.PreviewOfEntry
import Calculator.Proofs.LatestEdit
import Calculator.Proofs.Requests
import Calculator.Proofs.FailedEntry
import Calculator.Proofs.Chaining
import Calculator.Proofs.Trimming
import Calculator.Proofs.AgreedValue
import Calculator.Proofs.Fallback
import Calculator.Proofs.HistoryReplay
import Calculator.Proofs.LockedEntry
import Calculator.Proofs.FaultyCharacter
import Calculator.Proofs.FirstFault
import Calculator.Proofs.FreshScreen
import Calculator.Proofs.Numerals
import Calculator.Proofs.DoubleValue
import Calculator.Proofs.NearestDouble
import Calculator.Proofs.CorrectRounding
import Calculator.Proofs.RoundedUnits
import Calculator.Proofs.RoundedProduct
import Calculator.Proofs.WholeDegrees
import Calculator.Proofs.UndefinedTangent
import Calculator.Proofs.PlainNumber
import Calculator.Proofs.EntryText
import Calculator.Proofs.MemoryRecall
import Calculator.Proofs.DisplayText
import Calculator.Proofs.SignificantDigits
import Calculator.Proofs.JsonGrammar
import Calculator.Proofs.JsonNumbers
import Calculator.Proofs.JsonRounding
import Calculator.Proofs.JsonStrings
import Calculator.Proofs.JsonValues
import Calculator.Proofs.ReplyForm
import Calculator.Proofs.RequestBody
import Calculator.Proofs.ErasedKeys
import Calculator.Proofs.LiteralValues
import Calculator.Proofs.Bookkeeping
import Calculator.Proofs.SteppedReading
import Calculator.Proofs.TomlKeys
