import BorrowIR.Main
import BorrowIR.Proofs.Lookup
import BorrowIR.Proofs.Outcome
import BorrowIR.Proofs.Node
import BorrowIR.Proofs.Wire
import BorrowIR.Proofs.TyWire
import BorrowIR.Proofs.CrateListing
import BorrowIR.Proofs.SourceWire
import BorrowIR.Proofs.LiteralWire
import BorrowIR.Proofs.StatementWire
import BorrowIR.Proofs.StatementGrammar
import BorrowIR.Proofs.FileUse
import BorrowIR.Proofs.SpanlessNodes
import BorrowIR.Proofs.FileTables
import BorrowIR.Proofs.ListedFiles
import BorrowIR.Proofs.TwoRuns
import BorrowIR.Proofs.MissingFile
import BorrowIR.Proofs.LostFiles
import BorrowIR.Proofs.Words
import BorrowIR.Proofs.LiteralRange
import BorrowIR.Proofs.Ensures
import BorrowIR.Proofs.Occurrence
import BorrowIR.Proofs.OneFunction
import BorrowIR.Proofs.WellFormedCrates
import BorrowIR.Proofs.StatementNodes
import BorrowIR.Proofs.RightNesting
import BorrowIR.Proofs.Levels
import BorrowIR.Proofs.CrateLevels
import BorrowIR.Proofs.ReadCompress
import BorrowIR.Proofs.CrateTexts
import BorrowIR.Proofs.RonDepth
import BorrowIR.Proofs.PartialOutput
import BorrowIR.Proofs.VerbatimBodies
import BorrowIR.Proofs.Trails
import BorrowIR.Proofs.Accounts
import BorrowIR.Proofs.DecoderAccounts
import BorrowIR.Proofs.CrateTrail
import BorrowIR.Proofs.CrateLog
import BorrowIR.Proofs.Readings
import BorrowIR.Proofs.NamedDeclarations
import BorrowIR.Proofs.QueryTexts
import BorrowIR.Proofs.RenamedFiles
import BorrowIR.Proofs.RenamedRuns
import BorrowIR.Proofs.RelistedCrates
import BorrowIR.Proofs.Grammars
import BorrowIR.Proofs.ExprWire
import BorrowIR.Proofs.ExprGrammar
import BorrowIR.Proofs.DeclWire
import BorrowIR.Proofs.DeclGrammar
import BorrowIR.Proofs.RegionFree
import BorrowIR.Proofs.PrintedNames
import BorrowIR.Proofs.StatementLayout
import BorrowIR.Proofs.QueryGrammar
import BorrowIR.Proofs.PlainNames
import BorrowIR.Proofs.ErrorLabels
import BorrowIR.Proofs.DeclaredVariables
