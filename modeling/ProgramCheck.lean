import ProgramCheck.Source.Snippet
import ProgramCheck.Proofs.Acceptance
import ProgramCheck.Proofs.ImportMatching
import ProgramCheck.Proofs.SuccessiveRuns
import ProgramCheck.Proofs.HookLog
import ProgramCheck.Proofs.WalkedNodes
import ProgramCheck.Proofs.WalkOrder
import ProgramCheck.Proofs.TableReads
import ProgramCheck.Proofs.Independence
import ProgramCheck.Proofs.UnrelatedTrees
import ProgramCheck.Proofs.StackListing
import ProgramCheck.Proofs.Construction
import ProgramCheck.Proofs.KeptSymbols
import ProgramCheck.Proofs.RenumberedReports
import ProgramCheck.Proofs.JoinedRuns
import ProgramCheck.Proofs.CallSites
import ProgramCheck.Proofs.CallTable
import ProgramCheck.Proofs.CallVerdicts
import ProgramCheck.Proofs.OwnModuleCalls
import ProgramCheck.Proofs.EditedTrees
import ProgramCheck.Proofs.ImportExport
import ProgramCheck.Proofs.Ancestry
import ProgramCheck.Proofs.Whereabouts
import ProgramCheck.Proofs.Guards
import ProgramCheck.Proofs.Declarations
import ProgramCheck.Proofs.PartialListings
import ProgramCheck.Proofs.BuiltinColumns
import ProgramCheck.Proofs.FullTables
import ProgramCheck.Proofs.ImportFaults
import ProgramCheck.Proofs.RepeatedModules
import ProgramCheck.Proofs.RepeatedNames
import ProgramCheck.Proofs.TypeRoundTrip
import ProgramCheck.Proofs.MovedNodes
import ProgramCheck.Proofs.StructRemoval
import ProgramCheck.Proofs.RespelledNames
import ProgramCheck.Proofs.LabelOrder
import ProgramCheck.Proofs.PromotedWarnings
import ProgramCheck.Proofs.DisabledRules
import ProgramCheck.Proofs.DisplayedDiagnostics
import ProgramCheck.Proofs.Exchanges
