import TabCompletion.Command.Problem
import TabCompletion.Main
import TabCompletion.Proofs.Reinstall
import TabCompletion.Proofs.Restoration
import TabCompletion.Proofs.StartupRun
import TabCompletion.Proofs.CommandPath
import TabCompletion.Proofs.Definition
import TabCompletion.Proofs.Dispatch
import TabCompletion.Proofs.Siblings
import TabCompletion.Proofs.FunctionName
import TabCompletion.Proofs.SpecReading
import TabCompletion.Proofs.Backup
import TabCompletion.Proofs.Answer
import TabCompletion.Proofs.BackupRun
import TabCompletion.Proofs.BlockRemoval
import TabCompletion.Proofs.BlockSearch
import TabCompletion.Proofs.DumpRoundTrip
import TabCompletion.Proofs.Candidates
import TabCompletion.Proofs.Lossless
import TabCompletion.Proofs.Report
import TabCompletion.Proofs.Unanswered
import TabCompletion.Proofs.Gates
import TabCompletion.Proofs.BlockRest
import TabCompletion.Proofs.BlockUpdate
import TabCompletion.Proofs.WholeFile
import TabCompletion.Proofs.RemovalReport
import TabCompletion.Proofs.References
import TabCompletion.Proofs.Menu
import TabCompletion.Proofs.Continuation
import TabCompletion.Proofs.Problems
import TabCompletion.Proofs.FlagWord
import TabCompletion.Proofs.SearchPath
import TabCompletion.Proofs.Instructions
import TabCompletion.Proofs.CarriageReturn
import TabCompletion.Proofs.SettingPlace
import TabCompletion.Proofs.NearestRoot
import TabCompletion.Proofs.KnownShell
