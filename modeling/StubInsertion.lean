import StubInsertion.Files.Listing
import StubInsertion.Main
import StubInsertion.Source.Session
import StubInsertion.World
import StubInsertion.Proofs.Source.Lines
import StubInsertion.Proofs.Source.Marks
import StubInsertion.Proofs.Source.Recovery
import StubInsertion.Proofs.Source.Layout
import StubInsertion.Proofs.Files.Names
import StubInsertion.Proofs.Files.Ways
import StubInsertion.Proofs.Files.Entries
import StubInsertion.Proofs.Files.Changes
import StubInsertion.Proofs.Worlds
import StubInsertion.Proofs.Courses
import StubInsertion.Proofs.Confinement
import StubInsertion.Proofs.Replacement
import StubInsertion.Proofs.Files.Alike
import StubInsertion.Proofs.Files.Relinking
import StubInsertion.Proofs.Files.Calls
import StubInsertion.Proofs.Replacement.Stages
import StubInsertion.Proofs.Replacement.Course
import StubInsertion.Proofs.Replacement.Interruption
import StubInsertion.Proofs.Replacement.Siblings
import StubInsertion.Proofs.Batch.Progress
import StubInsertion.Proofs.Batch.Ledger
import StubInsertion.Proofs.Batch.Simulation
import StubInsertion.Proofs.Batch.Order
import StubInsertion.Proofs.Batch.Account
import StubInsertion.Proofs.Batch.Cutoff
import StubInsertion.Proofs.CommandLine.Grammar
import StubInsertion.Proofs.CommandLine.Outcome
import StubInsertion.Proofs.Batch.FileSession
import StubInsertion.Proofs.CommandLine.ExitCodes
import StubInsertion.Proofs.Source.Placement
import StubInsertion.Proofs.Source.Recognition
import StubInsertion.Proofs.Text.LineBreaks
import StubInsertion.Proofs.Failures
import StubInsertion.Proofs.Batch.ReportLines
import StubInsertion.Proofs.Source.Kinds
import StubInsertion.Proofs.Source.Terminators
import StubInsertion.Proofs.Source.Encoding
import StubInsertion.Proofs.Source.Growth
import StubInsertion.Proofs.Source.Imports
import StubInsertion.Proofs.Config.Loading
import StubInsertion.Proofs.Config.Directory
import StubInsertion.Proofs.Source.Splicing
