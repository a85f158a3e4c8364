import Census.Disk.Edit
import Census.Main
import Census.Proofs.Callable.LeadingTrivia
import Census.Proofs.Callable.Places
import Census.Proofs.Project.Failures
import Census.Proofs.Project.Pruning
import Census.Proofs.Project.Report
import Census.Proofs.Settings.Choice
import Census.Proofs.Command.Composition
import Census.Proofs.Command.Ignoring
import Census.Proofs.Project.Locality
import Census.Proofs.Report.Document
import Census.Proofs.Report.Table
import Census.Proofs.Json.Spelling
import Census.Proofs.Callable.Lines
import Census.Proofs.Json.Embedding
import Census.Proofs.Json.Soundness
import Census.Proofs.Settings.Decoding
import Census.Proofs.Settings.Grammar
import Census.Proofs.Settings.Package
import Census.Proofs.Callable.Order
import Census.Proofs.Callable.Names
import Census.Proofs.Callable.Parentheses
import Census.Proofs.Settings.Errors
import Census.Proofs.Project.Roots
import Census.Proofs.Command.Warnings
import Census.Proofs.Project.FileLines
