import SchemaValidation.CommandLine.Program
import SchemaValidation.Main
import SchemaValidation.Predicate
import SchemaValidation.Proofs.Absence
import SchemaValidation.Proofs.Admission
import SchemaValidation.Proofs.Agreement
import SchemaValidation.Proofs.Building
import SchemaValidation.Proofs.Conforms
import SchemaValidation.Proofs.Conversion
import SchemaValidation.Proofs.CrossReference
import SchemaValidation.Proofs.DebugText
import SchemaValidation.Proofs.Decision
import SchemaValidation.Proofs.Decoding
import SchemaValidation.Proofs.Decomposition
import SchemaValidation.Proofs.Delimiting
import SchemaValidation.Proofs.Depth
import SchemaValidation.Proofs.Equality
import SchemaValidation.Proofs.FailingPath
import SchemaValidation.Proofs.Growth
import SchemaValidation.Proofs.Integers
import SchemaValidation.Proofs.Journal
import SchemaValidation.Proofs.Logging
import SchemaValidation.Proofs.Navigation
import SchemaValidation.Proofs.Numerals
import SchemaValidation.Proofs.Observation
import SchemaValidation.Proofs.Optionality
import SchemaValidation.Proofs.Pairs
import SchemaValidation.Proofs.PathText
import SchemaValidation.Proofs.Places
import SchemaValidation.Proofs.Productive
import SchemaValidation.Proofs.Rearrangement
import SchemaValidation.Proofs.Refining
import SchemaValidation.Proofs.Registration
import SchemaValidation.Proofs.Relaxation
import SchemaValidation.Proofs.Reports
import SchemaValidation.Proofs.Restriction
import SchemaValidation.Proofs.Selection
import SchemaValidation.Proofs.Session
import SchemaValidation.Proofs.Shape
import SchemaValidation.Proofs.Suite
import SchemaValidation.Proofs.Trials
import SchemaValidation.Proofs.Undeclared
import SchemaValidation.Proofs.Verdicts
import SchemaValidation.Proofs.Views
import SchemaValidation.Proofs.Wrapping
import SchemaValidation.Registry
import SchemaValidation.Schema.Outline
import SchemaValidation.Schema.Wrapper
import SchemaValidation.Value.Conversion
