import ObjectRuntime.Cli.Session
import ObjectRuntime.Inspect
import ObjectRuntime.Main
import ObjectRuntime.NativeLibrary
import ObjectRuntime.Text.Foreign
import ObjectRuntime.Proofs.Binding
import ObjectRuntime.Proofs.Invocation
import ObjectRuntime.Proofs.Cursor
import ObjectRuntime.Proofs.Runs
import ObjectRuntime.Proofs.SliceCount
import ObjectRuntime.Proofs.Slice
import ObjectRuntime.Proofs.Encoding
import ObjectRuntime.Proofs.Problems
import ObjectRuntime.Proofs.Rules
import ObjectRuntime.Proofs.Validation
import ObjectRuntime.Proofs.Keywords
import ObjectRuntime.Proofs.Slots
import ObjectRuntime.Proofs.Supplied
import ObjectRuntime.Proofs.Wrapping
import ObjectRuntime.Proofs.Gating
import ObjectRuntime.Proofs.Documents
import ObjectRuntime.Proofs.Records
import ObjectRuntime.Proofs.ManifestText
import ObjectRuntime.Proofs.Pointers
import ObjectRuntime.Proofs.ProblemPlaces
import ObjectRuntime.Proofs.FileContents
import ObjectRuntime.Proofs.Checker
import ObjectRuntime.Proofs.HeapShape
import ObjectRuntime.Proofs.Footprints
import ObjectRuntime.Proofs.HeapRuns
import ObjectRuntime.Proofs.Dispatch
import ObjectRuntime.Proofs.Faults
import ObjectRuntime.Proofs.KeywordOrder
import ObjectRuntime.Proofs.Accounting
import ObjectRuntime.Proofs.NestedSlices
import ObjectRuntime.Proofs.ForeignSlices
import ObjectRuntime.Proofs.Defaults
import ObjectRuntime.Proofs.Budget
import ObjectRuntime.Proofs.FailedMaking
import ObjectRuntime.Proofs.Literals
import ObjectRuntime.Proofs.Presentation
import ObjectRuntime.Proofs.Attributes
import ObjectRuntime.Proofs.Reports
import ObjectRuntime.Proofs.CapabilityLists
import ObjectRuntime.Proofs.Streams
