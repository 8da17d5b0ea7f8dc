import NestedSpec.Main
import NestedSpec.Contract
import NestedSpec.Suite
import NestedSpec.Proofs.Accounting
import NestedSpec.Proofs.Arranging
import NestedSpec.Proofs.Borrowing
import NestedSpec.Proofs.Chronicle
import NestedSpec.Proofs.CleanupOrder
import NestedSpec.Proofs.Closing
import NestedSpec.Proofs.Colouring
import NestedSpec.Proofs.Enrolling
import NestedSpec.Proofs.EnteredGroups
import NestedSpec.Proofs.Entering
import NestedSpec.Proofs.Environment
import NestedSpec.Proofs.FailureLines
import NestedSpec.Proofs.Failures
import NestedSpec.Proofs.FileOrder
import NestedSpec.Proofs.Filtering
import NestedSpec.Proofs.FirstBindings
import NestedSpec.Proofs.Freezing
import NestedSpec.Proofs.Handback
import NestedSpec.Proofs.HandbackSpecs
import NestedSpec.Proofs.ImportOrder
import NestedSpec.Proofs.Instants
import NestedSpec.Proofs.Integers
import NestedSpec.Proofs.Isolation
import NestedSpec.Proofs.Keys
import NestedSpec.Proofs.Layouts
import NestedSpec.Proofs.Leaving
import NestedSpec.Proofs.Locality
import NestedSpec.Proofs.Locating
import NestedSpec.Proofs.Memoising
import NestedSpec.Proofs.Offsets
import NestedSpec.Proofs.OnceCalls
import NestedSpec.Proofs.Outlines
import NestedSpec.Proofs.Pruning
import NestedSpec.Proofs.Rebuilding
import NestedSpec.Proofs.Regrouping
import NestedSpec.Proofs.Reproduction
import NestedSpec.Proofs.Scoping
import NestedSpec.Proofs.Secluded
import NestedSpec.Proofs.Seeds
import NestedSpec.Proofs.Settings
import NestedSpec.Proofs.SideEffects
import NestedSpec.Proofs.Streams
import NestedSpec.Proofs.TagLists
import NestedSpec.Proofs.Traces
import NestedSpec.Proofs.Tracing
import NestedSpec.Proofs.Turns
