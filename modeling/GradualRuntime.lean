import GradualRuntime.OrderedMap
import GradualRuntime.Arena
import GradualRuntime.Binary64.Shortest
import GradualRuntime.Value
import GradualRuntime.Arity
import GradualRuntime.Property
import GradualRuntime.Heap
import GradualRuntime.Fault
import GradualRuntime.Text.Display
import GradualRuntime.Text.Inspect
import GradualRuntime.Config
import GradualRuntime.Event
import GradualRuntime.Operation
import GradualRuntime.Body
import GradualRuntime.State
import GradualRuntime.Run
import GradualRuntime.LazyBinding
import GradualRuntime.Member
import GradualRuntime.Mixin
import GradualRuntime.Construction
import GradualRuntime.GenericType
import GradualRuntime.LinkedMap
import GradualRuntime.Dispatch
import GradualRuntime.TypeTest
import GradualRuntime.Config.Document
import GradualRuntime.Operation.Operands
import GradualRuntime.Operation.Execution
import GradualRuntime.Machine
import GradualRuntime.Script.Program
import GradualRuntime.Toml.Grammar
import GradualRuntime.Proofs.Change
import GradualRuntime.Proofs.Force
import GradualRuntime.Proofs.Conduct
import GradualRuntime.Proofs.Conduct.Operation
import GradualRuntime.Proofs.Session
import GradualRuntime.Proofs.Evaluation
import GradualRuntime.Proofs.CellLifecycle
import GradualRuntime.Proofs.DepthFirst
import GradualRuntime.Proofs.Access
import GradualRuntime.Proofs.LazyNamespace
import GradualRuntime.Proofs.LazyWrite
import GradualRuntime.Proofs.Dispatch
import GradualRuntime.Proofs.Binary64
import GradualRuntime.Proofs.Identity
import GradualRuntime.Proofs.Memoization
import GradualRuntime.Proofs.GenericLifecycle
import GradualRuntime.Proofs.WellFormed
import GradualRuntime.Proofs.Overlay
import GradualRuntime.Proofs.Composition
import GradualRuntime.Proofs.MixinTable
import GradualRuntime.Proofs.MixinFlattening
import GradualRuntime.Proofs.ConstructionPlan
import GradualRuntime.Proofs.ClassOrder
import GradualRuntime.Proofs.LinkedMap
import GradualRuntime.Proofs.MapRefinement
import GradualRuntime.Proofs.PendingCalls
import GradualRuntime.Proofs.SlotCoherence
import GradualRuntime.Proofs.Ancestry
import GradualRuntime.Proofs.FaultPropagation
import GradualRuntime.Proofs.NameGrowth
import GradualRuntime.Proofs.Constants
import GradualRuntime.Proofs.TypeReflection
import GradualRuntime.Proofs.Tandem
import GradualRuntime.Proofs.Tandem.Operation
import GradualRuntime.Proofs.Tandem.Machine
import GradualRuntime.Proofs.EntryPoints
import GradualRuntime.Proofs.DispatchReports
import GradualRuntime.Proofs.TracingInert
import GradualRuntime.Proofs.EventAccount
import GradualRuntime.Proofs.AcceptedCounts
import GradualRuntime.Proofs.ArityReports
import GradualRuntime.Proofs.ArityReflection
import GradualRuntime.Proofs.Assignment
import GradualRuntime.Proofs.BindingAccess
import GradualRuntime.Proofs.Equality
import GradualRuntime.Proofs.OrderedUnion
import GradualRuntime.Proofs.SlotCopy
import GradualRuntime.Proofs.BulkBinding
import GradualRuntime.Proofs.Interchange
import GradualRuntime.Proofs.MemberRead
import GradualRuntime.Proofs.MemberPresence
import GradualRuntime.Proofs.ObjectMap
import GradualRuntime.Proofs.NamedConstructor
import GradualRuntime.Proofs.TableKeys
import GradualRuntime.Proofs.DocumentConfiguration
