import ScriptHeap.HostValue
import ScriptHeap.Heap.Operation
import ScriptHeap.Object.Edit
import ScriptHeap.Proofs.NameTable
import ScriptHeap.Proofs.Guarantees
import ScriptHeap.Proofs.Lookup
import ScriptHeap.Proofs.Growth
import ScriptHeap.Proofs.Accounting
import ScriptHeap.Proofs.Partition
import ScriptHeap.Proofs.Limit
import ScriptHeap.Proofs.Listing
import ScriptHeap.Proofs.NamedStore
import ScriptHeap.Proofs.NameMap
import ScriptHeap.Proofs.CloneCoverage
import ScriptHeap.Proofs.CloneGraph
import ScriptHeap.Proofs.Overdraft
import ScriptHeap.Proofs.Charge
import ScriptHeap.Proofs.Refusals
import ScriptHeap.Proofs.Compaction
import ScriptHeap.Proofs.Finalizers
import ScriptHeap.Proofs.Census
import ScriptHeap.Proofs.GrowthPolicy
import ScriptHeap.Proofs.IndexPolicy
import ScriptHeap.Proofs.Pressure
import ScriptHeap.Proofs.Demand
import ScriptHeap.Proofs.Reachability
