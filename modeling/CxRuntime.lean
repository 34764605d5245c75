import CxRuntime.IdPool
import CxRuntime.Lib.BitFields
import CxRuntime.Lib.BitSlice
import CxRuntime.Lib.BoundedFifo
import CxRuntime.Lib.CInt
import CxRuntime.Lib.Cells
import CxRuntime.Lib.ContextPort
import CxRuntime.Lib.DirtyBit
import CxRuntime.Lib.Lanes
import CxRuntime.Lib.Loop
import CxRuntime.Lib.Multiplex
import CxRuntime.Lib.Noninterference
import CxRuntime.Lib.Product
import CxRuntime.Lib.RingBuffer
import CxRuntime.Lib.Transition
import CxRuntime.Nn.InBounds
import CxRuntime.Nn.LayerValue
import CxRuntime.Nn.Layers
import CxRuntime.Nn.LayersAgree
import CxRuntime.Nn.MatrixProduct
import CxRuntime.Nn.OneLayer
import CxRuntime.Queue
import CxRuntime.QueueRefinement
import CxRuntime.Runtime.AbstractAllocator
import CxRuntime.Runtime.AbstractMachine
import CxRuntime.Runtime.Allocation
import CxRuntime.Runtime.Clients
import CxRuntime.Runtime.ControlWords
import CxRuntime.Runtime.CxMap
import CxRuntime.Runtime.FreshOpen
import CxRuntime.Runtime.Machine
import CxRuntime.Runtime.MulaccPlatform
import CxRuntime.Runtime.OpenFrame
import CxRuntime.Runtime.Reachability
import CxRuntime.Runtime.RegisteredGuids
import CxRuntime.Runtime.Selector
import CxRuntime.Runtime.Sharing
import CxRuntime.Runtime.StrayClose
import CxRuntime.Threads.LogicalAccumulators
import CxRuntime.Threads.Matmul
import CxRuntime.Threads.MatmulCorrect
import CxRuntime.Threads.SharedSums
import CxRuntime.Toolchain.InstrInfoCfu
import CxRuntime.Utils
import CxRuntime.Zoo.Accumulator
import CxRuntime.Zoo.AccumulatorIsolation
import CxRuntime.Zoo.ClientIsolation
import CxRuntime.Zoo.ContextStatics
import CxRuntime.Zoo.Cxu
import CxRuntime.Zoo.DirtyTracking
import CxRuntime.Zoo.DispatchTables
import CxRuntime.Zoo.Distinguishable
import CxRuntime.Zoo.Exports
import CxRuntime.Zoo.IndependentAccumulators
import CxRuntime.Zoo.IndependentVectors
import CxRuntime.Zoo.LazySpill
import CxRuntime.Zoo.LogicalContexts
import CxRuntime.Zoo.Mulacc
import CxRuntime.Zoo.NnAcc
import CxRuntime.Zoo.PackedPrograms
import CxRuntime.Zoo.Pext
import CxRuntime.Zoo.RegisterFile
import CxRuntime.Zoo.Reinitialisation
import CxRuntime.Zoo.SaveRestore
import CxRuntime.Zoo.Sentinel
import CxRuntime.Zoo.StatePort
import CxRuntime.Zoo.StatefulCollisions
import CxRuntime.Zoo.StatefulDefined
import CxRuntime.Zoo.Stateless
import CxRuntime.Zoo.StatelessCollisions
import CxRuntime.Zoo.StatelessDefined
import CxRuntime.Zoo.StatusAutomaton
import CxRuntime.Zoo.Vector
import CxRuntime.Zoo.VectorIsolation
import CxRuntime.Zoo.VectorTest
import CxRuntime.Zoo.VirtualContexts
import CxRuntime.Zoo.ZooObjects
