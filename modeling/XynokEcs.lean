import XynokEcs.FaultingState
import XynokEcs.ComponentTypes
import XynokEcs.EntityHandle
import XynokEcs.SequenceValueMap
import XynokEcs.ComponentBits
import XynokEcs.ChunkLayouts
import XynokEcs.RowDirectory
import XynokEcs.ChunkRows
import XynokEcs.RowWrites
import XynokEcs.ArchetypeStore
import XynokEcs.QueryShapes
import XynokEcs.EntityAllocation
import XynokEcs.SlotInvariants
import XynokEcs.WorldState
import XynokEcs.WorldCalls
import XynokEcs.RegistryInvariants
import XynokEcs.RegistrySteps
import XynokEcs.StoreInvariants
import XynokEcs.StoreSteps
import XynokEcs.StructureChanges
import XynokEcs.CommandBuffer
import XynokEcs.RegistryFrame
import XynokEcs.SlotEvents
import XynokEcs.QueryAccess
import XynokEcs.QuerySources
import XynokEcs.WorkerQueues
import XynokEcs.ItemWrites
import XynokEcs.ActionRuns
import XynokEcs.WorldRuns
import XynokEcs.ArchetypeHomes
import XynokEcs.EdgeOutcomes
import XynokEcs.ActionEffects
import XynokEcs.WorldGrowth
import XynokEcs.CanonicalRegistry
import XynokEcs.SlotRows
import XynokEcs.HandleIssue
import XynokEcs.SlotConservation
import XynokEcs.MapRefinement
import XynokEcs.ErrorExits
import XynokEcs.QueuedFailures
import XynokEcs.ChunkBookkeeping
import XynokEcs.LockedArchetypes
import XynokEcs.CommandQueues
import XynokEcs.KeyedLogs
import XynokEcs.CommandOrder
import XynokEcs.SingletonRows
import XynokEcs.SingletonEntities
import XynokEcs.ComponentIds
import XynokEcs.AccessConflicts
import XynokEcs.ChangeTicks
import XynokEcs.BlockPlacement
import XynokEcs.LayoutPlacement
import XynokEcs.LayoutRegions
import XynokEcs.ByteMemory
import XynokEcs.ChunkMemory
import XynokEcs.ByteMigration
import XynokEcs.LayoutSearch
import XynokEcs.LayoutArithmetic
import XynokEcs.QueryMatches
import XynokEcs.Scheduling
import XynokEcs.QueryWalks
import XynokEcs.SpanCuts
import XynokEcs.BatchWalks
import XynokEcs.ItemEffects
import XynokEcs.ParallelGroups
import XynokEcs.TryOutcomes
import XynokEcs.QueryReadings
import XynokEcs.CellHistory
import XynokEcs.QueryWindows
import XynokEcs.NeverTick
import XynokEcs.RunMoments
import XynokEcs.SystemWindows
import XynokEcs.FiniteSums
import XynokEcs.Ledgers
import XynokEcs.ValueRows
import XynokEcs.ValueLedger
import XynokEcs.LinearValues
import XynokEcs.DefinedBehaviour
import XynokEcs.Interleavings
import XynokEcs.CellEdits
import XynokEcs.ParallelRuns
import XynokEcs.PairedRuns
import XynokEcs.WrittenCells
import XynokEcs.ByteRows
import XynokEcs.ByteArchetypes
import XynokEcs.ByteStores
import XynokEcs.SequenceTables
import XynokEcs.BuiltLayouts
import XynokEcs.CellPrograms
import XynokEcs.BatchRaces
import XynokEcs.AddThenRemove
import XynokEcs.DirectoryWalks
import XynokEcs.RowMoves
import XynokEcs.WalkFronts
import XynokEcs.CommandedWalks
