import SqliteHeap.Lib.Circular
import SqliteHeap.Lib.MachineInt
import SqliteHeap.Lib.Transition
import SqliteHeap.Lib.Nested
import SqliteHeap.Lib.Pull
import SqliteHeap.Lib.Pool
import SqliteHeap.Lib.SavepointStack
import SqliteHeap.Storage
import SqliteHeap.Ffi
import SqliteHeap.Session
import SqliteHeap.SessionRun
import SqliteHeap.SessionProperties
import SqliteHeap.SessionInvariant
import SqliteHeap.SessionContents
import SqliteHeap.Durability
import SqliteHeap.AbortCleanup
import SqliteHeap.SubtransactionAtomicity
import SqliteHeap.DropStorage
import SqliteHeap.ReadView
import SqliteHeap.Visibility
import SqliteHeap.Vacuum
import SqliteHeap.IndexEntries
import SqliteHeap.History
import SqliteHeap.SubtransactionVisibility
import SqliteHeap.Lib.Versions
import SqliteHeap.TableScan
import SqliteHeap.Backends
import SqliteHeap.SnapshotReads
import SqliteHeap.RelationWrites
import SqliteHeap.BackendsInvariant
import SqliteHeap.SnapshotOrder
import SqliteHeap.BackendsRun
import SqliteHeap.SnapshotIsolation
import SqliteHeap.Residue
import SqliteHeap.SelfHealing
import SqliteHeap.ScanKinds
import SqliteHeap.Rescan
import SqliteHeap.TidRange
import SqliteHeap.IndexBuild
import SqliteHeap.ParallelScan
import SqliteHeap.Rewrite
import SqliteHeap.SchemaUpgrade
import SqliteHeap.ZigBackend
import SqliteHeap.Wraparound
import SqliteHeap.Lineage
import SqliteHeap.Successors
import SqliteHeap.WrittenRows
import SqliteHeap.UniqueIndex
import SqliteHeap.UniqueIndexRun
import SqliteHeap.XidStatus
import SqliteHeap.DirtySnapshot
import SqliteHeap.NonVacuumable
import SqliteHeap.IndexDeletion
import SqliteHeap.PartialIndex
import SqliteHeap.Cluster
import SqliteHeap.BitmapScan
import SqliteHeap.ScanDirection
import SqliteHeap.TidCodec
import SqliteHeap.Watermark
import SqliteHeap.BatchInsert
import SqliteHeap.LlvmBackend
import SqliteHeap.Lib.NestedStore
import SqliteHeap.Lib.Simulation
import SqliteHeap.StoreRefinement
import SqliteHeap.ZigPort
import SqliteHeap.ScanAtomicity
import SqliteHeap.IndexScan
import SqliteHeap.IndexScanRun
import SqliteHeap.Serializability
import SqliteHeap.CrashSafety
import SqliteHeap.Lib.Sequence
import SqliteHeap.LlvmTids
import SqliteHeap.Speculation
import SqliteHeap.SpeculationRun
import SqliteHeap.Analyze
