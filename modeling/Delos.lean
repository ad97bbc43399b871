import Delos.Lib.ByteMemory
import Delos.Lib.BlockList
import Delos.Lib.Program
import Delos.Lib.Runs
import Delos.Lib.AllocationTable
import Delos.Lib.Bitmap
import Delos.Lib.BlockCopy
import Delos.Lib.FirstFit
import Delos.Lib.Frames
import Delos.Lib.FreeRuns
import Delos.Lib.Guards
import Delos.Lib.KeyedLists
import Delos.Lib.Links
import Delos.Lib.Simulation
import Delos.Lib.Traces
import Delos.Lib.TwoLevel
import Delos.Lib.WaitingLine
import Delos.Source.Heap
import Delos.Source.Vfs
import Delos.Source.VfsOperations
import Delos.Source.VfsReading
import Delos.Source.Common
import Delos.Source.Screen
import Delos.Source.Process
import Delos.Source.Scheduler
import Delos.Source.Syscalls
import Delos.Source.Interrupts
import Delos.Source.Strings
import Delos.Source.Paging
import Delos.Source.ElfLoader
import Delos.Source.CommandLine
import Delos.Source.FileCalls
import Delos.Source.GuardedReads
import Delos.Source.Keyboard
import Delos.Source.LinkedList
import Delos.Source.Memory
import Delos.Source.Shell
import Delos.Source.Spinlock
import Delos.Invariants.HeapLayout
import Delos.Invariants.LiveRegions
import Delos.Invariants.DiskView
import Delos.Invariants.KernelMemory
import Delos.Invariants.Records
import Delos.Invariants.RootFolder
import Delos.Invariants.FatOperations
import Delos.Invariants.DirectoryLayout
import Delos.Invariants.DirectoryLoading
import Delos.Invariants.FileCatalog
import Delos.Invariants.FileReading
import Delos.Invariants.FileFlags
import Delos.Invariants.FileArrays
import Delos.Invariants.FileCreation
import Delos.Invariants.FileDeletion
import Delos.Invariants.ChainWriting
import Delos.Invariants.FileAppend
import Delos.Invariants.FileInsert
import Delos.Invariants.FileContents
import Delos.Invariants.FileWrite
import Delos.Invariants.FileCopy
import Delos.Invariants.FileSystemStart
import Delos.Invariants.DiskDecoding
import Delos.Invariants.FileSystemRuns
import Delos.Invariants.TerminalLog
import Delos.Invariants.CallEffects
import Delos.Invariants.InterruptEffects
import Delos.Invariants.ProcessLists
import Delos.Invariants.BlockedProcesses
import Delos.Invariants.CopySizes
import Delos.Invariants.DirectorySaving
import Delos.Invariants.ExitCodes
import Delos.Invariants.FileCalls
import Delos.Invariants.FileStore
import Delos.Invariants.FiledRuns
import Delos.Invariants.FiledStart
import Delos.Invariants.FolderPlacement
import Delos.Invariants.FrameBitmap
import Delos.Invariants.HeldFiles
import Delos.Invariants.KernelMapping
import Delos.Invariants.KernelPages
import Delos.Invariants.KeyboardOrder
import Delos.Invariants.LineEditing
import Delos.Invariants.LinkedLists
import Delos.Invariants.ListRuns
import Delos.Invariants.MemoryBlocks
import Delos.Invariants.NumberText
import Delos.Invariants.OpenCalls
import Delos.Invariants.OpenFiles
import Delos.Invariants.OpenNames
import Delos.Invariants.PageEntries
import Delos.Invariants.PageTables
import Delos.Invariants.Population
import Delos.Invariants.ProcessIds
import Delos.Invariants.ProcessTables
import Delos.Invariants.ReadyQueue
import Delos.Invariants.Rescheduling
import Delos.Invariants.SavedContexts
import Delos.Invariants.SchedulerRuns
import Delos.Invariants.SchedulerStart
import Delos.Invariants.SchedulerSteps
import Delos.Invariants.ScreenBounds
import Delos.Invariants.SegmentPages
import Delos.Invariants.Sheet
import Delos.Invariants.StoreCalls
import Delos.Invariants.StoreSteps
import Delos.Invariants.StoredFiles
import Delos.Invariants.Terminals
import Delos.Invariants.TimerTicks
import Delos.Invariants.WriteContents
import Delos.Invariants.ZeroFill
import Delos.Guarantees.HeapIntegrity
import Delos.Guarantees.ChainIntegrity
import Delos.Guarantees.FileIsolation
import Delos.Guarantees.ClusterAccounting
import Delos.Guarantees.NoPanic
import Delos.Guarantees.TerminalLog
import Delos.Guarantees.SchedulerPartition
import Delos.Guarantees.BoundedOvertaking
import Delos.Guarantees.BoundedWait
import Delos.Guarantees.CommandLines
import Delos.Guarantees.ContextSwitches
import Delos.Guarantees.Copying
import Delos.Guarantees.DecimalRoundTrip
import Delos.Guarantees.DirectoryRoundTrip
import Delos.Guarantees.EndlessSheet
import Delos.Guarantees.FileNames
import Delos.Guarantees.FrameBalance
import Delos.Guarantees.FrameCount
import Delos.Guarantees.HeapRequests
import Delos.Guarantees.KernelMapping
import Delos.Guarantees.KeyboardDelivery
import Delos.Guarantees.LineEditing
import Delos.Guarantees.ListEnds
import Delos.Guarantees.ListSequence
import Delos.Guarantees.LiveAbort
import Delos.Guarantees.LivePids
import Delos.Guarantees.MemoryCopies
import Delos.Guarantees.MissingFiles
import Delos.Guarantees.Reading
import Delos.Guarantees.RecordCopies
import Delos.Guarantees.ScreenBounds
import Delos.Guarantees.SegmentCopies
import Delos.Guarantees.SignedNumbers
import Delos.Guarantees.Spinlock
import Delos.Guarantees.StatusReadBack
import Delos.Guarantees.StoreRefinement
import Delos.Guarantees.StrandedWaiters
import Delos.Guarantees.StringBuffers
import Delos.Guarantees.StringReversal
import Delos.Guarantees.TerminalFocus
import Delos.Guarantees.TerminalReschedule
import Delos.Guarantees.Touching
import Delos.Guarantees.WaitedFor
import Delos.Guarantees.Writing
