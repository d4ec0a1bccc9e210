import EtyOS.Library.ByteMemory
import EtyOS.Library.Paging
import EtyOS.Library.PortProgram
import EtyOS.Library.PortTrace
import EtyOS.Library.PortSafety
import EtyOS.Library.FreeList
import EtyOS.Library.PackedStruct
import EtyOS.Library.Simulation
import EtyOS.Library.Recording
import EtyOS.Library.TextLayout
import EtyOS.Library.Terminal
import EtyOS.Library.Scrolling
import EtyOS.Library.Tiling
import EtyOS.Library.Numeral
import EtyOS.Library.Latch
import EtyOS.Console.PrintCall
import EtyOS.Console.CString
import EtyOS.Console.MemoryBlock
import EtyOS.Console.BlockMoves
import EtyOS.Console.StringCopy
import EtyOS.Console.BlockSwap
import EtyOS.Console.StringCompare
import EtyOS.Console.Screen
import EtyOS.Console.ScreenSpec
import EtyOS.Console.Scrollback
import EtyOS.Console.Clearing
import EtyOS.Console.Numerals
import EtyOS.Console.LineEditor
import EtyOS.Console.InputLines
import EtyOS.Console.Transcript
import EtyOS.Console.ScreenBounds
import EtyOS.Console.Keyboard
import EtyOS.Console.TypedText
import EtyOS.Console.Modifiers
import EtyOS.Ata.Device
import EtyOS.Ata.Driver
import EtyOS.Ata.DriverSpec
import EtyOS.Ata.SectorStore
import EtyOS.Ata.Addressing
import EtyOS.Ata.LegacyRoutines
import EtyOS.Ata.Handshake
import EtyOS.Allocator.MemoryAllocator
import EtyOS.Allocator.Refinement
import EtyOS.Allocator.Safety
import EtyOS.Allocator.Fragmentation
import EtyOS.Allocator.Coalescing
import EtyOS.Allocator.Alignment
import EtyOS.Allocator.FormatterPool
import EtyOS.Kernel.Machine
import EtyOS.Kernel.DiskState
import EtyOS.Kernel.System
import EtyOS.Kernel.Boot
import EtyOS.Partition.Layout
import EtyOS.Partition.Ext4
import EtyOS.Partition.Ext4Plan
import EtyOS.Partition.FormatStep
import EtyOS.Partition.Ext4Spec
import EtyOS.Partition.Ext4Safety
import EtyOS.Partition.Fat32
import EtyOS.Partition.Create
import EtyOS.Partition.CreateSpec
import EtyOS.Partition.Sectors
import EtyOS.Partition.MbrTable
import EtyOS.Partition.Effects
import EtyOS.Partition.Trace
import EtyOS.Partition.Requests
import EtyOS.Partition.Geometry
import EtyOS.Partition.GroupCounts
import EtyOS.Partition.Volume
import EtyOS.Partition.Bitmaps
import EtyOS.Partition.FatTables
import EtyOS.Partition.FirstFailure
import EtyOS.Disktool.Disktool
import EtyOS.Disktool.Display
import EtyOS.Disktool.DisktoolSpec
import EtyOS.Disktool.DiskTable
import EtyOS.Disktool.Sizes
import EtyOS.Disktool.DisplaySpec
import EtyOS.Disktool.Commands
import EtyOS.Disktool.Outcome
import EtyOS.Disktool.Bounds
import EtyOS.Disktool.Capacity
import EtyOS.Disktool.Tables
import EtyOS.Disktool.Overlap
import EtyOS.Disktool.Refinement
import EtyOS.Disktool.Selection
import EtyOS.Disktool.Shell
import EtyOS.Disktool.Syntax
import EtyOS.Disktool.Arguments
import EtyOS.Disktool.Listing
import EtyOS.Disktool.RoundTrip
import EtyOS.Disktool.TableAccess
import EtyOS.Disktool.PartitionIndex
import EtyOS.Disktool.PartitionType
import EtyOS.Kernel.Output
import EtyOS.Disktool.Colors
import EtyOS.Kernel.Filesystem
import EtyOS.Kernel.KernelMain
import EtyOS.Kernel.MainTurn
import EtyOS.Kernel.Background
import EtyOS.Kernel.MainSystem
import EtyOS.Kernel.History
import EtyOS.Kernel.Conduct
import EtyOS.Kernel.Isolation
import EtyOS.Kernel.PortHistory
import EtyOS.Kernel.PoolHistory
import EtyOS.Kernel.Running
import EtyOS.Kernel.RunningKeys
import EtyOS.Kernel.RunningScreen
import EtyOS.Kernel.RunningTranscript
import EtyOS.Kernel.BootPageTables
import EtyOS.Kernel.LoadCpu
import EtyOS.Kernel.LoadKernel
import EtyOS.Kernel.LoadError
