import SplongleOS.AvailableMemory
import SplongleOS.BlockAccounting
import SplongleOS.Keyboard
import SplongleOS.Ata
import SplongleOS.BitmapStorage
import SplongleOS.FrameOwnership
import SplongleOS.Page
import SplongleOS.PageTables
import SplongleOS.Rtc
import SplongleOS.PageOwnership
import SplongleOS.DemandPaging
import SplongleOS.AtaAddressing
import SplongleOS.AtaCompletion
import SplongleOS.Base.Lookaside
import SplongleOS.MapPage
import SplongleOS.Tlb
import SplongleOS.PageAddressing
import SplongleOS.CriticalSections
import SplongleOS.Base.Chain
import SplongleOS.Sched
import SplongleOS.SchedSteps
import SplongleOS.ReadyChain
import SplongleOS.ReadyList
import SplongleOS.Rotation
import SplongleOS.TaskPlaces
import SplongleOS.Unblocking
import SplongleOS.TaskStates
import SplongleOS.SchedulerLock
import SplongleOS.LockHandover
import SplongleOS.Base.ByteMemory
import SplongleOS.ContextSwitch
import SplongleOS.ContextPreservation
import SplongleOS.BitmapBounds
import SplongleOS.Printk
import SplongleOS.NumberPrinting
import SplongleOS.ClockReading
import SplongleOS.FirstFit
import SplongleOS.PageMapping
import SplongleOS.BootTables
import SplongleOS.OutOfMemory
import SplongleOS.PageWalks
import SplongleOS.NullAddress
import SplongleOS.SectorData
import SplongleOS.AtaErrors
import SplongleOS.Console
import SplongleOS.Scrolling
import SplongleOS.Display
import SplongleOS.ConsoleBounds
import SplongleOS.KeyboardHandler
import SplongleOS.Shell
import SplongleOS.LineEditor
import SplongleOS.PromptLine
import SplongleOS.MemmapWalk
import SplongleOS.Typing
import SplongleOS.Erasing
import SplongleOS.Modifiers
import SplongleOS.QueuedCharacters
import SplongleOS.Commands
import SplongleOS.Sleep
import SplongleOS.ClockDisplay
import SplongleOS.Pci
import SplongleOS.ConfigSpace
import SplongleOS.BaseAddress
import SplongleOS.AddressSpace
import SplongleOS.Base.WordStack
import SplongleOS.InterruptFrame
import SplongleOS.Base.Arbiter
import SplongleOS.InterruptRouting
import SplongleOS.Pic
import SplongleOS.InterruptDelivery
import SplongleOS.TypedCommands
import SplongleOS.Fairness
import SplongleOS.Base.RegisterBank
import SplongleOS.PciListing
import SplongleOS.Vga
import SplongleOS.GraphicsMode
import SplongleOS.Cmos
import SplongleOS.MemoryRoutines
import SplongleOS.ClockCadence
import SplongleOS.BlockLedger
import SplongleOS.Pit
import SplongleOS.Speaker
import SplongleOS.FlatSegments
import SplongleOS.CrashDump
import SplongleOS.IdtMemory
import SplongleOS.InterruptMemory
