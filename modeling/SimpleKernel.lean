import SimpleKernel.Console.Bounds
import SimpleKernel.Console.Erasing
import SimpleKernel.Console.Rows
import SimpleKernel.Console.Screen
import SimpleKernel.Console.Switching
import SimpleKernel.Emulate.Arguments
import SimpleKernel.Emulate.Execute
import SimpleKernel.FileSystem.Directory
import SimpleKernel.FileSystem.Image
import SimpleKernel.FileSystem.Indices
import SimpleKernel.FileSystem.Lookup
import SimpleKernel.FileSystem.Outcome
import SimpleKernel.FileSystem.Range
import SimpleKernel.FileSystem.ReadData
import SimpleKernel.Files.BlockTable
import SimpleKernel.Files.Delivery
import SimpleKernel.Files.Descriptors
import SimpleKernel.Files.ReadBounds
import SimpleKernel.Files.Sharing
import SimpleKernel.Files.ShortReads
import SimpleKernel.Files.Table
import SimpleKernel.Fish.Animation
import SimpleKernel.Fish.Blink
import SimpleKernel.Fish.Display
import SimpleKernel.Fish.Frames
import SimpleKernel.Fish.Program
import SimpleKernel.Fish.Registered
import SimpleKernel.Grep.Buffer
import SimpleKernel.Grep.DoOneFile
import SimpleKernel.Grep.Reading
import SimpleKernel.Grep.WholeLines
import SimpleKernel.I8259
import SimpleKernel.Interrupts.Board
import SimpleKernel.Interrupts.Delivery
import SimpleKernel.Interrupts.Devices
import SimpleKernel.Interrupts.Draining
import SimpleKernel.Interrupts.Exceptions
import SimpleKernel.Interrupts.Gates
import SimpleKernel.Interrupts.LibraryCalls
import SimpleKernel.Keyboard.Canonical
import SimpleKernel.Keyboard.EnterFlag
import SimpleKernel.Keyboard.Handler
import SimpleKernel.Keyboard.Isolation
import SimpleKernel.Keyboard.Pending
import SimpleKernel.Keyboard.PhysicalKeys
import SimpleKernel.Keyboard.Range
import SimpleKernel.Keyboard.Reader
import SimpleKernel.Keyboard.Scancodes
import SimpleKernel.Keyboard.Terminals
import SimpleKernel.Keyboard.Translation
import SimpleKernel.Library.BitField
import SimpleKernel.Library.Chain
import SimpleKernel.Library.Controllers
import SimpleKernel.Library.Flags
import SimpleKernel.Library.Handlers
import SimpleKernel.Library.LineEdit
import SimpleKernel.Library.Loop
import SimpleKernel.Library.Memory
import SimpleKernel.Library.Numeral
import SimpleKernel.Library.Placement
import SimpleKernel.Library.Region
import SimpleKernel.Library.Run
import SimpleKernel.Library.Scan
import SimpleKernel.Library.Text
import SimpleKernel.Library.Words
import SimpleKernel.Library.X86
import SimpleKernel.MemoryFunctions
import SimpleKernel.Output.Conversions
import SimpleKernel.Output.Itoa
import SimpleKernel.Output.Printf
import SimpleKernel.Paging.Mapped
import SimpleKernel.Paging.Present
import SimpleKernel.Paging.Stores
import SimpleKernel.Paging.Tables
import SimpleKernel.Paging.UserMap
import SimpleKernel.Paging.Vidmap
import SimpleKernel.Process.Acceptance
import SimpleKernel.Process.Arguments
import SimpleKernel.Process.BaseShells
import SimpleKernel.Process.Calls
import SimpleKernel.Process.Command
import SimpleKernel.Process.Failure
import SimpleKernel.Process.Lifetimes
import SimpleKernel.Process.Lists
import SimpleKernel.Process.Loading
import SimpleKernel.Process.Machine
import SimpleKernel.Process.Nesting
import SimpleKernel.Process.Parsing
import SimpleKernel.Process.Resumption
import SimpleKernel.Process.Scheduler
import SimpleKernel.Process.Slots
import SimpleKernel.Programs.Cat
import SimpleKernel.Programs.Ls
import SimpleKernel.Programs.Search
import SimpleKernel.Programs.Shell
import SimpleKernel.Programs.World
import SimpleKernel.Rtc
import SimpleKernel.RtcRegisters
import SimpleKernel.Strings
import SimpleKernel.SystemCalls
