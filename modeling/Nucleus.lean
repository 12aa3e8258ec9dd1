import Nucleus.Device.Access
import Nucleus.Device.Counter
import Nucleus.Device.InterruptController
import Nucleus.Device.Mailbox
import Nucleus.Device.Platform
import Nucleus.Device.Serial
import Nucleus.Executive.Basic
import Nucleus.Executive.Effect
import Nucleus.Executive.Gateway
import Nucleus.Executive.Journal
import Nucleus.Executive.Trap
import Nucleus.Fatal
import Nucleus.Interrupt.Line
import Nucleus.Interrupt.Router
import Nucleus.Keyboard.Event
import Nucleus.Keyboard.Ring
import Nucleus.Log
import Nucleus.Log.Line
import Nucleus.Machine.Bench
import Nucleus.Machine.Board
import Nucleus.Machine.Computer
import Nucleus.Machine.Diagnosis
import Nucleus.Machine.Hardware
import Nucleus.Machine.Kernel
import Nucleus.Machine.Rig
import Nucleus.Memory.Allocator
import Nucleus.Memory.Error
import Nucleus.Memory.PageMap
import Nucleus.Memory.Region
import Nucleus.Memory.UserMemory
import Nucleus.Process.Basic
import Nucleus.Process.DeadlineQueue
import Nucleus.Process.Error
import Nucleus.Process.Id
import Nucleus.Process.Name
import Nucleus.Process.Rotation
import Nucleus.Process.Table
import Nucleus.Proofs.Executive.Calls
import Nucleus.Proofs.Executive.Coherence
import Nucleus.Proofs.Executive.Contexts
import Nucleus.Proofs.Executive.Ownership
import Nucleus.Proofs.Executive.Population
import Nucleus.Proofs.Executive.Run
import Nucleus.Proofs.Executive.Standing
import Nucleus.Proofs.Executive.Traps
import Nucleus.Proofs.Executive.Upkeep
import Nucleus.Proofs.Memory.Consistency
import Nucleus.Proofs.Memory.FreeRun
import Nucleus.Proofs.Memory.Handle
import Nucleus.Proofs.Memory.Layout
import Nucleus.Proofs.Memory.Outcome
import Nucleus.Proofs.Process.Change
import Nucleus.Proofs.Process.Estate
import Nucleus.Proofs.Process.Focus
import Nucleus.Proofs.Process.Identity
import Nucleus.Proofs.Process.Lifecycle
import Nucleus.Proofs.Process.Selection
import Nucleus.Proofs.Process.Standing
import Nucleus.Proofs.Tally
import Nucleus.Screen.Drawing
import Nucleus.Screen.Font
import Nucleus.Screen.Framebuffer
import Nucleus.Screen.Geometry
import Nucleus.Screen.Segment
import Nucleus.Screen.Survey
import Nucleus.Screen.Typesetting
import Nucleus.Slots
import Nucleus.Soak
import Nucleus.Syscall.Invocation
import Nucleus.Syscall.Number
import Nucleus.Syscall.Pair
import Nucleus.Syscall.Status
import Nucleus.Text.Bytes
import Nucleus.Text.Message
import Nucleus.Text.Numeral
import Nucleus.Text.Storage
import Nucleus.Text.Utf8
import Nucleus.Trap.Cell
import Nucleus.Trap.Context
import Nucleus.Trap.ProcessorState
import Nucleus.Trap.Syndrome
import Nucleus.Userland.Echo
import Nucleus.Userland.HeapCheck
import Nucleus.Userland.Painter
import Nucleus.Userland.Program
import Nucleus.Userland.Session
import Nucleus.Userland.Ticker
import Nucleus.Userland.Turn
import Nucleus.Word
import Nucleus.Proofs.Process.Heap
import Nucleus.Proofs.Process.Agenda
import Nucleus.Proofs.Executive.Rest
import Nucleus.Proofs.Executive.Slumber
import Nucleus.Proofs.Executive.Sleep
import Nucleus.Proofs.Executive.Comparator
import Nucleus.Proofs.Memory.Generation
import Nucleus.Proofs.Process.Rounds
import Nucleus.Proofs.Executive.Commands
import Nucleus.Proofs.Executive.Service
import Nucleus.Proofs.Executive.Idling
import Nucleus.Proofs.Executive.Bystanders
import Nucleus.Proofs.Executive.Interrupts
import Nucleus.Proofs.Executive.Verdict
import Nucleus.Proofs.Executive.Judgement
import Nucleus.Proofs.Process.Timetable
import Nucleus.Proofs.Screen.Pixels
import Nucleus.Proofs.Keyboard.Fifo
import Nucleus.Proofs.Process.Inboxes
import Nucleus.Proofs.Executive.Resumption
import Nucleus.Proofs.Executive.Delivery
import Nucleus.Proofs.Syscall.Encoding
import Nucleus.Proofs.Executive.Invocations
import Nucleus.Proofs.Executive.Replies
import Nucleus.Proofs.Screen.Clipping
import Nucleus.Proofs.Screen.Course
import Nucleus.Proofs.Screen.Sight
import Nucleus.Proofs.Screen.Lettering
import Nucleus.Proofs.Screen.Replacement
import Nucleus.Proofs.Memory.FirstFit
import Nucleus.Proofs.Screen.Filling
import Nucleus.Proofs.Screen.Magnification
import Nucleus.Proofs.Memory.Release
import Nucleus.Proofs.Executive.Possession
import Nucleus.Proofs.Executive.Restitution
import Nucleus.Proofs.Process.Quarters
import Nucleus.Proofs.Executive.Quarters
import Nucleus.Proofs.Memory.Forfeiture
import Nucleus.Proofs.Executive.Removal
import Nucleus.Proofs.Process.Creation
import Nucleus.Proofs.Process.Headroom
import Nucleus.Proofs.Executive.HeapBase
import Nucleus.Proofs.Executive.Holdings
import Nucleus.Proofs.Executive.Forgetting
import Nucleus.Proofs.Keyboard.Requests
import Nucleus.Proofs.Device.Counter
import Nucleus.Proofs.Device.Transmission
import Nucleus.Proofs.Device.Reception
import Nucleus.Proofs.Machine.Printing
import Nucleus.Proofs.Machine.Keystrokes
import Nucleus.Proofs.Text.Cutting
import Nucleus.Proofs.Text.Storage
import Nucleus.Proofs.Text.Truncation
import Nucleus.Proofs.Text.Numerals
import Nucleus.Proofs.Fatal
import Nucleus.Proofs.Device.Polling
import Nucleus.Process.Naming
import Nucleus.Proofs.Process.Numbering
import Nucleus.Proofs.Process.Naming
