import Nucleus.Device.Console
import Nucleus.Device.Faulty
import Nucleus.Device.Medium
import Nucleus.Device.RamDisk
import Nucleus.Error
import Nucleus.File.Descriptors
import Nucleus.File.OpenFile
import Nucleus.File.Registry
import Nucleus.Kernel.Basic
import Nucleus.Kernel.Machine
import Nucleus.Kernel.Operation
import Nucleus.Kernel.SystemCalls
import Nucleus.Log.Level
import Nucleus.Log.Line
import Nucleus.Log.Notice
import Nucleus.Memory.Address
import Nucleus.Memory.Image
import Nucleus.Memory.Operand
import Nucleus.Memory.Space
import Nucleus.Process.Catalogue
import Nucleus.Process.Pid
import Nucleus.Process.Record
import Nucleus.Process.Status
import Nucleus.Process.Table
import Nucleus.Process.WaitQueue
import Nucleus.Settings
import Nucleus.Text.Escaped
import Nucleus.Text.Newline
import Nucleus.Text.Numeral
import Nucleus.Text.Quoted
import Nucleus.Trap.Cause
import Nucleus.Trap.Frame
import Nucleus.World
import Nucleus.Proofs.Effects
import Nucleus.Proofs.Records
import Nucleus.Proofs.Table
import Nucleus.Proofs.Forest
import Nucleus.Proofs.Consistency
import Nucleus.Proofs.Accounts
import Nucleus.Proofs.Balance
import Nucleus.Proofs.Halt
import Nucleus.Proofs.Stored
import Nucleus.Proofs.Truncation
import Nucleus.Proofs.Changes
import Nucleus.Proofs.Wakeups
import Nucleus.Proofs.Memory
import Nucleus.Proofs.Stories
import Nucleus.Proofs.Joins
import Nucleus.Proofs.Deliveries
import Nucleus.Proofs.Failures
import Nucleus.Proofs.SharedFiles
import Nucleus.Proofs.EmptyWrites
import Nucleus.Proofs.OpenFiles
import Nucleus.Proofs.FileBytes
import Nucleus.Proofs.Deletion
import Nucleus.Proofs.Transparency
import Nucleus.Proofs.StatusPlace
import Nucleus.Proofs.Isolation
import Nucleus.Proofs.Authority
import Nucleus.Proofs.Spawning
import Nucleus.Proofs.Protection
import Nucleus.Proofs.Allocation
import Nucleus.Proofs.Deadlock
import Nucleus.Proofs.Lifecycle
import Nucleus.Proofs.Cells
import Nucleus.Proofs.Independence
import Nucleus.Proofs.Copies
import Nucleus.Proofs.Texts
import Nucleus.Proofs.ArgumentPage
import Nucleus.Proofs.Closing
import Nucleus.Proofs.Misuse
import Nucleus.Proofs.Cursors
import Nucleus.Proofs.RoundTrip
import Nucleus.Proofs.Queueing
import Nucleus.Proofs.AbnormalCode
import Nucleus.Proofs.LineEnds
