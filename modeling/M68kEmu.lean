import M68kEmu.Decode.Encode
import M68kEmu.Decode.Table
import M68kEmu.Decode.Traps
import M68kEmu.Listing.Faithful
import M68kEmu.Listing.Sweep
import M68kEmu.Model.Cpu
import M68kEmu.Program.Benchmark
import M68kEmu.Program.Bubblesort
import M68kEmu.Program.Fibonacci
import M68kEmu.Semantics.AddressArithmetic
import M68kEmu.Semantics.Arithmetic
import M68kEmu.Semantics.BitManip
import M68kEmu.Semantics.BlockCopy
import M68kEmu.Semantics.CallReturn
import M68kEmu.Semantics.Compare
import M68kEmu.Semantics.CpuObject
import M68kEmu.Semantics.EffectiveAddress
import M68kEmu.Semantics.Extended
import M68kEmu.Semantics.LinkFrame
import M68kEmu.Semantics.LoadElf
import M68kEmu.Semantics.MemoryLaw
import M68kEmu.Semantics.MulDiv
import M68kEmu.Semantics.MultiPrecision
import M68kEmu.Semantics.Operand
import M68kEmu.Semantics.RotationHelpers
import M68kEmu.Semantics.Shift
import M68kEmu.Semantics.ShiftCounts
import M68kEmu.Semantics.SignExtension
import M68kEmu.Semantics.SignedArithmetic
import M68kEmu.Semantics.SilentRead
import M68kEmu.Semantics.Stack
import M68kEmu.Semantics.StackHelpers
import M68kEmu.Step.AddressRegisters
import M68kEmu.Step.BranchTarget
import M68kEmu.Step.BusWrites
import M68kEmu.Step.Disassembly
import M68kEmu.Step.Isolation
import M68kEmu.Step.LargerMemory
import M68kEmu.Step.Length
import M68kEmu.Step.Requests
import M68kEmu.Step.Reserved
import M68kEmu.Step.WriteFrame
