import Rashid.Accesses
import Rashid.AddressSpace
import Rashid.Cpu
import Rashid.Decoder
import Rashid.Sse
import Rashid.Step
import Rashid.Syscall
import Rashid.Native
import Rashid.Run
import Rashid.JitDecode
import Rashid.JitEmit
import Rashid.A64
import Rashid.Jit
import Rashid.InsnMeaning
import Rashid.Encoding
import Rashid.Operations
import Rashid.Format
import Rashid.Addressing
import Rashid.Arithmetic
import Rashid.Stack
import Rashid.Proofs.RegionHits
import Rashid.Proofs.HostMapping
import Rashid.Proofs.RegionOrder
import Rashid.Proofs.ByteProtection
import Rashid.Proofs.StepPrims
import Rashid.Proofs.Switches
import Rashid.Proofs.RunPrims
import Rashid.Proofs.Stops
import Rashid.Proofs.Budget
import Rashid.Proofs.GuestView
import Rashid.Proofs.BlockCheck
import Rashid.Proofs.StatusFlags
import Rashid.Proofs.Straight
import Rashid.Proofs.EncodersDecode
import Rashid.Proofs.Pieces
import Rashid.Proofs.InlineFlags
import Rashid.Proofs.Widths
import Rashid.Proofs.DecodeOperands
import Rashid.Proofs.DecodersAgree
import Rashid.Proofs.FlagLiveness
import Rashid.Proofs.Cursor
import Rashid.Proofs.Opcode
import Rashid.Proofs.InsnLength
import Rashid.Proofs.CodeProtection
import Rashid.Proofs.ZeroExtend
import Rashid.Proofs.Assigned
import Rashid.Proofs.Performs
import Rashid.Proofs.Callbacks
import Rashid.Proofs.Marshal
import Rashid.Lib.Limbs
import Rashid.Lib.Graded
import Rashid.Lib.InsnFormat
import Rashid.Encoders
import Rashid.ArmTables
import Rashid.Proofs.CarryFlags
import Rashid.Proofs.Operands
import Rashid.Proofs.Conditions
import Rashid.Proofs.Shifts
import Rashid.Proofs.RmOperand
import Rashid.Proofs.DoubleShift
import Rashid.Proofs.Multiply
import Rashid.Proofs.Divide
import Rashid.Proofs.StackInsns
import Rashid.Proofs.Protect
import Rashid.Proofs.RangeChecks
import Rashid.Proofs.MapUnmap
import Rashid.Macho
import Rashid.Fixups
import Rashid.CpuInit
import Rashid.Lib.Writes
import Rashid.Proofs.FixupChain
import Rashid.Proofs.StubNames
import Rashid.Proofs.InitialStack
import Rashid.Proofs.ImagePlacement
import Rashid.Lib.Trace
import Rashid.Proofs.CallAccesses
import Rashid.Proofs.SystemV
import Rashid.Proofs.FormatEnd
import Rashid.Proofs.StepAccesses
import Rashid.Proofs.InsnAccesses
import Rashid.Proofs.SseAccesses
import Rashid.Proofs.MachineAccesses
import Rashid.Proofs.StepGauge
import Rashid.Proofs.MachineGauge
import Rashid.Proofs.CachedBlocks
import Rashid.Proofs.UndoRestores
import Rashid.Proofs.StepEvents
import Rashid.Proofs.EffectiveAddress
import Rashid.Proofs.FaultingAccess
import Rashid.Proofs.SseDeclines
import Rashid.Proofs.SyscallResults
import Rashid.Proofs.Trampolines
import Rashid.Proofs.Emission
import Rashid.Proofs.EmittedKinds
import Rashid.Proofs.BlockShape
import Rashid.Proofs.BlockRuns
import Rashid.Proofs.CompiledBlocks
import Rashid.Proofs.ReservedFlags
import Rashid.Lib.Runs
import Rashid.Lib.FillOnce
import Rashid.Lib.Layout
import Rashid.Lib.Upto
import Rashid.LoadCommands
import Rashid.Proofs.CountFree
import Rashid.Proofs.CheckedRun
import Rashid.Proofs.CacheRuns
import Rashid.Proofs.BudgetedRuns
import Rashid.MachoFormat
import Rashid.Proofs.CommandFields
import Rashid.Imports
import Rashid.ChainedFixups
import Rashid.FixupsFormat
import Rashid.Proofs.LoadHeaders
import Rashid.Proofs.LoadFile
import Rashid.Proofs.FixupsRead
import Rashid.Proofs.ImageFixups
import Rashid.Proofs.CodeOrData
import Rashid.Lib.Words
import Rashid.Lib.Arm
import Rashid.Routines
import Rashid.Proofs.CallGate
import Rashid.Proofs.TrampolineEntry
import Rashid.Proofs.JitEnter
