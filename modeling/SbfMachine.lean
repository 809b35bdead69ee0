import SbfMachine.Main
import SbfMachine.Failure
import SbfMachine.Machine.Trace
import SbfMachine.Isa.Assembly
import SbfMachine.Link.Blueprint
import SbfMachine.Proofs.Bytes
import SbfMachine.Proofs.Outcomes
import SbfMachine.Proofs.Program.Split
import SbfMachine.Proofs.Program.Rules
import SbfMachine.Proofs.Program.WellFormed
import SbfMachine.Proofs.Link.Relocation
import SbfMachine.Proofs.Link.Loading
import SbfMachine.Proofs.Machine.Effect
import SbfMachine.Proofs.Machine.Reachable
import SbfMachine.Proofs.Machine.ControlFlow
import SbfMachine.Proofs.Memory.Cells
import SbfMachine.Proofs.Memory.ByteMap
import SbfMachine.Proofs.Machine.Frames
import SbfMachine.Proofs.Machine.CallBalance
import SbfMachine.Proofs.Syscall.Charges
import SbfMachine.Proofs.Machine.Metering
import SbfMachine.Proofs.Syscall.Failures
import SbfMachine.Proofs.Machine.Faults
import SbfMachine.Proofs.Syscall.Budget
import SbfMachine.Proofs.Machine.Budget
import SbfMachine.Proofs.Link.Layout
import SbfMachine.Proofs.Checked.Operations
import SbfMachine.Proofs.Checked.Records
import SbfMachine.Proofs.Checked.Metadata
import SbfMachine.Proofs.Checked.Image
import SbfMachine.Proofs.Checked.Relocation
import SbfMachine.Proofs.Checked.Load
import SbfMachine.Proofs.Bytes.Parts
import SbfMachine.Proofs.CallHash
import SbfMachine.Proofs.Elf.Encoding
import SbfMachine.Proofs.Elf.Strings
import SbfMachine.Proofs.Elf.Acceptance
import SbfMachine.Proofs.Isa.Slot
import SbfMachine.Proofs.Program.Calls
import SbfMachine.Proofs.Program.Constants
import SbfMachine.Proofs.Link.Patches
import SbfMachine.Proofs.Link.Blueprint.Parts
import SbfMachine.Proofs.Link.Blueprint.Object
import SbfMachine.Proofs.Link.Blueprint.Image
import SbfMachine.Proofs.Link.Blueprint.Additions
import SbfMachine.Proofs.Link.Blueprint.CallLinks
import SbfMachine.Proofs.Link.Blueprint.AddressLinks
import SbfMachine.Proofs.Link.Blueprint.LinkedImage
import SbfMachine.Proofs.Memory.Regions
import SbfMachine.Proofs.Link.MappedSections
import SbfMachine.Proofs.Program.LocalCalls
import SbfMachine.Proofs.Machine.DirectTransfers
import SbfMachine.Proofs.Machine.LocalCalls
import SbfMachine.Proofs.Elf.Appended
import SbfMachine.Proofs.Link.Appended
import SbfMachine.Proofs.Link.ImageContent
import SbfMachine.Proofs.Memory.Accesses
import SbfMachine.Proofs.Syscall.Scripts
import SbfMachine.Proofs.Machine.Accesses
import SbfMachine.Proofs.Machine.LargerMemory
import SbfMachine.Proofs.Machine.SharedObjects
import SbfMachine.Proofs.Elf.Layout
import SbfMachine.Proofs.Program.CallResolution
import SbfMachine.Proofs.Link.Collisions
import SbfMachine.Proofs.Link.RelocationOrder
import SbfMachine.Proofs.Memory.Contents
import SbfMachine.Proofs.Syscall.MemoryCalls
import SbfMachine.Proofs.Machine.ExactArithmetic
import SbfMachine.Proofs.Machine.OperandForms
import SbfMachine.Proofs.Text.Numerals
import SbfMachine.Proofs.Isa.Disassembly
import SbfMachine.Proofs.Machine.Disassembly
import SbfMachine.Proofs.Elf.Overlaps
import SbfMachine.Proofs.Isa.Codec
import SbfMachine.Proofs.Syscall.Registrations
