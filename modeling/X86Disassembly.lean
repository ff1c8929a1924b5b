import X86Disassembly.Addressing
import X86Disassembly.Allocation
import X86Disassembly.Block
import X86Disassembly.Boundary
import X86Disassembly.ByteSource
import X86Disassembly.CommandLine.Arguments
import X86Disassembly.CommandLine.FileError
import X86Disassembly.CommandLine.HexText
import X86Disassembly.CommandLine.Number
import X86Disassembly.CommandLine.Report
import X86Disassembly.Condition
import X86Disassembly.Decode
import X86Disassembly.DecodeError
import X86Disassembly.Fetch
import X86Disassembly.Instruction
import X86Disassembly.Listing
import X86Disassembly.LittleEndian
import X86Disassembly.Main
import X86Disassembly.Memory
import X86Disassembly.ModRM
import X86Disassembly.Mode
import X86Disassembly.Opcode.Coprocessor
import X86Disassembly.Opcode.Form
import X86Disassembly.Opcode.Group
import X86Disassembly.Opcode.OneByte
import X86Disassembly.Opcode.Template
import X86Disassembly.Opcode.TwoByte
import X86Disassembly.Operand
import X86Disassembly.Operation
import X86Disassembly.Prefix
import X86Disassembly.Proofs.AddressReading
import X86Disassembly.Proofs.BackwardListing
import X86Disassembly.Proofs.BlockWalk
import X86Disassembly.Proofs.BoundaryChain
import X86Disassembly.Proofs.BoundarySearch
import X86Disassembly.Proofs.CleanText
import X86Disassembly.Proofs.Completion
import X86Disassembly.Proofs.DecodingBounds
import X86Disassembly.Proofs.EffectiveAddress
import X86Disassembly.Proofs.Encoding
import X86Disassembly.Proofs.ExpressionReading
import X86Disassembly.Proofs.ForwardListing
import X86Disassembly.Proofs.HexReading
import X86Disassembly.Proofs.ImageAddresses
import X86Disassembly.Proofs.ImageListing
import X86Disassembly.Proofs.LengthBound
import X86Disassembly.Proofs.LineBytes
import X86Disassembly.Proofs.ListingWindow
import X86Disassembly.Proofs.LittleEndian
import X86Disassembly.Proofs.Locality
import X86Disassembly.Proofs.MemoryDecoding
import X86Disassembly.Proofs.MissingSegment
import X86Disassembly.Proofs.NumberText
import X86Disassembly.Proofs.OpcodeForms
import X86Disassembly.Proofs.OpcodeReading
import X86Disassembly.Proofs.OperandReading
import X86Disassembly.Proofs.PrefixReading
import X86Disassembly.Proofs.PrefixSummary
import X86Disassembly.Proofs.PrintedRows
import X86Disassembly.Proofs.ProcessorMaps
import X86Disassembly.Proofs.Reading
import X86Disassembly.Proofs.Relocation
import X86Disassembly.Proofs.RoundTrip
import X86Disassembly.Proofs.SegmentRule
import X86Disassembly.Proofs.SizeOverride
import X86Disassembly.Proofs.SourceProgress
import X86Disassembly.Proofs.StepwiseDecoding
import X86Disassembly.Proofs.TextInjectivity
import X86Disassembly.Proofs.Truncation
import X86Disassembly.Register.Name
import X86Disassembly.Register.Value
import X86Disassembly.Segment
import X86Disassembly.Size
import X86Disassembly.Text.Assembly
import X86Disassembly.Text.Hex
import X86Disassembly.Text.MemoryExpression
import X86Disassembly.Text.Terminal
