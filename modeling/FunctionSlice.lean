import FunctionSlice.Config
import FunctionSlice.Container
import FunctionSlice.Decimal.FloatText
import FunctionSlice.Decimal.Shortest
import FunctionSlice.Event
import FunctionSlice.Expression
import FunctionSlice.Extent
import FunctionSlice.Fault
import FunctionSlice.Image
import FunctionSlice.Image.Binary
import FunctionSlice.Image.Blueprint
import FunctionSlice.Image.Coff
import FunctionSlice.Image.Elf
import FunctionSlice.Image.MachO
import FunctionSlice.Image.Pe
import FunctionSlice.Instruction
import FunctionSlice.Json.Data
import FunctionSlice.Json.Failure
import FunctionSlice.Json.Read
import FunctionSlice.Json.Skip
import FunctionSlice.Json.Token
import FunctionSlice.Json.Value
import FunctionSlice.Library
import FunctionSlice.Listing
import FunctionSlice.Load
import FunctionSlice.Mangled
import FunctionSlice.Mangled.Decorated
import FunctionSlice.Mangled.Itanium
import FunctionSlice.Mangled.Itanium.Grammar
import FunctionSlice.Mangled.Itanium.Node
import FunctionSlice.Mangled.Itanium.Render
import FunctionSlice.Mangled.LegacyPath
import FunctionSlice.Mangled.V0Path
import FunctionSlice.Mapping
import FunctionSlice.Mask
import FunctionSlice.Module
import FunctionSlice.Proofs.Blueprint
import FunctionSlice.Proofs.Buffer
import FunctionSlice.Proofs.Collection
import FunctionSlice.Proofs.Exhaustion
import FunctionSlice.Proofs.Exported
import FunctionSlice.Proofs.Exports
import FunctionSlice.Proofs.Fetch
import FunctionSlice.Proofs.Flavor
import FunctionSlice.Proofs.Formats
import FunctionSlice.Proofs.Front
import FunctionSlice.Proofs.Glob
import FunctionSlice.Proofs.Handle
import FunctionSlice.Proofs.Image
import FunctionSlice.Proofs.Json.Grammar
import FunctionSlice.Proofs.Json.Members
import FunctionSlice.Proofs.Json.Refusal
import FunctionSlice.Proofs.Json.RoundTrip
import FunctionSlice.Proofs.Json.Skipping
import FunctionSlice.Proofs.Json.Spelling
import FunctionSlice.Proofs.Json.Words
import FunctionSlice.Proofs.Json.Written
import FunctionSlice.Proofs.LastWord
import FunctionSlice.Proofs.Lines
import FunctionSlice.Proofs.LiteralFirst
import FunctionSlice.Proofs.Locality
import FunctionSlice.Proofs.Mapping
import FunctionSlice.Proofs.MaskLanguage
import FunctionSlice.Proofs.Namesakes
import FunctionSlice.Proofs.OpcodeNames
import FunctionSlice.Proofs.PartialConfig
import FunctionSlice.Proofs.Placement
import FunctionSlice.Proofs.Query
import FunctionSlice.Proofs.ReadCap
import FunctionSlice.Proofs.Reads
import FunctionSlice.Proofs.Rebasing
import FunctionSlice.Proofs.Record
import FunctionSlice.Proofs.Reported
import FunctionSlice.Proofs.Resolution
import FunctionSlice.Proofs.Returns
import FunctionSlice.Proofs.Rounds
import FunctionSlice.Proofs.Source
import FunctionSlice.Proofs.Stages
import FunctionSlice.Proofs.Sweep
import FunctionSlice.Proofs.SymbolSet
import FunctionSlice.Proofs.Transcript
import FunctionSlice.Proofs.Trim
import FunctionSlice.Proofs.Utf8
import FunctionSlice.Proofs.Warnings
import FunctionSlice.Proofs.Wording
import FunctionSlice.Query
import FunctionSlice.Resolve
import FunctionSlice.Section
import FunctionSlice.Slice
import FunctionSlice.Source
import FunctionSlice.Sweep
import FunctionSlice.Symbol
import FunctionSlice.Text.Blank
import FunctionSlice.Text.Hex
import FunctionSlice.Text.Quoted
import FunctionSlice.Text.Unprintable
import FunctionSlice.Text.Utf8
import FunctionSlice.Window
import FunctionSlice.Word
import FunctionSlice.X86.Decode
import FunctionSlice.X86.Decoder
import FunctionSlice.X86.Opcode
import FunctionSlice.X86.Operand
import FunctionSlice.X86.Text
