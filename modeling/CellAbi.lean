import CellAbi.AbiType.Basic
import CellAbi.AbiType.Descriptor
import CellAbi.AbiType.Outline
import CellAbi.Address.Basic
import CellAbi.Address.Text
import CellAbi.Address.Wire
import CellAbi.Bindings.Build
import CellAbi.Bindings.Directory
import CellAbi.Bindings.Module
import CellAbi.Bindings.Name
import CellAbi.Bindings.Render
import CellAbi.Bindings.Source
import CellAbi.Bits
import CellAbi.Cell.Bag
import CellAbi.Cell.Basic
import CellAbi.Cell.Builder
import CellAbi.Cell.Error
import CellAbi.Cell.Hash
import CellAbi.Cell.Slice
import CellAbi.Checksum.Crc32c
import CellAbi.Checksum.Sha256
import CellAbi.CommandLine.Grammar
import CellAbi.CommandLine.Invocation
import CellAbi.CommandLine.Report
import CellAbi.CommandLine.Run
import CellAbi.Contract.Arguments
import CellAbi.Contract.Message
import CellAbi.Contract.State
import CellAbi.Error
import CellAbi.Files.Basic
import CellAbi.Files.Tree
import CellAbi.Json.Basic
import CellAbi.Json.Binary64
import CellAbi.Json.Document
import CellAbi.Json.Printer
import CellAbi.Main
import CellAbi.Native.Convert
import CellAbi.Native.Text
import CellAbi.Native.Type
import CellAbi.Pattern.Basic
import CellAbi.Pattern.Support
import CellAbi.Pattern.Text
import CellAbi.Proofs.AbiType.Grammar
import CellAbi.Proofs.AbiType.Legal
import CellAbi.Proofs.AbiType.Levels
import CellAbi.Proofs.AbiType.MapKey
import CellAbi.Proofs.AbiType.NormalForm
import CellAbi.Proofs.AbiType.Range
import CellAbi.Proofs.AbiType.Reading
import CellAbi.Proofs.AbiType.Storing
import CellAbi.Proofs.Address.Compact
import CellAbi.Proofs.Address.Format
import CellAbi.Proofs.Address.Forms
import CellAbi.Proofs.Address.Raw
import CellAbi.Proofs.Address.Storing
import CellAbi.Proofs.Address.Text
import CellAbi.Proofs.Address.Wire
import CellAbi.Proofs.Appending
import CellAbi.Proofs.Bag.Delimiting
import CellAbi.Proofs.Bag.Frame
import CellAbi.Proofs.Bag.Guarded
import CellAbi.Proofs.Bag.Layout
import CellAbi.Proofs.Bag.NormalForm
import CellAbi.Proofs.Bag.Preorder
import CellAbi.Proofs.Bag.Reading
import CellAbi.Proofs.Bag.Rereading
import CellAbi.Proofs.Bag.Safety
import CellAbi.Proofs.Bag.Standard
import CellAbi.Proofs.Bag.Tag
import CellAbi.Proofs.Bag.Tree
import CellAbi.Proofs.Binding
import CellAbi.Proofs.Bindings.Collision
import CellAbi.Proofs.Bindings.Declarations
import CellAbi.Proofs.Bindings.Deployment
import CellAbi.Proofs.Bindings.Directory
import CellAbi.Proofs.Bindings.Expression
import CellAbi.Proofs.Bindings.Identifier
import CellAbi.Proofs.Bindings.Imports
import CellAbi.Proofs.Bindings.Index
import CellAbi.Proofs.Bindings.Landmark
import CellAbi.Proofs.Bindings.Legality
import CellAbi.Proofs.Bindings.Lines
import CellAbi.Proofs.Bindings.Mentions
import CellAbi.Proofs.Bindings.Methods
import CellAbi.Proofs.Bindings.Names
import CellAbi.Proofs.Bindings.Rendering
import CellAbi.Proofs.Bindings.Sanitizing
import CellAbi.Proofs.Bindings.Shadowing
import CellAbi.Proofs.Bindings.Validation
import CellAbi.Proofs.Building
import CellAbi.Proofs.Contract.Variables
import CellAbi.Proofs.Cursor
import CellAbi.Proofs.Descendants
import CellAbi.Proofs.Exactness
import CellAbi.Proofs.Files.Map
import CellAbi.Proofs.Interruption
import CellAbi.Proofs.Json.Printing
import CellAbi.Proofs.Json.Standing
import CellAbi.Proofs.MachineWord
import CellAbi.Proofs.Native.Absence
import CellAbi.Proofs.Native.Conformance
import CellAbi.Proofs.Native.Holding
import CellAbi.Proofs.Native.Key
import CellAbi.Proofs.Native.Proper
import CellAbi.Proofs.Native.RoundTrip
import CellAbi.Proofs.Native.Separation
import CellAbi.Proofs.Outcome
import CellAbi.Proofs.Packing
import CellAbi.Proofs.Recutting
import CellAbi.Proofs.Schema.Records
import CellAbi.Proofs.Schema.RoundTrip
import CellAbi.Proofs.Sequences
import CellAbi.Proofs.Slicing
import CellAbi.Proofs.Sorted
import CellAbi.Proofs.Text.Affix
import CellAbi.Proofs.Text.Base64
import CellAbi.Proofs.Text.Hex
import CellAbi.Proofs.Text.Integer
import CellAbi.Proofs.Text.Numeral
import CellAbi.Proofs.Text.Quoted
import CellAbi.Proofs.Text.Words
import CellAbi.Proofs.Value.Agreement
import CellAbi.Proofs.Value.Conformance
import CellAbi.Proofs.Value.Equality
import CellAbi.Proofs.Value.Fitting
import CellAbi.Proofs.Value.IntegerText
import CellAbi.Proofs.Value.Json
import CellAbi.Proofs.Value.Members
import CellAbi.Proofs.Value.Part
import CellAbi.Proofs.Value.Proper
import CellAbi.Proofs.Value.Reading
import CellAbi.Proofs.Value.Rearrangement
import CellAbi.Proofs.Value.RoundTrip
import CellAbi.Proofs.Value.Spelling
import CellAbi.Proofs.Value.Surplus
import CellAbi.Proofs.Wire.Alignment
import CellAbi.Proofs.Wire.Conformance
import CellAbi.Proofs.Wire.Consultation
import CellAbi.Proofs.Wire.Encoding
import CellAbi.Proofs.Wire.RoundTrip
import CellAbi.Proofs.Wire.Service
import CellAbi.Schema.Contract
import CellAbi.Schema.Json
import CellAbi.Schema.Param
import CellAbi.Settings.Basic
import CellAbi.Settings.LogFilter
import CellAbi.Sorted
import CellAbi.SortedMap
import CellAbi.Text.Alphanumeric
import CellAbi.Text.Base64
import CellAbi.Text.Blank
import CellAbi.Text.Hex
import CellAbi.Text.LetterCase
import CellAbi.Text.Numeral
import CellAbi.Text.Quoted
import CellAbi.Text.Slice
import CellAbi.Text.Span
import CellAbi.Text.Words
import CellAbi.Toml.Basic
import CellAbi.Toml.Text
import CellAbi.Value.Basic
import CellAbi.Value.Json
import CellAbi.Wire.Codec
import CellAbi.Wire.Decode
import CellAbi.Wire.Encode
import CellAbi.Wire.Item
import CellAbi.Wire.TextCodec
