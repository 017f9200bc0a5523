import Interop.Bindings.Basic
import Interop.Bindings.Codec
import Interop.Bindings.Compile
import Interop.Bridge.Async
import Interop.Bridge.Basic
import Interop.Bridge.Call
import Interop.Bridge.Callback
import Interop.Bridge.Error
import Interop.Bridge.Fields
import Interop.Bridge.Lifetime
import Interop.Bridge.Lift
import Interop.Bridge.Lower
import Interop.Bridge.NativeCall
import Interop.Bridge.Registration
import Interop.Call.Async
import Interop.Call.Build
import Interop.Call.Codec
import Interop.Call.Plan
import Interop.Closures
import Interop.Descriptor
import Interop.Descriptor.Codec
import Interop.Handle
import Interop.Json.Basic
import Interop.Json.Numeral
import Interop.Json.Parser
import Interop.Json.Reader
import Interop.Json.Token
import Interop.Layout.Basic
import Interop.Layout.Calculator
import Interop.Layout.Codec
import Interop.Layout.Compute
import Interop.Layout.Slot
import Interop.Lists
import Interop.Mapping.Error
import Interop.Mapping.Import
import Interop.Mapping.Mapper
import Interop.Memory.Access
import Interop.Memory.Block
import Interop.Memory.Heap
import Interop.Number.Binary
import Interop.Number.Power
import Interop.ObjectKind
import Interop.Options
import Interop.Primitive
import Interop.Quarks
import Interop.Registry.Classes
import Interop.Registry.Codec
import Interop.Registry.Error
import Interop.Registry.Hierarchy
import Interop.Registry.Objects
import Interop.Registry.Parents
import Interop.Schema.Callable
import Interop.Schema.Codec
import Interop.Schema.Declaration
import Interop.Schema.Repository
import Interop.Schema.TypeRef
import Interop.Service.Edits
import Interop.Service.Layouts
import Interop.Service.Plans
import Interop.Service.Request
import Interop.Service.Tables
import Interop.Service.Types
import Interop.Service.Values
import Interop.Symbols
import Interop.Text.Combining
import Interop.Text.Hex
import Interop.Text.Quoted
import Interop.Text.Ranges
import Interop.Text.Shapeless
import Interop.Text.Utf8
import Interop.TypeHash
import Interop.Value
import Interop.Proofs.Closures
import Interop.Proofs.Layout.Memo
import Interop.Proofs.Layout.Leaves
import Interop.Proofs.Layout.Tight
import Interop.Proofs.Layout.Remembered
import Interop.Proofs.Bindings.FieldWidth
import Interop.Proofs.Bridge.ScalarFields
import Interop.Proofs.Bindings.Complete
import Interop.Proofs.Call.Slots
import Interop.Proofs.Memory.Spaced
import Interop.Proofs.Bridge.Blocks
import Interop.Proofs.Registry.Wrappers
import Interop.Proofs.Registry.Identities
import Interop.Proofs.Registry.Ledger
import Interop.Proofs.Registry.Uses
import Interop.Proofs.Registry.Nearest
import Interop.Proofs.Registry.Edits
import Interop.Proofs.Registry.References
import Interop.Proofs.Bridge.Changes
import Interop.Proofs.Bridge.InlineRecords
import Interop.Proofs.Bridge.Calls
import Interop.Proofs.Schema.Lineage
import Interop.Proofs.Bridge.Ancestry
import Interop.Proofs.Bridge.Retry
import Interop.Proofs.Bridge.Depth
import Interop.Proofs.Bridge.Moves
import Interop.Proofs.Bridge.Outcome
import Interop.Proofs.Bridge.Leftovers
import Interop.Proofs.Bridge.Records
import Interop.Proofs.Bridge.Releases
import Interop.Proofs.Bridge.Confluence
import Interop.Proofs.Descriptor.Written
import Interop.Proofs.Call.Ownership
import Interop.Proofs.Bridge.RecordSizes
import Interop.Proofs.Bridge.Elements
import Interop.Proofs.Mapping.Qualified
import Interop.Proofs.Call.Handlers
import Interop.Proofs.Call.Imports
import Interop.Proofs.Call.Owners
import Interop.Proofs.Memory.Writes
import Interop.Proofs.Memory.Frame
import Interop.Proofs.Memory.Encodings
import Interop.Proofs.Bridge.FailedWrites
import Interop.Proofs.Bridge.StartValues
import Interop.Proofs.Bridge.Tokens
import Interop.Proofs.Bridge.ArrayArguments
import Interop.Proofs.Bridge.ArrayResults
import Interop.Proofs.Bridge.RecordResults
import Interop.Proofs.Bridge.Omitted
import Interop.Proofs.Bridge.NativeErrors
import Interop.Proofs.Bridge.Outputs
import Interop.Proofs.Bridge.Descent
import Interop.Proofs.Bridge.Wrappable
import Interop.Proofs.Schema.Sites
import Interop.Proofs.Bridge.Terminated
import Interop.Proofs.Layout.Progress
import Interop.Proofs.Bridge.Quarks
