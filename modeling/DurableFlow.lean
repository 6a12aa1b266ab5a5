import DurableFlow.Node.Basic
import DurableFlow.Proofs.Wire.Reading
import DurableFlow.Sample.Host
import DurableFlow.Sample.Serializers
import DurableFlow.Proofs.Wire.Element
import DurableFlow.Proofs.Wire.Envelope
import DurableFlow.Proofs.Reading.Failing
import DurableFlow.Proofs.Environment.Calls
import DurableFlow.Proofs.Environment.Depth
import DurableFlow.Proofs.Serializer.Bindings
import DurableFlow.Proofs.Serializer.Registry
import DurableFlow.Proofs.Environment.Registration
import DurableFlow.Proofs.RoundTrip.Plain
import DurableFlow.Proofs.Types.Name
import DurableFlow.Proofs.RoundTrip.Objects
import DurableFlow.Proofs.RoundTrip.Typed
import DurableFlow.Proofs.RoundTrip.Erased
import DurableFlow.Proofs.RoundTrip.Snapshot
import DurableFlow.Proofs.Environment.Checkpoint
import DurableFlow.Proofs.Node.Checkpoints
import DurableFlow.Proofs.Admission.Gated
import DurableFlow.Proofs.Admission.Writing
import DurableFlow.Proofs.Admission.Reading
import DurableFlow.Proofs.Admission.Effect
import DurableFlow.Proofs.Writing.Within
import DurableFlow.Proofs.RoundTrip.Layouts
import DurableFlow.Proofs.RoundTrip.Portable
import DurableFlow.Proofs.RoundTrip.Recovered
import DurableFlow.Proofs.Environment.Oblivious
import DurableFlow.Proofs.Machine.Verification
import DurableFlow.Proofs.Node.Shutdown
import DurableFlow.Proofs.Environment.Requests
import DurableFlow.Proofs.Environment.Isolation
import DurableFlow.Proofs.Environment.Selection
import DurableFlow.Proofs.Machine.Transparency
import DurableFlow.Proofs.Machine.Lifecycle
import DurableFlow.Proofs.Machine.Queue
import DurableFlow.Proofs.Environment.Histories
import DurableFlow.Proofs.Schema.Encodes
import DurableFlow.Proofs.Schema.Described
import DurableFlow.Proofs.Reading.ByName
import DurableFlow.Proofs.Admission.Batches
import DurableFlow.Proofs.Reading.DataErrors
import DurableFlow.Proofs.Environment.Setups
import DurableFlow.Proofs.Reading.Dynamic
import DurableFlow.Proofs.Typing.Values
import DurableFlow.Proofs.Typing.Agreement
import DurableFlow.Proofs.Typing.Confusion
import DurableFlow.Proofs.Machine.Actions
import DurableFlow.Proofs.Machine.History
import DurableFlow.Proofs.Calendar.Bodies
import DurableFlow.Proofs.RoundTrip.Builtins
import DurableFlow.Proofs.Environment.Defaults
import DurableFlow.Proofs.RoundTrip.Calendar
import DurableFlow.Proofs.RoundTrip.Offsets
import DurableFlow.Proofs.Values.Numeral
import DurableFlow.Proofs.Values.Decimal
import DurableFlow.Proofs.RoundTrip.Decimals
import DurableFlow.Proofs.RoundTrip.Keys
import DurableFlow.Proofs.Values.Lawful
import DurableFlow.Proofs.RoundTrip.Spelled
import DurableFlow.Proofs.RoundTrip.Native
import DurableFlow.Proofs.RoundTrip.Tidied
import DurableFlow.Proofs.Values.BitSet
import DurableFlow.Proofs.RoundTrip.BitSets
import DurableFlow.Proofs.Calendar.Months
import DurableFlow.Proofs.Machine.Captures
import DurableFlow.Proofs.Types.NativeTable
import DurableFlow.Proofs.Failure.Capture
