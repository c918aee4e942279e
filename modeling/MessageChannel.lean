import MessageChannel.Frame
import MessageChannel.Flags
import MessageChannel.Config
import MessageChannel.Slice.Assembly
import MessageChannel.Cancel
import MessageChannel.Message.Any
import MessageChannel.Registry.Text
import MessageChannel.Stream.Send
import MessageChannel.Stream.Receive
import MessageChannel.Datagram.Send
import MessageChannel.Datagram.Receive
import MessageChannel.Proofs.Available
import MessageChannel.Proofs.CallEffect
import MessageChannel.Proofs.Intake
import MessageChannel.Proofs.Hears
import MessageChannel.Proofs.Receipt
import MessageChannel.Proofs.FrameGrammar
import MessageChannel.Proofs.FailureCodes
import MessageChannel.Proofs.Recognition
import MessageChannel.Proofs.Patience
import MessageChannel.Proofs.Delivery
import MessageChannel.Proofs.Says
import MessageChannel.Proofs.Emission
import MessageChannel.Proofs.SendWire
import MessageChannel.Proofs.WireLanguage
import MessageChannel.Proofs.MessagePackCodec
import MessageChannel.Proofs.MessagePackExtent
import MessageChannel.Proofs.Reassembly
import MessageChannel.Proofs.TableCodec
import MessageChannel.Proofs.Conversation
import MessageChannel.Proofs.Listening
import MessageChannel.Proofs.Speaking
import MessageChannel.Proofs.Fidelity
import MessageChannel.Proofs.FrameSteps
import MessageChannel.Proofs.Passage
import MessageChannel.Proofs.Standing
import MessageChannel.Proofs.Coverage
import MessageChannel.Proofs.CallFrame
import MessageChannel.Proofs.Untouched
import MessageChannel.Proofs.Disguise
import MessageChannel.Proofs.History
import MessageChannel.Proofs.Containment
import MessageChannel.Proofs.Registration
import MessageChannel.Proofs.Reconciliation
import MessageChannel.Proofs.Posting
import MessageChannel.Proofs.SizeLimits
import MessageChannel.Proofs.Course
import MessageChannel.Proofs.Promptness
import MessageChannel.Proofs.Fragmentation
import MessageChannel.Proofs.Remnants
import MessageChannel.Proofs.Timeouts
import MessageChannel.Proofs.Progress
import MessageChannel.Proofs.Insistence
import MessageChannel.Proofs.Handshake
import MessageChannel.Proofs.StreamTables
import MessageChannel.Proofs.DatagramTables
import MessageChannel.Proofs.Chronicle
import MessageChannel.Proofs.DatagramReading
import MessageChannel.Proofs.DatagramReceipt
import MessageChannel.Proofs.DatagramAnswers
import MessageChannel.Proofs.Agreement
import MessageChannel.Proofs.AllOrNothing
import MessageChannel.Proofs.Transfer
import MessageChannel.Proofs.BodyRoundTrip
import MessageChannel.Proofs.Relay
import MessageChannel.Proofs.OrderlyRegistry
import MessageChannel.Proofs.AssemblyHistory
import MessageChannel.Proofs.LatestSlice
import MessageChannel.Proofs.AnyOrder
import MessageChannel.Proofs.WriteCalls
import MessageChannel.Proofs.ExactWriting
import MessageChannel.Proofs.Interruptions
import MessageChannel.Proofs.Sending
import MessageChannel.Proofs.Refusal
import MessageChannel.Proofs.Requests
import MessageChannel.Proofs.LastHeader
import MessageChannel.Proofs.Annals
import MessageChannel.Proofs.Completion
import MessageChannel.Proofs.ErrorMeanings
import MessageChannel.Proofs.Refinement
import MessageChannel.Proofs.Offload
import MessageChannel.Proofs.HeaderCodec
import MessageChannel.Proofs.SlicePartition
import MessageChannel.Proofs.JsonCodec
import MessageChannel.Proofs.JsonRoundTrip
