import MessageChannel.Message.Raw
import MessageChannel.PeerTable

namespace MessageChannel

/-- Why a message has no body, or takes none. -/
inductive BodyFailure where
  | refused (error : ChannelError)
  /-- The message's own code broke down. -/
  | crashed
deriving DecidableEq, Repr

/-- What the engines ask of messages. -/
class Message (μ : Type) where
  typeId : μ → Int32
  name : μ → String
  encode : μ → Except BodyFailure (List UInt8)
  /-- The message with the content of a body. -/
  decode : μ → List UInt8 → Except BodyFailure μ
  /-- What is handed to a worker thread in the message's stead. -/
  copy : μ → μ
  /-- A copy is faithful. Those who write message types promise this, and no engine checks it: all
  that is proved of sending rests on it, for a message whose copy has another body would go out as
  that body from a worker thread and as its own without one. -/
  encode_copy : ∀ m, encode (copy m) = encode m
  ofRaw : RawMessage → μ
  ofTable : Int32 → PeerTable → μ

end MessageChannel
