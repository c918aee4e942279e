import MessageChannel.Body.Json.Reader
import MessageChannel.Body.Json.Writer
import MessageChannel.Body.MessagePack.Reader
import MessageChannel.Body.MessagePack.Writer
import MessageChannel.Error

namespace MessageChannel.Format

def encode : Format → Value → Except ChannelError (List UInt8)
  | messagePack, value => .ok (MessagePack.encode value)
  | json, value =>
      match Json.encode? value with
      | some bytes => .ok bytes
      | none => .error (.serialization .keyNotText)

def decode? : Format → List Schema → Shape → List UInt8 → Option Value
  | messagePack => MessagePack.decode?
  | json => Json.decode?

def decode (format : Format) (records : List Schema) (shape : Shape) (bytes : List UInt8) :
    Except ChannelError Value :=
  match format.decode? records shape bytes with
  | some value => .ok value
  | none => .error (.invalidData (.malformed format))

end MessageChannel.Format
