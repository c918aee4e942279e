import MessageChannel.Transport.Inbound
import MessageChannel.Transport.Outbound

namespace MessageChannel

structure ByteStream where
  inbound : Inbound := {}
  outbound : Outbound := {}
  shutdownFault : Option IoError := none
  shutdowns : Nat := 0
deriving DecidableEq, Repr

namespace ByteStream

def shutdown (t : ByteStream) : Except ChannelError Unit × ByteStream :=
  let ended := match t.shutdownFault with
    | some error => .error (.io error)
    | none => .ok ()
  (ended, { t with shutdownFault := none, shutdowns := t.shutdowns + 1 })

end ByteStream

end MessageChannel
