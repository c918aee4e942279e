import MessageChannel.Call
import MessageChannel.Config
import MessageChannel.Registry
import MessageChannel.Transport.Datagrams

namespace MessageChannel

/-- A side that talks in datagrams, each one a whole frame. -/
structure DatagramSession (μ : Type) where
  registry : Registry μ
  config : Config := {}
  socket : Option DatagramSocket := none
  header : Header := {}
  peerTable : PeerTable := .empty
  /-- The last datagram at its front, and behind it what longer ones have left there. -/
  buffer : List UInt8 := []

namespace DatagramSession

variable {μ : Type}

def closedError : ChannelError := .io (.reported .notConnected "datagram client is closed")

def isConnected (s : DatagramSession μ) : Bool := s.socket.isSome

def connected : Call (DatagramSession μ) DatagramSocket := do
  match (← Call.session).socket with
  | some p => return p
  | none => Call.fail closedError

def close (s : DatagramSession μ) : DatagramSession μ := { s with socket := none, buffer := [] }

/-- The buffer at the size that the configuration says. It keeps what it holds, and new bytes are
zeros. -/
def resizedBuffer (s : DatagramSession μ) : List UInt8 :=
  (s.buffer.take s.config.datagramBuffer).rightpad s.config.datagramBuffer 0

end DatagramSession

end MessageChannel
