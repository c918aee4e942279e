import MessageChannel.Stream.Receiver
import MessageChannel.Transport.ByteStream

namespace MessageChannel

structure StreamSession (μ : Type) where
  registry : Registry μ
  config : Config := {}
  transport : Option ByteStream := none
  receiver : Receiver μ
  /-- Whether the send under way, or the next one, is asked to stop. -/
  cancelRequested : Bool := false

namespace StreamSession

variable {μ : Type}

def new (registry : Registry μ) (config : Config) (transport : ByteStream) : StreamSession μ where
  registry := registry
  config := config
  transport := some transport
  receiver := .ofConfig config

def isConnected (s : StreamSession μ) : Bool := s.transport.isSome

def unread (s : StreamSession μ) : Nat := (s.transport.map fun t => t.inbound.unread).getD 0

def closedError : ChannelError := .io (.reported .notConnected "stream client is closed")

def connected : Call (StreamSession μ) ByteStream := do
  match (← Call.session).transport with
  | some t => return t
  | none => Call.fail closedError

def setTable (s : StreamSession μ) (table : PeerTable) : StreamSession μ :=
  { s with receiver := { s.receiver with peerTable := table } }

def reset (s : StreamSession μ) : StreamSession μ := { s with receiver := s.receiver.reset }

/-- Puts another transport in the place of the present one, which is handed out. What the peer has
told of itself is kept if it is the same peer. -/
def replaceTransport (t : ByteStream) (reconnect : Bool) :
    Call (StreamSession μ) (Option ByteStream) := do
  let old := (← Call.session).transport
  Call.update fun s => { s.reset with transport := some t }
  unless reconnect do
    Call.update fun s => { s with receiver := { s.receiver with peerTable := .empty, header := {} } }
  Call.tell (.transportReplaced reconnect)
  return old

/-- Gives up the transport, if there is one: what is left of it, and how its shutdown went. -/
def close (s : StreamSession μ) :
    (Option ByteStream × Except ChannelError Unit) × StreamSession μ :=
  let closed := { s.reset with transport := none }
  match s.transport with
  | some t =>
      let (ended, t) := t.shutdown
      ((some t, ended), closed)
  | none => ((none, .ok ()), closed)

end StreamSession

end MessageChannel
