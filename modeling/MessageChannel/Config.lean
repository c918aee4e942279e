import MessageChannel.Header

namespace MessageChannel

def defaultSliceSize : Nat := 1200

def maxDatagramSize : Nat := 65535

/-- The largest payload that a datagram is sent with. Two of these bytes are more than a receiver
with a buffer of the default size takes. -/
def maxDatagramPayload : Nat := 65527

/-- Durations are in milliseconds. -/
structure Config where
  /-- The size of a slice frame with its header. -/
  sliceSize : Nat := defaultSliceSize
  maxPayload : UInt32 := 4294967295
  /-- How long to wait for the first byte of a message. -/
  recvTimeout : Option Nat := none
  retryBackoff : Nat := 10
  datagramBuffer : Nat := maxDatagramSize
deriving DecidableEq, Repr

namespace Config

def withSliceSize (c : Config) (size : Nat) : Config :=
  { c with sliceSize := max size (headerSize + 1) }

def withDatagramBuffer (c : Config) (size : Nat) : Config :=
  { c with datagramBuffer := max size headerSize }

end Config

end MessageChannel
