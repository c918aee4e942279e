import MessageChannel.Endpoint
import MessageChannel.Transport.Retry

namespace MessageChannel

inductive DatagramArrival where
  | datagram (sender : Endpoint) (data : List UInt8)
  | pause (duration : Nat)
  | fault (error : IoError)
deriving DecidableEq, Repr

inductive SendReply where
  | whole
  /-- The datagram is taken, but the call tells another number of bytes. -/
  | counted (size : Nat)
  | fault (error : IoError)
deriving DecidableEq, Repr

structure DatagramSocket where
  arrivals : List DatagramArrival := []
  /-- The answers to send calls. After them, every datagram is taken whole. -/
  replies : List SendReply := []
  sent : Array (Endpoint × List UInt8) := #[]
deriving DecidableEq, Repr

/-- How the sending of one datagram ended: with the number of bytes told, or an error. -/
structure Posted where
  outcome : Except ChannelError Nat
  replies : List SendReply
  now : Nat

inductive PickupEnd where
  | datagram (sender : Endpoint) (data : List UInt8)
  | failed (error : ChannelError)
  | expired
  | stalled
deriving DecidableEq, Repr

/-- The buffer of the receiver afterwards: a datagram is written over its front. -/
def PickupEnd.fill (buffer : List UInt8) : PickupEnd → List UInt8
  | .datagram _ data => data ++ buffer.drop data.length
  | .failed _ | .expired | .stalled => buffer

structure PickedUp where
  outcome : PickupEnd
  arrivals : List DatagramArrival
  now : Nat
deriving DecidableEq, Repr

namespace DatagramSocket

def sentSince (p : DatagramSocket) (count : Nat) : List (Endpoint × List UInt8) :=
  (p.sent.extract count p.sent.size).toList

def post (backoff size : Nat) : List SendReply → Nat → Posted
  | [], now => ⟨.ok size, [], now⟩
  | .whole :: replies, now => ⟨.ok size, replies, now⟩
  | .counted told :: replies, now => ⟨.ok told, replies, now⟩
  | .fault error :: replies, now =>
      match error.retry with
      | .now => post backoff size replies now
      | .later => post backoff size replies (now + backoff)
      | .never error => ⟨.error error, replies, now⟩

def send (p : DatagramSocket) (backoff : Nat) (target : Endpoint) (data : List UInt8) (now : Nat) :
    Except ChannelError Nat × DatagramSocket × Nat :=
  let posted := post backoff data.length p.replies now
  let sent := match posted.outcome with
    | .ok _ => p.sent.push (target, data)
    | .error _ => p.sent
  (posted.outcome, { p with replies := posted.replies, sent }, posted.now)

/-- Waits for a datagram and cuts it to the size of the buffer. A pause that outlasts the deadline
is over for the next wait. -/
def pickUp (capacity backoff : Nat) (deadline : Option Nat) : List DatagramArrival → Nat → PickedUp
  | [], now =>
      match deadline with
      | some limit => ⟨.expired, [], limit⟩
      | none => ⟨.stalled, [], now⟩
  | .datagram sender data :: rest, now => ⟨.datagram sender (data.take capacity), rest, now⟩
  | .pause duration :: rest, now =>
      if inTime deadline (now + duration) then
        pickUp capacity backoff deadline rest (now + duration)
      else ⟨.expired, rest, deadline.getD now⟩
  | .fault error :: rest, now =>
      match error.retry with
      | .now => pickUp capacity backoff deadline rest now
      | .later =>
          if inTime deadline (now + backoff) then
            pickUp capacity backoff deadline rest (now + backoff)
          else ⟨.expired, rest, deadline.getD now⟩
      | .never error => ⟨.failed error, rest, now⟩

def receive (p : DatagramSocket) (capacity backoff : Nat) (deadline : Option Nat) (now : Nat) :
    PickupEnd × DatagramSocket × Nat :=
  let picked := pickUp capacity backoff deadline p.arrivals now
  (picked.outcome, { p with arrivals := picked.arrivals }, picked.now)

/-- A wait that ends with a datagram takes at least one arrival. -/
theorem length_arrivals_pickUp {capacity backoff now : Nat} {deadline : Option Nat}
    {arrivals : List DatagramArrival} {sender : Endpoint} {data : List UInt8}
    (h : (pickUp capacity backoff deadline arrivals now).outcome = .datagram sender data) :
    (pickUp capacity backoff deadline arrivals now).arrivals.length < arrivals.length := by
  fun_induction pickUp capacity backoff deadline arrivals now <;> simp_all <;> omega

end DatagramSocket

end MessageChannel
