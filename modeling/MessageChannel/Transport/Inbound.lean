import MessageChannel.Bytes
import MessageChannel.Transport.Retry

namespace MessageChannel

/-- What a reader meets next. Times are in milliseconds. -/
inductive Arrival where
  | bytes (data : List UInt8)
  /-- Nothing comes for so long, counted from when a read gets here. -/
  | pause (duration : Nat)
  /-- A pause that has begun, with its end. -/
  | silentUntil (wake : Nat)
  | fault (error : IoError)
  /-- The peer is gone: every read gives no bytes. -/
  | closed
deriving DecidableEq, Repr

def Arrival.size : Arrival → Nat
  | bytes data => data.length
  | _ => 0

structure Inbound where
  arrivals : List Arrival := []
  /-- Whether reads wait when all is read. Otherwise the peer is gone. -/
  staysOpen : Bool := false
deriving DecidableEq, Repr

inductive FillEnd where
  | full
  | failed (error : ChannelError)
  | expired
  | stalled
deriving DecidableEq, Repr

structure Filled where
  outcome : FillEnd
  bytes : List UInt8 := []
  inbound : Inbound
  now : Nat

namespace Inbound

def unread (i : Inbound) : Nat := i.arrivals.foldr (fun a n => a.size + n) 0

/-- Reads until there are `n` bytes, over whatever pieces they come in. Errors that may pass are
waited out. -/
def fillFrom (staysOpen : Bool) (backoff : Nat) (deadline : Option Nat) :
    List Arrival → Nat → Nat → Filled
  | arrivals, now, 0 => ⟨.full, [], ⟨arrivals, staysOpen⟩, now⟩
  | [], now, _ + 1 =>
      if staysOpen then
        match deadline with
        | some limit => ⟨.expired, [], ⟨[], staysOpen⟩, limit⟩
        | none => ⟨.stalled, [], ⟨[], staysOpen⟩, now⟩
      else ⟨.failed .connectionReset, [], ⟨[], staysOpen⟩, now⟩
  | .bytes data :: rest, now, n + 1 =>
      match splitExactly? (n + 1) data with
      | some (front, left) => ⟨.full, front, ⟨.bytes left :: rest, staysOpen⟩, now⟩
      | none =>
          let filled := fillFrom staysOpen backoff deadline rest now (n + 1 - data.length)
          { filled with bytes := data ++ filled.bytes }
  | .pause duration :: rest, now, n + 1 =>
      let wake := now + duration
      if inTime deadline wake then fillFrom staysOpen backoff deadline rest wake (n + 1)
      else expire wake rest now
  | .silentUntil wake :: rest, now, n + 1 =>
      if inTime deadline (max now wake) then
        fillFrom staysOpen backoff deadline rest (max now wake) (n + 1)
      else expire wake rest now
  | .fault error :: rest, now, n + 1 =>
      match error.retry with
      | .now => fillFrom staysOpen backoff deadline rest now (n + 1)
      | .later =>
          if inTime deadline (now + backoff) then
            fillFrom staysOpen backoff deadline rest (now + backoff) (n + 1)
          else ⟨.expired, [], ⟨rest, staysOpen⟩, deadline.getD now⟩
      | .never error => ⟨.failed error, [], ⟨rest, staysOpen⟩, now⟩
  | .closed :: rest, now, _ + 1 => ⟨.failed .connectionReset, [], ⟨.closed :: rest, staysOpen⟩, now⟩
where
  expire (wake : Nat) (rest : List Arrival) (now : Nat) : Filled :=
    ⟨.expired, [], ⟨.silentUntil wake :: rest, staysOpen⟩, deadline.getD now⟩

def fill (i : Inbound) (backoff : Nat) (deadline : Option Nat) (now n : Nat) : Filled :=
  fillFrom i.staysOpen backoff deadline i.arrivals now n

/-- Every byte read is one unread byte less; none is lost on the way. -/
theorem unread_fillFrom (staysOpen : Bool) (backoff : Nat) (deadline : Option Nat)
    (arrivals : List Arrival) (now n : Nat) :
    (fillFrom staysOpen backoff deadline arrivals now n).inbound.unread +
      (fillFrom staysOpen backoff deadline arrivals now n).bytes.length =
        unread ⟨arrivals, staysOpen⟩ := by
  fun_induction fillFrom staysOpen backoff deadline arrivals now n with
  | case5 =>
      next hsplit =>
      obtain ⟨rfl, -⟩ := splitExactly?_eq_some_iff.1 hsplit
      simp [unread, Arrival.size]
      omega
  | case6 data rest now n hsplit filled ih =>
      change filled.inbound.unread + filled.bytes.length = unread ⟨rest, staysOpen⟩ at ih
      simp only [unread, List.foldr_cons, Arrival.size, List.length_append] at ih ⊢
      omega
  | _ => simp_all [unread, Arrival.size, fillFrom.expire]

theorem length_bytes_fillFrom (staysOpen : Bool) (backoff : Nat) (deadline : Option Nat)
    (arrivals : List Arrival) (now n : Nat)
    (h : (fillFrom staysOpen backoff deadline arrivals now n).outcome = .full) :
    (fillFrom staysOpen backoff deadline arrivals now n).bytes.length = n := by
  fun_induction fillFrom staysOpen backoff deadline arrivals now n with
  | case5 =>
      next hsplit => exact (splitExactly?_eq_some_iff.1 hsplit).2
  | case6 data rest now n hsplit filled ih =>
      have hlt := splitExactly?_eq_none_iff.1 hsplit
      have hbytes : filled.bytes.length = n + 1 - data.length := ih h
      simp only [List.length_append]
      omega
  | _ => simp_all [fillFrom.expire]

theorem unread_fill (i : Inbound) (backoff : Nat) (deadline : Option Nat) (now n : Nat) :
    (i.fill backoff deadline now n).inbound.unread + (i.fill backoff deadline now n).bytes.length =
      i.unread :=
  unread_fillFrom ..

theorem length_bytes_fill {i : Inbound} {backoff now n : Nat} {deadline : Option Nat}
    (h : (i.fill backoff deadline now n).outcome = .full) :
    (i.fill backoff deadline now n).bytes.length = n :=
  length_bytes_fillFrom _ _ _ _ _ _ h

end Inbound

end MessageChannel
