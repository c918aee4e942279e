import MessageChannel.Error

namespace MessageChannel

inductive Retry where
  | later
  | now
  | never (error : ChannelError)
deriving DecidableEq, Repr

def IoError.retry (error : IoError) : Retry :=
  match error.kind with
  | .wouldBlock => .later
  | .interrupted => .now
  | .connectionReset | .connectionAborted | .brokenPipe | .unexpectedEof => .never .connectionReset
  | _ => if error = .system IoError.noBuffers then .later else .never (.io error)

theorem IoError.eq_of_retry_eq_never {error : IoError} {error' : ChannelError}
    (h : error.retry = .never error') : error' = .connectionReset ∨ error' = .io error := by
  unfold retry at h
  split at h
  · cases h
  · cases h
  · exact .inl (Retry.never.inj h).symm
  · exact .inl (Retry.never.inj h).symm
  · exact .inl (Retry.never.inj h).symm
  · exact .inl (Retry.never.inj h).symm
  · split at h
    · cases h
    · exact .inr (Retry.never.inj h).symm

/-- Whether something due at `wake` still comes before a deadline. At the very deadline it does. -/
def inTime (deadline : Option Nat) (wake : Nat) : Bool :=
  match deadline with
  | some limit => wake ≤ limit
  | none => true

end MessageChannel
