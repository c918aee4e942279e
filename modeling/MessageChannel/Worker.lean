import MessageChannel.Call
import MessageChannel.Message.Class

namespace MessageChannel.Worker

variable {μ α : Type} [Message μ]

/-- What the caller gets from a job that ran on a worker thread, or in place. Only a worker
contains a breakdown. -/
def settle (inWorker : Bool) : Except BodyFailure α → Except Halt α
  | .ok a => .ok a
  | .error (.refused error) => .error (.failed error)
  | .error .crashed => .error (if inWorker then .failed (.serialization .workerLost) else .crashed)

/-- A worker encodes a copy, the message stays with the caller. -/
def encode (inWorker : Bool) (m : μ) : Except Halt (List UInt8) :=
  if inWorker then settle true (Message.encode (Message.copy m))
  else settle false (Message.encode m)

theorem encode_eq (inWorker : Bool) (m : μ) :
    encode inWorker m = settle inWorker (Message.encode m) := by
  cases inWorker with
  | false => rfl
  | true => rw [encode, if_pos rfl, Message.encode_copy]

theorem encode_eq_ok_iff {inWorker : Bool} {m : μ} {bytes : List UInt8} :
    encode inWorker m = .ok bytes ↔ Message.encode m = .ok bytes := by
  rw [encode_eq]
  cases Message.encode m with
  | ok body => simp [settle]
  | error failure => cases failure <;> simp [settle]

def asReadFailure : BodyFailure → BodyFailure
  | .refused error => .refused error.asInvalidData
  | .crashed => .crashed

/-- The job of a worker that reads a body: it gives the payload back with what it has read. -/
def reading (m : μ) (payload : List UInt8) :
    Except BodyFailure (Except ChannelError μ × List UInt8) :=
  match Message.decode m payload with
  | .ok read => .ok (.ok read, payload)
  | .error (.refused error) => .ok (.error error, payload)
  | .error .crashed => .error .crashed

/-- Reads a body into a message, and hands the payload back for its memory. Whatever error the
message's reader gives, the caller gets invalid data. A worker that breaks down keeps the payload. -/
def read (inWorker : Bool) (m : μ) (payload : List UInt8) :
    Except Halt μ × Option (List UInt8) :=
  if inWorker then
    match settle true (reading m payload) with
    | .ok (.ok read, payload) => (.ok read, some payload)
    | .ok (.error error, payload) => (.error (.failed error.asInvalidData), some payload)
    | .error halt => (.error halt, none)
  else (settle false ((Message.decode m payload).mapError asReadFailure), some payload)

def decode (inWorker : Bool) (m : μ) (payload : List UInt8) : Except Halt μ :=
  (read inWorker m payload).1

theorem decode_eq (inWorker : Bool) (m : μ) (payload : List UInt8) :
    decode inWorker m payload =
      settle inWorker ((Message.decode m payload).mapError asReadFailure) := by
  cases inWorker with
  | false => rfl
  | true =>
      rw [decode, read, if_pos rfl, reading]
      cases Message.decode m payload with
      | ok read => rfl
      | error failure => cases failure <;> rfl

theorem decode_of_ok {inWorker : Bool} {m m' : μ} {bytes : List UInt8}
    (h : Message.decode m bytes = .ok m') : decode inWorker m bytes = .ok m' := by
  rw [decode_eq, h]
  rfl

theorem decode_of_error {inWorker : Bool} {m : μ} {bytes : List UInt8} {failure : BodyFailure}
    (h : Message.decode m bytes = .error failure) :
    decode inWorker m bytes = settle inWorker (.error (asReadFailure failure)) := by
  rw [decode_eq, h]
  rfl

theorem decode_eq_ok_iff {inWorker : Bool} {m m' : μ} {bytes : List UInt8} :
    decode inWorker m bytes = .ok m' ↔ Message.decode m bytes = .ok m' := by
  constructor
  · intro hok
    cases hdecode : Message.decode m bytes with
    | ok read =>
        rw [decode_of_ok hdecode] at hok
        rw [Except.ok.inj hok]
    | error failure =>
        rw [decode_of_error hdecode] at hok
        cases failure <;> simp [asReadFailure, settle] at hok
  · exact decode_of_ok

end MessageChannel.Worker
