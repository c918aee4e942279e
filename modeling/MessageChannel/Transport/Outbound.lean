import MessageChannel.Transport.Retry

namespace MessageChannel

inductive WriteAction where
  | cancel
  | fault (error : IoError)
  /-- The call accepts nothing: the peer is gone. -/
  | refuse
  | pause (duration : Nat)
deriving DecidableEq, Repr

/-- Something that happens to the writer once so many bytes have been accepted. -/
structure WriteEvent where
  after : Nat
  action : WriteAction
deriving DecidableEq, Repr

structure Outbound where
  written : Array UInt8 := #[]
  script : List WriteEvent := []
  limit : Option Nat := none
  /-- Flush calls that fail, each at so many accepted bytes or later. -/
  flushFaults : List (Nat × IoError) := []
  /-- The pieces that each write call was offered, the latest call first. -/
  offers : List (List (List UInt8)) := []
deriving DecidableEq, Repr

def takeFront : Nat → List (List UInt8) → List UInt8
  | _, [] => []
  | n, piece :: pieces =>
      match piece.drop n with
      | [] => piece ++ takeFront (n - piece.length) pieces
      | _ :: _ => piece.take n

/-- What the first `n` bytes leave of some pieces. No piece of it is empty at the front. -/
def dropFront : Nat → List (List UInt8) → List (List UInt8)
  | _, [] => []
  | n, piece :: pieces =>
      match piece.drop n with
      | [] => dropFront (n - piece.length) pieces
      | b :: left => (b :: left) :: pieces

theorem takeFront_eq (n : Nat) (pieces : List (List UInt8)) :
    takeFront n pieces = pieces.flatten.take n := by
  induction pieces generalizing n with
  | nil => simp [takeFront]
  | cons piece pieces ih =>
      rw [takeFront, List.flatten_cons, List.take_append]
      split
      · next h =>
        rw [ih, List.take_of_length_le (List.drop_eq_nil_iff.1 h)]
      · next h =>
        have hlt : n < piece.length := by
          have := congrArg List.length h
          simp only [List.length_drop, List.length_cons] at this
          omega
        simp [Nat.sub_eq_zero_of_le (Nat.le_of_lt hlt)]

theorem flatten_dropFront (n : Nat) (pieces : List (List UInt8)) :
    (dropFront n pieces).flatten = pieces.flatten.drop n := by
  induction pieces generalizing n with
  | nil => simp [dropFront]
  | cons piece pieces ih =>
      rw [dropFront, List.flatten_cons, List.drop_append]
      split
      · next h => rw [ih, h, List.nil_append]
      · next h =>
        have hlt : n < piece.length := by
          have := congrArg List.length h
          simp only [List.length_drop, List.length_cons] at this
          omega
        rw [h, List.flatten_cons, Nat.sub_eq_zero_of_le (Nat.le_of_lt hlt), List.drop_zero]

structure Due where
  answer : Option (Except IoError Nat)
  script : List WriteEvent
  now : Nat
  canceled : Bool

def Due.cancel (d : Due) : Due := { d with canceled := true }

structure Written where
  outcome : Except IoError Nat
  outbound : Outbound
  now : Nat
  canceled : Bool

structure Delivered where
  outcome : Except ChannelError Unit
  outbound : Outbound
  now : Nat
  canceled : Bool

def Delivered.orCanceled (d : Delivered) (canceled : Bool) : Delivered :=
  { d with canceled := canceled || d.canceled }

namespace Outbound

def writtenSince (o : Outbound) (count : Nat) : List UInt8 :=
  (o.written.extract count o.written.size).toList

/-- Runs the events that are due, up to one that answers the call. -/
def settle (count : Nat) : List WriteEvent → Nat → Due
  | [], now => ⟨none, [], now, false⟩
  | event :: script, now =>
      if event.after ≤ count then
        match event.action with
        | .cancel => (settle count script now).cancel
        | .pause duration => settle count script (now + duration)
        | .fault error => ⟨some (.error error), script, now, false⟩
        | .refuse => ⟨some (.ok 0), script, now, false⟩
      else ⟨none, event :: script, now, false⟩

/-- How many bytes a call accepts at most: up to the next event, and within the limit. -/
def room (o : Outbound) : Option Nat :=
  match o.script, o.limit with
  | [], limit => limit
  | event :: _, none => some (event.after - o.written.size)
  | event :: _, some limit => some (min limit (event.after - o.written.size))

def isDueCancel (count : Nat) (event : WriteEvent) : Bool :=
  event.after ≤ count && event.action == .cancel

/-- Takes bytes from the front of the pieces. A cancel that is due then comes within the call. -/
def accept (o : Outbound) (pieces : List (List UInt8)) (now : Nat) (canceled : Bool) : Written :=
  let front : List UInt8 := match o.room with
    | some n => takeFront n pieces
    | none => pieces.flatten
  let written := o.written ++ front
  let script := o.script.dropWhile (isDueCancel written.size)
  ⟨.ok front.length, { o with written, script }, now,
    canceled || (o.script.head?.any (isDueCancel written.size))⟩

def write (o : Outbound) (pieces : List (List UInt8)) (now : Nat) : Written :=
  let due := settle o.written.size o.script now
  let o := { o with script := due.script, offers := pieces :: o.offers }
  match due.answer with
  | some answer => ⟨answer, o, due.now, due.canceled⟩
  | none => o.accept pieces due.now due.canceled

def flush (o : Outbound) : Option IoError × Outbound :=
  match o.flushFaults with
  | [] => (none, o)
  | (after, error) :: faults =>
      if after ≤ o.written.size then (some error, { o with flushFaults := faults }) else (none, o)

def flushed (o : Outbound) (now : Nat) : Delivered :=
  match o.flush with
  | (none, o) => ⟨.ok (), o, now, false⟩
  | (some error, o) => ⟨.error (.io error), o, now, false⟩

theorem length_script_settle (count : Nat) (script : List WriteEvent) (now : Nat) :
    (settle count script now).script.length ≤ script.length := by
  fun_induction settle count script now <;> simp_all [Due.cancel] <;> omega

theorem length_script_settle_of_answer {count : Nat} {script : List WriteEvent} {now : Nat}
    {answer : Except IoError Nat} (h : (settle count script now).answer = some answer) :
    (settle count script now).script.length < script.length := by
  fun_induction settle count script now <;> simp_all [Due.cancel] <;> omega

theorem length_script_accept (o : Outbound) (pieces : List (List UInt8)) (now : Nat)
    (canceled : Bool) :
    (o.accept pieces now canceled).outbound.script.length ≤ o.script.length := by
  exact (List.dropWhile_sublist _).length_le

theorem length_script_write (o : Outbound) (pieces : List (List UInt8)) (now : Nat) :
    (o.write pieces now).outbound.script.length ≤ o.script.length := by
  simp only [write]
  split
  · exact length_script_settle ..
  · exact Nat.le_trans (length_script_accept ..) (length_script_settle ..)

theorem length_script_write_of_error {o : Outbound} {pieces : List (List UInt8)} {now : Nat}
    {error : IoError} (h : (o.write pieces now).outcome = .error error) :
    (o.write pieces now).outbound.script.length < o.script.length := by
  simp only [write] at h ⊢
  split
  · next hanswer => exact length_script_settle_of_answer hanswer
  · next hanswer => simp [hanswer, accept] at h

/-- Writes whole pieces, one after the other, and flushes. Errors that may pass are waited out; an
error of the flush never is. -/
def deliver (backoff : Nat) (pieces : List (List UInt8)) (o : Outbound) (now : Nat) : Delivered :=
  if _hnone : pieces.all List.isEmpty then o.flushed now
  else
    let w := o.write pieces now
    match _h : w.outcome with
    | .ok 0 => ⟨.error .connectionReset, w.outbound, w.now, w.canceled⟩
    | .ok (n + 1) =>
        (deliver backoff (dropFront (n + 1) pieces) w.outbound w.now).orCanceled w.canceled
    | .error error =>
        match error.retry with
        | .now => (deliver backoff pieces w.outbound w.now).orCanceled w.canceled
        | .later => (deliver backoff pieces w.outbound (w.now + backoff)).orCanceled w.canceled
        | .never error => ⟨.error error, w.outbound, w.now, w.canceled⟩
termination_by pieces.flatten.length + o.script.length
decreasing_by
  · have hscript := length_script_write o pieces now
    have hbytes : pieces.flatten ≠ [] := by
      intro hnil
      exact _hnone (by simpa using hnil)
    have hpos := List.length_pos_iff.2 hbytes
    rw [flatten_dropFront, List.length_drop]
    omega
  all_goals
    have hscript := length_script_write_of_error (o := o) (by assumption)
    omega

end Outbound

end MessageChannel
