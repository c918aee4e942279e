import MessageChannel.Transport.Inbound

namespace MessageChannel

/-- What a stream has for its reader: the bytes and the errors that last, in their order. It does
not show how the bytes are cut, nor what is waited out between them. -/
structure Course where
  steps : List (Except ChannelError UInt8)
  /-- Whether reads wait when all is read. Otherwise the peer is gone. -/
  silent : Bool

namespace Course

/-- How a read goes, with what is left behind it. -/
structure Reading where
  outcome : FillEnd
  bytes : List UInt8
  rest : Course

def Reading.behind (front : List UInt8) (r : Reading) : Reading :=
  { r with bytes := front ++ r.bytes }

def readFrom (silent : Bool) : List (Except ChannelError UInt8) → Nat → Reading
  | steps, 0 => ⟨.full, [], ⟨steps, silent⟩⟩
  | [], _ + 1 => ⟨if silent then .stalled else .failed .connectionReset, [], ⟨[], silent⟩⟩
  | .error error :: steps, _ + 1 => ⟨.failed error, [], ⟨steps, silent⟩⟩
  | .ok b :: steps, n + 1 => (readFrom silent steps n).behind [b]

def read (c : Course) (n : Nat) : Reading := readFrom c.silent c.steps n

/-- A course with these bytes before it. -/
def behind (front : List UInt8) (c : Course) : Course :=
  { c with steps := front.map .ok ++ c.steps }

@[simp] theorem read_zero (c : Course) : c.read 0 = ⟨.full, [], c⟩ := by
  simp [read, readFrom]

theorem readFrom_bytes (silent : Bool) (data : List UInt8)
    (steps : List (Except ChannelError UInt8)) (n : Nat) :
    readFrom silent (data.map .ok ++ steps) (data.length + n) =
      (readFrom silent steps n).behind data := by
  induction data with
  | nil => simp [Reading.behind]
  | cons b data ih =>
      rw [List.map_cons, List.cons_append, List.length_cons, Nat.add_right_comm, readFrom, ih]
      rfl

theorem read_behind (c : Course) (front : List UInt8) (n : Nat) :
    (c.behind front).read (front.length + n) = (c.read n).behind front := readFrom_bytes ..

/-- A read in two parts is a read of both. -/
theorem readFrom_add (silent : Bool) (steps : List (Except ChannelError UInt8)) (m n : Nat) :
    readFrom silent steps (m + n) =
      if (readFrom silent steps m).outcome = .full then
        ((readFrom silent steps m).rest.read n).behind (readFrom silent steps m).bytes
      else readFrom silent steps m := by
  induction m generalizing steps with
  | zero => simp [readFrom, read, Reading.behind]
  | succ m ih =>
      rw [Nat.add_right_comm]
      cases steps with
      | nil => cases silent <;> simp [readFrom]
      | cons step steps =>
          cases step with
          | error error => simp [readFrom]
          | ok b =>
              rw [readFrom, readFrom, ih]
              by_cases hfull : (readFrom silent steps m).outcome = .full
              · rw [if_pos hfull, if_pos (by exact hfull)]
                rfl
              · rw [if_neg hfull, if_neg (by exact hfull)]

theorem read_add (c : Course) (m n : Nat) :
    c.read (m + n) = if (c.read m).outcome = .full
      then ((c.read m).rest.read n).behind (c.read m).bytes else c.read m :=
  readFrom_add ..

end Course

namespace Inbound

def steps : List Arrival → List (Except ChannelError UInt8)
  | [] | .closed :: _ => []
  | .bytes data :: rest => data.map .ok ++ steps rest
  | .fault error :: rest =>
      match error.retry with
      | .never error => .error error :: steps rest
      | _ => steps rest
  | .pause _ :: rest | .silentUntil _ :: rest => steps rest

def silentBehind (staysOpen : Bool) : List Arrival → Bool
  | [] => staysOpen
  | .closed :: _ => false
  | _ :: rest => silentBehind staysOpen rest

def course (i : Inbound) : Course := ⟨steps i.arrivals, silentBehind i.staysOpen i.arrivals⟩

section

variable (staysOpen : Bool) (rest : List Arrival)

@[simp] theorem course_bytes (data : List UInt8) :
    course ⟨.bytes data :: rest, staysOpen⟩ = (course ⟨rest, staysOpen⟩).behind data := rfl

/-- An error that may pass does not show. -/
theorem course_fault {error : IoError} (h : error.retry = .now ∨ error.retry = .later) :
    course ⟨.fault error :: rest, staysOpen⟩ = course ⟨rest, staysOpen⟩ := by
  rcases h with h | h <;> simp [course, steps, silentBehind, h]

end

end Inbound

/-- The ways in which some bytes may come to a reader, before something else does: cut into pieces,
with pauses and errors that may pass anywhere. -/
inductive Inbound.Brings (behind : List Arrival) : List UInt8 → List Arrival → Prop
  | nothing : Brings behind [] behind
  | piece {bytes rest} (data) (h : Brings behind bytes rest) :
      Brings behind (data ++ bytes) (.bytes data :: rest)
  | pause {bytes rest} (duration) (h : Brings behind bytes rest) :
      Brings behind bytes (.pause duration :: rest)
  | fault {bytes rest error} (hpasses : error.retry = .now ∨ error.retry = .later)
      (h : Brings behind bytes rest) : Brings behind bytes (.fault error :: rest)

theorem Inbound.Brings.course {behind arrivals : List Arrival} {bytes : List UInt8}
    (h : Brings behind bytes arrivals) (staysOpen : Bool) :
    Inbound.course ⟨arrivals, staysOpen⟩ = (Inbound.course ⟨behind, staysOpen⟩).behind bytes := by
  induction h with
  | nothing => rfl
  | piece data h ih =>
      rw [course_bytes, ih]
      simp [Course.behind]
  | pause duration h ih => exact ih
  | fault hpasses h ih =>
      rw [course_fault _ _ hpasses]
      exact ih

def Filled.reading (filled : Filled) : Course.Reading :=
  ⟨filled.outcome, filled.bytes, filled.inbound.course⟩

namespace Inbound

/-- However the bytes are cut, and whatever is waited out, a read goes by the course of the stream,
unless a deadline ends it. -/
theorem fillFrom_reading (staysOpen : Bool) (backoff : Nat) (deadline : Option Nat)
    (arrivals : List Arrival) (now n : Nat)
    (h : (fillFrom staysOpen backoff deadline arrivals now n).outcome ≠ .expired) :
    (fillFrom staysOpen backoff deadline arrivals now n).reading =
      (course ⟨arrivals, staysOpen⟩).read n := by
  -- The last line is for the cases that end with the deadline, which `h` rules out.
  fun_induction fillFrom staysOpen backoff deadline arrivals now n with
  | case1 arrivals now => simp [Filled.reading]
  | case3 now n hopen =>
      simp [Filled.reading, Course.read, Course.readFrom, course, steps, silentBehind, hopen]
  | case4 now n hclosed =>
      simp [Filled.reading, Course.read, Course.readFrom, course, steps, silentBehind, hclosed]
  | case5 data rest now n front left hsplit =>
      obtain ⟨rfl, hlength⟩ := splitExactly?_eq_some_iff.1 hsplit
      have hread := ((course ⟨rest, staysOpen⟩).behind left).read_behind front 0
      rw [Nat.add_zero, hlength] at hread
      simpa [Filled.reading, Course.behind, Course.Reading.behind] using hread.symm
  | case6 data rest now n hsplit filled ih =>
      have hlt := splitExactly?_eq_none_iff.1 hsplit
      have hread := (course ⟨rest, staysOpen⟩).read_behind data (n + 1 - data.length)
      rw [Nat.add_sub_cancel' (Nat.le_of_lt hlt)] at hread
      rw [course_bytes, hread, ← ih h]
      rfl
  | case7 duration rest now n wake htime ih => exact ih h
  | case9 wake rest now n htime ih => exact ih h
  | case11 error rest now n hretry ih =>
      rw [course_fault _ _ (.inl hretry)]
      exact ih h
  | case12 error rest now n hretry htime ih =>
      rw [course_fault _ _ (.inr hretry)]
      exact ih h
  | case14 error rest now n error' hretry =>
      simp [Filled.reading, course, steps, silentBehind, hretry, Course.read, Course.readFrom]
  | case15 rest now n =>
      simp [Filled.reading, course, steps, silentBehind, Course.read, Course.readFrom]
  | _ => simp [fillFrom.expire] at h

/-- A read that gives up has read some bytes of the course. -/
theorem fillFrom_expired_course (staysOpen : Bool) (backoff : Nat) (deadline : Option Nat)
    (arrivals : List Arrival) (now n : Nat)
    (h : (fillFrom staysOpen backoff deadline arrivals now n).outcome = .expired) :
    course ⟨arrivals, staysOpen⟩ =
      (fillFrom staysOpen backoff deadline arrivals now n).inbound.course.behind
        (fillFrom staysOpen backoff deadline arrivals now n).bytes := by
  fun_induction fillFrom staysOpen backoff deadline arrivals now n with
  | case2 now n hopen limit => rfl
  | case6 data rest now n hsplit filled ih =>
      rw [course_bytes, ih h]
      simp [Course.behind, filled]
  | case7 duration rest now n wake htime ih | case9 wake rest now n htime ih => exact ih h
  | case8 | case10 => rfl
  | case11 error rest now n hretry ih =>
      rw [course_fault _ _ (.inl hretry)]
      exact ih h
  | case12 error rest now n hretry htime ih =>
      rw [course_fault _ _ (.inr hretry)]
      exact ih h
  | case13 error rest now n hretry htime =>
      rw [course_fault _ _ (.inr hretry)]
      rfl
  | _ => simp at h

theorem fill_reading (i : Inbound) (backoff : Nat) (deadline : Option Nat) (now n : Nat) :
    (i.fill backoff deadline now n).outcome = .expired ∨
      (i.fill backoff deadline now n).reading = i.course.read n := by
  by_cases hexpired : (i.fill backoff deadline now n).outcome = .expired
  · exact .inl hexpired
  · exact .inr (fillFrom_reading _ _ _ _ _ _ hexpired)

end Inbound

end MessageChannel
