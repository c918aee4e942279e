import MessageChannel.Proofs.Available
import MessageChannel.Proofs.WriteCalls

namespace MessageChannel

namespace Arrival

/-- Bytes, a pause, or an error after which the read is made again. -/
def Passes : Arrival → Prop
  | bytes _ | pause _ | silentUntil _ => True
  | fault error => error.Transient
  | closed => False

def data : Arrival → List UInt8
  | bytes data => data
  | _ => []

end Arrival

namespace Inbound

variable (staysOpen : Bool)

/-- Reads get over arrivals that pass, with all their bytes. -/
theorem leads_over {before : List Arrival} (hbefore : ∀ a ∈ before, a.Passes)
    (behind : List Arrival) :
    Leads ⟨before ++ behind, staysOpen⟩ (before.flatMap (·.data)) ⟨behind, staysOpen⟩ := by
  induction before with
  | nil => exact .refl _
  | cons a before ih =>
      obtain ⟨hpasses, hbefore⟩ := List.forall_mem_cons.1 hbefore
      have hrest := ih hbefore
      cases a with
      | bytes data => exact hrest.cons_bytes data
      | pause duration | silentUntil wake => exact hrest.congr rfl rfl
      | fault error =>
          cases hretry : error.retry with
          | now | later =>
              refine hrest.congr ?_ ?_
              · simp [available, readable, hretry]
              · simp [ending, endOf, hretry]
          | never error' => exact absurd hpasses (IoError.retry_eq_never_iff.1 hretry).1
      | closed => exact hpasses.elim

theorem ending_cons_fault {error : IoError} (hlasts : ¬error.Transient) (behind : List Arrival) :
    let i : Inbound := ⟨.fault error :: behind, staysOpen⟩
    i.available = [] ∧ i.ending = .failed error.report := by
  have hretry := IoError.retry_eq_never_iff.2 ⟨hlasts, rfl⟩
  exact ⟨by simp [available, readable, hretry], by simp [ending, endOf, hretry]⟩

/-- A read over arrivals that pass takes their bytes, or comes to the end behind them. -/
theorem fill_over {before : List Arrival} (hbefore : ∀ a ∈ before, a.Passes)
    (behind : List Arrival) (backoff now n : Nat) :
    let data := before.flatMap (·.data)
    let filled := fill ⟨before ++ behind, staysOpen⟩ backoff none now n
    (n ≤ data.length → filled.outcome = .full ∧ filled.bytes = data.take n) ∧
    (data.length < n → available ⟨behind, staysOpen⟩ = [] →
      filled.outcome = ending ⟨behind, staysOpen⟩) := by
  intro data filled
  have hleads : Leads _ data _ := leads_over staysOpen hbefore behind
  rcases fill_cases ⟨before ++ behind, staysOpen⟩ backoff none now n with
    ⟨hfull, hlength, htaken⟩ | ⟨hend, hshort⟩ | ⟨-, hnone, -⟩
  · have hsplit := htaken.available.symm.trans hleads.available
    refine ⟨fun hle => ⟨hfull, ?_⟩, fun hlt hempty => ?_⟩
    · have hfront := congrArg (List.take n) hsplit
      rwa [List.take_left' hlength, List.take_append_of_le_length hle] at hfront
    · have hlengths := congrArg List.length hsplit
      rw [hempty, List.append_nil, List.length_append] at hlengths
      omega
  · refine ⟨fun hle => ?_, fun _ _ => hend.trans hleads.ending.symm⟩
    rw [hleads.available, List.length_append] at hshort
    omega
  · exact absurd rfl hnone

end Inbound

/-- Errors that may pass fail no transfer: a write whose calls all pass has written everything, and
a read over arrivals that pass has all their bytes. A call that takes nothing, or an error that
lasts, ends the transfer. The flush alone is not waited for: whatever error it meets, the transfer
fails with that error as it is. -/
theorem transfers_waitedOut (backoff : Nat) (pieces : List (List UInt8)) (o : Outbound)
    (staysOpen : Bool) (before behind : List Arrival) (now n : Nat) :
    let d := o.deliver backoff pieces now
    let data := before.flatMap (·.data)
    let filled := Inbound.fill ⟨before ++ behind, staysOpen⟩ backoff none now n
    (∃ calls last, o.Calls calls last ∧
      d.outbound.offers = (calls.map (·.offer)).reverse ++ o.offers ∧
      d.outbound.written = last.written ∧
      ((∀ call ∈ calls, call.Passes) →
        last.written.toList = o.written.toList ++ pieces.flatten ∧
        (last.flush.1 = none → d.outcome = .ok ()) ∧
        ∀ error, last.flush.1 = some error → d.outcome = .error (.io error)) ∧
      (∀ call ∈ calls, call.result.outcome = .ok 0 → d.outcome = .error .connectionReset) ∧
      ∀ call ∈ calls, ∀ error, call.result.outcome = .error error → ¬error.Transient →
        d.outcome = .error error.report) ∧
    (o.Unfailing → d.outcome = .ok ()) ∧
    ((∀ a ∈ before, a.Passes) →
      (n ≤ data.length → filled.outcome = .full ∧ filled.bytes = data.take n) ∧
      (data.length < n →
        (∀ error rest, behind = .fault error :: rest → ¬error.Transient →
          filled.outcome = .failed error.report) ∧
        ((behind = [] ∧ staysOpen = false) ∨ (∃ rest, behind = .closed :: rest) →
          filled.outcome = .failed .connectionReset))) := by
  intro d data filled
  refine ⟨?_, fun ho => Outbound.deliver_unfailing backoff pieces ho now, fun hbefore => ?_⟩
  · obtain ⟨calls, last, hcalls, h⟩ := Outbound.deliver_calls backoff pieces o now
    exact ⟨calls, last, hcalls, h.offers, h.written, h.passed, h.refused, h.failed⟩
  · obtain ⟨henough, hshort⟩ := Inbound.fill_over staysOpen hbefore behind backoff now n
    refine ⟨henough, fun hlt => ⟨?_, ?_⟩⟩
    · rintro error rest rfl hlasts
      obtain ⟨hempty, hending⟩ := Inbound.ending_cons_fault staysOpen hlasts rest
      exact (hshort hlt hempty).trans hending
    · rintro (⟨rfl, rfl⟩ | ⟨rest, rfl⟩)
      · exact hshort hlt rfl
      · exact hshort hlt rfl

def interruption : IoError := .reported .interrupted "mock interrupted"

/-- Three bytes are written over a call that would block and one that is interrupted, and read where
there is no room for them at first. There is no fourth. -/
theorem transfers_waitedOut_halting :
    let o : Outbound := { script := [⟨1, .fault (.system 11)⟩, ⟨2, .fault interruption⟩] }
    let arrivals : List Arrival :=
      [.bytes [97, 98], .fault (.system IoError.noBuffers), .bytes [99], .closed]
    let read n := Inbound.fill ⟨arrivals, false⟩ 10 none 0 n
    (o.deliver 10 [[97, 98, 99]] 0).outcome = .ok () ∧
      (read 3).outcome = .full ∧ (read 3).bytes = [97, 98, 99] ∧
      (read 4).outcome = .failed .connectionReset := by
  intro o arrivals read
  have ho : o.Unfailing := by
    refine ⟨fun e he => ?_, nofun, rfl⟩
    rcases List.mem_cons.1 he with rfl | he
    · exact nofun
    · obtain rfl := List.mem_singleton.1 he
      exact nofun
  let before : List Arrival :=
    [.bytes [97, 98], .fault (.system IoError.noBuffers), .bytes [99]]
  have hbefore : ∀ a ∈ before, a.Passes := by
    intro a ha
    simp only [before, List.mem_cons, List.not_mem_nil, or_false] at ha
    rcases ha with rfl | rfl | rfl
    · trivial
    · exact .inr (.inr rfl)
    · trivial
  obtain ⟨-, hwritten, hthree⟩ :=
    transfers_waitedOut 10 [[97, 98, 99]] o false before [.closed] 0 3
  obtain ⟨-, -, hfour⟩ := transfers_waitedOut 10 [[97, 98, 99]] o false before [.closed] 0 4
  obtain ⟨hfull, hbytes⟩ := (hthree hbefore).1 (by decide)
  exact ⟨hwritten ho, hfull, hbytes, ((hfour hbefore).2 (by decide)).2 (.inr ⟨[], rfl⟩)⟩

/-- An outbound side that takes all bytes, and whose flush fails. -/
def Outbound.failingFlush (error : IoError) : Outbound := { flushFaults := [(0, error)] }

def Delivered.error? (d : Delivered) : Option ChannelError :=
  match d.outcome with
  | .ok () => none
  | .error error => some error

/-- An interrupted flush fails a transfer all of whose bytes are written, and a flush that finds
the connection reset does not say so. -/
theorem flush_interrupted_fails :
    let d := (Outbound.failingFlush interruption).deliver 10 [[97, 98, 99]] 0
    let d' := (Outbound.failingFlush (.system 104)).deliver 10 [[97, 98, 99]] 0
    (interruption.Transient ∧ d.error? = some (.io interruption) ∧
      d.outbound.written = #[97, 98, 99]) ∧
    IoError.Severs (.system 104) ∧ d'.error? = some (.io (.system 104)) := by
  decide +kernel

end MessageChannel
