import MessageChannel.Proofs.FrameCodec
import MessageChannel.Proofs.WriteCalls

namespace MessageChannel

/-- What a write call is offered of a frame, so many bytes of which are written: the rest of the
header and all of the payload, if it has any, or the rest of the payload. -/
def Frame.remaining (f : Frame) (skip : Nat) : List (List UInt8) :=
  if skip < headerSize then
    if f.payload.isEmpty then [f.header.encode.drop skip]
    else [f.header.encode.drop skip, f.payload]
  else [f.payload.drop (skip - headerSize)]

namespace Frame

variable {f : Frame} {skip : Nat}

theorem piecesFrom_pieces (hskip : skip < f.encode.length) :
    piecesFrom skip f.pieces = f.remaining skip := by
  rw [length_encode] at hskip
  have hheader := f.header.length_encode
  by_cases hzero : skip = 0
  · simp [piecesFrom, pieces, remaining, hzero, headerSize]
  · rw [piecesFrom, if_neg hzero, pieces, remaining]
    by_cases hempty : f.payload.isEmpty = true
    · rw [List.isEmpty_iff.1 hempty, List.length_nil] at hskip
      rw [if_pos hempty, if_pos hempty, if_pos (by omega), dropFront_of_lt (by omega)]
    · rw [if_neg hempty, if_neg hempty]
      by_cases hlt : skip < headerSize
      · rw [if_pos hlt, dropFront_of_lt (by omega)]
      · rw [if_neg hlt, dropFront_of_le (by omega), hheader, dropFront_of_lt (by omega)]

theorem nil_notMem_remaining (hskip : skip < f.encode.length) : [] ∉ f.remaining skip := by
  rw [length_encode] at hskip
  have hheader := f.header.length_encode
  have hdrop : ∀ (bytes : List UInt8) (n : Nat), n < bytes.length → [] ≠ bytes.drop n := by
    intro bytes n hlt hnil
    have hle := List.drop_eq_nil_iff.1 hnil.symm
    omega
  rw [remaining]
  split
  · next hlt =>
    have hne := hdrop f.header.encode skip (by omega)
    split
    · simpa using hne
    · next hfull => simpa [hne, List.isEmpty_iff] using hfull
  · simpa using hdrop f.payload (skip - headerSize) (by omega)

end Frame

namespace Outbound

/-- The transport is at a point from which on no byte passes. -/
def PeerGone (o : Outbound) : Prop :=
  o.limit = some 0 ∨ ∃ e ∈ o.script, e.action = .refuse ∧ e.after ≤ o.written.size

theorem refuse_of_settle {count now n : Nat} {script : List WriteEvent}
    (h : (settle count script now).answer = some (.ok n)) :
    ∃ e ∈ script, e.action = .refuse ∧ e.after ≤ count := by
  fun_induction settle count script now with
  | case1 now => simp at h
  | case2 event script now hdue haction ih | case3 event script now hdue duration haction ih =>
      obtain ⟨e, he, hrefuse⟩ := ih h
      exact ⟨e, List.mem_cons_of_mem _ he, hrefuse⟩
  | case4 event script now hdue error haction => simp at h
  | case5 event script now hdue haction => exact ⟨event, List.mem_cons_self, haction, hdue⟩
  | case6 event script now hdue => simp at h

/-- A call that is offered some byte takes none only if the peer is gone. -/
theorem peerGone_of_write {o : Outbound} {pieces : List (List UInt8)} {now : Nat}
    (hpieces : pieces.flatten ≠ []) (hzero : (o.write pieces now).outcome = .ok 0) :
    o.PeerGone := by
  cases hanswer : (settle o.written.size o.script now).answer with
  | some answer =>
      simp only [write, hanswer] at hzero
      exact .inr (refuse_of_settle (hzero ▸ hanswer))
  | none =>
      refine .inl (Decidable.byContradiction fun hlimit => ?_)
      simp only [write, hanswer] at hzero
      obtain ⟨n, hn⟩ := accept_pos (o := { o with
          script := (settle o.written.size o.script now).script
          offers := pieces :: o.offers }) hlimit (lt_after_of_settle hanswer) hpieces
        (settle o.written.size o.script now).now (settle o.written.size o.script now).canceled
      cases hzero.symm.trans hn

section

variable {backoff now n : Nat} {pieces : List (List UInt8)} {o : Outbound} {error : IoError}
  {error' : ChannelError}

theorem deliver_of_nil (h : pieces.flatten = []) :
    deliver backoff pieces o now = o.flushed now := by
  rw [deliver, dif_pos (by simpa using h)]

theorem deliver_of_refused (h : pieces.flatten ≠ [])
    (hw : (o.write pieces now).outcome = .ok 0) :
    deliver backoff pieces o now = ⟨.error .connectionReset, (o.write pieces now).outbound,
      (o.write pieces now).now, (o.write pieces now).canceled⟩ := by
  rw [deliver, dif_neg (by simpa using h)]
  dsimp only
  split <;> simp_all

theorem deliver_of_written (h : pieces.flatten ≠ [])
    (hw : (o.write pieces now).outcome = .ok (n + 1)) :
    deliver backoff pieces o now =
      (deliver backoff (dropFront (n + 1) pieces) (o.write pieces now).outbound
        (o.write pieces now).now).orCanceled (o.write pieces now).canceled := by
  rw [deliver, dif_neg (by simpa using h)]
  dsimp only
  split <;> simp_all

theorem deliver_of_now (h : pieces.flatten ≠ [])
    (hw : (o.write pieces now).outcome = .error error) (hretry : error.retry = .now) :
    deliver backoff pieces o now = (deliver backoff pieces (o.write pieces now).outbound
      (o.write pieces now).now).orCanceled (o.write pieces now).canceled := by
  rw [deliver, dif_neg (by simpa using h)]
  dsimp only
  split <;> simp_all

theorem deliver_of_later (h : pieces.flatten ≠ [])
    (hw : (o.write pieces now).outcome = .error error) (hretry : error.retry = .later) :
    deliver backoff pieces o now = (deliver backoff pieces (o.write pieces now).outbound
      ((o.write pieces now).now + backoff)).orCanceled (o.write pieces now).canceled := by
  rw [deliver, dif_neg (by simpa using h)]
  dsimp only
  split <;> simp_all

theorem deliver_of_never (h : pieces.flatten ≠ [])
    (hw : (o.write pieces now).outcome = .error error) (hretry : error.retry = .never error') :
    deliver backoff pieces o now = ⟨.error error', (o.write pieces now).outbound,
      (o.write pieces now).now, (o.write pieces now).canceled⟩ := by
  rw [deliver, dif_neg (by simpa using h)]
  dsimp only
  split <;> simp_all

/-- The outbound side with another record of what write calls were offered. -/
def recording (o : Outbound) (offers : List (List (List UInt8))) : Outbound := { o with offers }

end

end Outbound

def Written.recording (w : Written) (offers : List (List (List UInt8))) : Written :=
  { w with outbound := w.outbound.recording offers }

def Delivered.recording (d : Delivered) (offers : List (List (List UInt8))) : Delivered :=
  { d with outbound := d.outbound.recording offers }

namespace Outbound

/-- A write call does not go by how its bytes are cut, nor by what is recorded. -/
theorem write_recording {pieces pieces' : List (List UInt8)}
    (hflatten : pieces'.flatten = pieces.flatten) (o : Outbound)
    (offers : List (List (List UInt8))) (now : Nat) :
    (o.recording offers).write pieces' now =
      (o.write pieces now).recording (pieces' :: offers) := by
  simp only [write, recording, Written.recording]
  split
  · rfl
  · simp only [accept, room, takeFront_eq, hflatten]

theorem flushed_recording (o : Outbound) (offers : List (List (List UInt8))) (now : Nat) :
    (o.recording offers).flushed now = (o.flushed now).recording offers := by
  cases hfaults : o.flushFaults with
  | nil => simp [flushed, flush, recording, Delivered.recording, hfaults]
  | cons fault faults =>
      simp only [flushed, flush, recording, Delivered.recording, hfaults]
      by_cases hdue : fault.1 ≤ o.written.size <;> simp [hdue, hfaults]

/-- Nor does a delivery. -/
theorem deliver_recording (backoff : Nat) (pieces : List (List UInt8)) (o : Outbound) (now : Nat) :
    ∀ pieces', pieces'.flatten = pieces.flatten → ∀ offers, ∃ offers',
      deliver backoff pieces' (o.recording offers) now =
        (deliver backoff pieces o now).recording offers' := by
  -- Each call changes the cut and the record, so the induction has to hold for any.
  fun_induction deliver backoff pieces o now with
  | case1 pieces o now hnone =>
      intro pieces' hflatten offers
      have hempty : pieces.flatten = [] := by simpa using hnone
      exact ⟨offers, by rw [deliver_of_nil (hflatten.trans hempty), flushed_recording]⟩
  | case2 pieces o now hnone w hzero =>
      intro pieces' hflatten offers
      have hpieces : pieces'.flatten ≠ [] := by simpa [hflatten] using hnone
      have hwrite := write_recording hflatten o offers now
      rw [deliver_of_refused hpieces (by rw [hwrite]; exact hzero), hwrite]
      exact ⟨_, rfl⟩
  | case3 pieces o now hnone w n hwritten ih =>
      intro pieces' hflatten offers
      have hpieces : pieces'.flatten ≠ [] := by simpa [hflatten] using hnone
      have hwrite := write_recording hflatten o offers now
      have hrest : (dropFront (n + 1) pieces').flatten = (dropFront (n + 1) pieces).flatten := by
        rw [flatten_dropFront, flatten_dropFront, hflatten]
      obtain ⟨offers', hdelivered⟩ := ih _ hrest (pieces' :: offers)
      rw [deliver_of_written hpieces (by rw [hwrite]; exact hwritten), hwrite]
      exact ⟨offers', congrArg (·.orCanceled w.canceled) hdelivered⟩
  | case4 pieces o now hnone w error hfault hretry ih =>
      intro pieces' hflatten offers
      have hpieces : pieces'.flatten ≠ [] := by simpa [hflatten] using hnone
      have hwrite := write_recording hflatten o offers now
      obtain ⟨offers', hdelivered⟩ := ih _ hflatten (pieces' :: offers)
      rw [deliver_of_now hpieces (by rw [hwrite]; exact hfault) hretry, hwrite]
      exact ⟨offers', congrArg (·.orCanceled w.canceled) hdelivered⟩
  | case5 pieces o now hnone w error hfault hretry ih =>
      intro pieces' hflatten offers
      have hpieces : pieces'.flatten ≠ [] := by simpa [hflatten] using hnone
      have hwrite := write_recording hflatten o offers now
      obtain ⟨offers', hdelivered⟩ := ih _ hflatten (pieces' :: offers)
      rw [deliver_of_later hpieces (by rw [hwrite]; exact hfault) hretry, hwrite]
      exact ⟨offers', congrArg (·.orCanceled w.canceled) hdelivered⟩
  | case6 pieces o now hnone w error hfault error' hretry =>
      intro pieces' hflatten offers
      have hpieces : pieces'.flatten ≠ [] := by simpa [hflatten] using hnone
      have hwrite := write_recording hflatten o offers now
      rw [deliver_of_never hpieces (by rw [hwrite]; exact hfault) hretry, hwrite]
      exact ⟨_, rfl⟩

/-- A frame is written exactly, whatever the transport does. Each call is offered all of it that is
not written yet, in pieces none of which is empty, so a call that takes nothing has found the peer
gone. The header and the payload as one piece go to the transport in the same way, and a transport
that does not fail takes them all. -/
theorem deliver_exactly (backoff : Nat) (f : Frame) (o : Outbound) (now : Nat) :
    let d := deliver backoff f.pieces o now
    let raw := deliver backoff [f.encode] o now
    (∃ calls last, Calls o calls last ∧
      d.outbound.offers = (calls.map (·.offer)).reverse ++ o.offers ∧
      d.outbound.written = last.written ∧
      ∀ call ∈ calls, ∃ skip < f.encode.length,
        call.outbound.written.toList = o.written.toList ++ f.encode.take skip ∧
        call.offer = f.remaining skip ∧ call.offer.flatten = f.encode.drop skip ∧
        [] ∉ call.offer ∧
        (call.result.outcome = .ok 0 →
          call.outbound.PeerGone ∧ d.outcome = .error .connectionReset)) ∧
    (o.Unfailing → d.outcome = .ok ()) ∧
    (d.outcome = .ok () → d.outbound.written.toList = o.written.toList ++ f.encode) ∧
    (∀ error, d.outcome = .error error → ∃ front, front <+: f.encode ∧
      d.outbound.written.toList = o.written.toList ++ front) ∧
    raw.outcome = d.outcome ∧ raw.outbound.written = d.outbound.written := by
  intro d raw
  have hpieces : f.pieces.flatten = f.encode := f.flatten_pieces
  obtain ⟨front, back, hsplit, haccepts, hdone, -⟩ := deliver_accepts backoff f.pieces o now
  rw [hpieces] at hsplit
  refine ⟨?_, fun ho => deliver_unfailing backoff f.pieces ho now, fun hok => ?_,
    fun error _ => ⟨front, ⟨back, hsplit.symm⟩, haccepts.written⟩, ?_⟩
  · obtain ⟨calls, last, hcalls, h⟩ := deliver_calls backoff f.pieces o now
    refine ⟨calls, last, hcalls, h.offers, h.written, fun call hcall => ?_⟩
    obtain ⟨skip, hlt, hwritten, hoffer⟩ := h.resumes call hcall
    rw [hpieces] at hlt hwritten
    have hleft : call.offer.flatten = f.encode.drop skip := by
      rw [hoffer, flatten_piecesFrom, hpieces]
    rw [Frame.piecesFrom_pieces hlt] at hoffer
    refine ⟨skip, hlt, hwritten, hoffer, hleft, hoffer ▸ Frame.nil_notMem_remaining hlt,
      fun hzero => ⟨peerGone_of_write ?_ hzero, h.refused call hcall hzero⟩⟩
    rw [hleft, Ne, List.drop_eq_nil_iff]
    omega
  · rw [hsplit, hdone hok, List.append_nil]
    exact haccepts.written
  · obtain ⟨offers, hraw⟩ := deliver_recording backoff f.pieces o now [f.encode]
      (by rw [hpieces, List.flatten_singleton]) o.offers
    exact ⟨congrArg (·.outcome) hraw, congrArg (·.outbound.written) hraw⟩

end Outbound

end MessageChannel
