import MessageChannel.Proofs.Delivery

namespace MessageChannel

namespace IoError

/-- The same call is made again after such an error. -/
def Transient (error : IoError) : Prop :=
  error.kind = .wouldBlock ∨ error.kind = .interrupted ∨ error = .system noBuffers

/-- The peer is gone, says such an error. -/
def Severs (error : IoError) : Prop :=
  error.kind = .connectionReset ∨ error.kind = .connectionAborted ∨ error.kind = .brokenPipe ∨
    error.kind = .unexpectedEof

instance (error : IoError) : Decidable error.Transient := inferInstanceAs (Decidable (_ ∨ _))

instance (error : IoError) : Decidable error.Severs := inferInstanceAs (Decidable (_ ∨ _))

/-- What an error that lasts is called on a channel. -/
def report (error : IoError) : ChannelError := if error.Severs then .connectionReset else .io error

theorem retry_eq_never_iff {error : IoError} {error' : ChannelError} :
    error.retry = .never error' ↔ ¬error.Transient ∧ error' = error.report := by
  cases hkind : error.kind with
  | wouldBlock | interrupted => simp [retry, Transient, hkind]
  | connectionReset | connectionAborted | brokenPipe | unexpectedEof =>
      have hne : error ≠ .system noBuffers := by
        rintro rfl
        cases hkind
      simp [retry, Transient, report, Severs, hkind, hne, eq_comm]
  | permissionDenied | notConnected | connectionRefused | timedOut | writeZero | other =>
      simp only [retry, Transient, report, Severs, hkind]
      by_cases hfull : error = .system noBuffers <;> simp [hfull, eq_comm]

theorem Transient.of_retry {error : IoError} (h : error.retry = .now ∨ error.retry = .later) :
    error.Transient := by
  apply Decidable.byContradiction
  intro hlasts
  have hnever := retry_eq_never_iff.2 ⟨hlasts, rfl⟩
  rcases h with h | h <;> simp [h] at hnever

end IoError

/-- A write call: what it is offered, on which outbound side, and when. -/
structure WriteCall where
  offer : List (List UInt8)
  outbound : Outbound
  now : Nat

namespace WriteCall

def result (call : WriteCall) : Written := call.outbound.write call.offer call.now

/-- The call takes bytes, or it is one to be made again. -/
def Passes (call : WriteCall) : Prop :=
  match call.result.outcome with
  | .ok n => n ≠ 0
  | .error error => error.Transient

end WriteCall

/-- What is left of some pieces when so many bytes of them are written. -/
def piecesFrom (skip : Nat) (pieces : List (List UInt8)) : List (List UInt8) :=
  if skip = 0 then pieces else dropFront skip pieces

theorem flatten_piecesFrom (skip : Nat) (pieces : List (List UInt8)) :
    (piecesFrom skip pieces).flatten = pieces.flatten.drop skip := by
  by_cases hskip : skip = 0
  · simp [piecesFrom, hskip]
  · rw [piecesFrom, if_neg hskip, flatten_dropFront]

theorem dropFront_of_lt {n : Nat} {piece : List UInt8} (h : n < piece.length)
    (pieces : List (List UInt8)) : dropFront n (piece :: pieces) = piece.drop n :: pieces := by
  rw [dropFront]
  split
  · next hnil =>
    have hle := List.drop_eq_nil_iff.1 hnil
    omega
  · next hcons => rw [hcons]

theorem dropFront_of_le {n : Nat} {piece : List UInt8} (h : piece.length ≤ n)
    (pieces : List (List UInt8)) :
    dropFront n (piece :: pieces) = dropFront (n - piece.length) pieces := by
  rw [dropFront, List.drop_of_length_le h]

theorem dropFront_dropFront (m n : Nat) (pieces : List (List UInt8)) :
    dropFront n (dropFront m pieces) = dropFront (m + n) pieces := by
  induction pieces generalizing m n with
  | nil => rfl
  | cons piece pieces ih =>
      by_cases hm : m < piece.length
      · rw [dropFront_of_lt hm]
        by_cases hn : m + n < piece.length
        · rw [dropFront_of_lt hn, dropFront_of_lt (by rw [List.length_drop]; omega), List.drop_drop]
        · rw [dropFront_of_le (by rw [List.length_drop]; omega), dropFront_of_le (by omega),
            List.length_drop]
          congr 1
          omega
      · rw [dropFront_of_le (by omega), dropFront_of_le (by omega), ih]
        congr 1
        omega

theorem piecesFrom_piecesFrom (m n : Nat) (pieces : List (List UInt8)) :
    piecesFrom n (piecesFrom m pieces) = piecesFrom (m + n) pieces := by
  cases m with
  | zero => simp [piecesFrom]
  | succ m =>
      cases n with
      | zero => simp [piecesFrom]
      | succ n => simp [piecesFrom, dropFront_dropFront, Nat.add_eq_zero_iff]

namespace Outbound

/-- Write calls one after the other, each on the outbound side that the one before it leaves. -/
inductive Calls : Outbound → List WriteCall → Outbound → Prop
  | none (o : Outbound) : Calls o [] o
  | next {o last : Outbound} {offer now calls} (h : Calls (o.write offer now).outbound calls last) :
      Calls o (⟨offer, o, now⟩ :: calls) last

/-- A call that goes on with some pieces, so many bytes of which are written. -/
structure Resumes (pieces : List (List UInt8)) (o : Outbound) (skip : Nat) (call : WriteCall) :
    Prop where
  skip_lt : skip < pieces.flatten.length
  written : call.outbound.written.toList = o.written.toList ++ pieces.flatten.take skip
  offer : call.offer = piecesFrom skip pieces

/-- What comes of some pieces with these write calls, and with the flush behind them. -/
structure Concludes (pieces : List (List UInt8)) (o : Outbound) (calls : List WriteCall)
    (last : Outbound) (d : Delivered) : Prop where
  offers : d.outbound.offers = (calls.map (·.offer)).reverse ++ o.offers
  written : d.outbound.written = last.written
  resumes : ∀ call ∈ calls, ∃ skip, Resumes pieces o skip call
  passed : (∀ call ∈ calls, call.Passes) →
    last.written.toList = o.written.toList ++ pieces.flatten ∧
      (last.flush.1 = none → d.outcome = .ok ()) ∧
      ∀ error, last.flush.1 = some error → d.outcome = .error (.io error)
  refused : ∀ call ∈ calls, call.result.outcome = .ok 0 → d.outcome = .error .connectionReset
  failed : ∀ call ∈ calls, ∀ error, call.result.outcome = .error error → ¬error.Transient →
    d.outcome = .error error.report

theorem offers_write (o : Outbound) (pieces : List (List UInt8)) (now : Nat) :
    (o.write pieces now).outbound.offers = pieces :: o.offers := by
  simp only [write]
  split <;> rfl

theorem resumes_first {pieces : List (List UInt8)} (hpieces : pieces.flatten ≠ []) (o : Outbound)
    (now : Nat) : Resumes pieces o 0 ⟨pieces, o, now⟩ :=
  ⟨List.length_pos_iff.2 hpieces, by simp, rfl⟩

/-- A call in front that takes so many bytes, or that is to be made again. -/
theorem Concludes.next {pieces : List (List UInt8)} {o last : Outbound} {now : Nat}
    {calls : List WriteCall} {d : Delivered} (n : Nat) (canceled : Bool)
    (hpieces : pieces.flatten ≠ []) (hpasses : WriteCall.Passes ⟨pieces, o, now⟩)
    (hwritten : (o.write pieces now).outbound.written.toList =
      o.written.toList ++ pieces.flatten.take n)
    (h : Concludes (piecesFrom n pieces) (o.write pieces now).outbound calls last d) :
    Concludes pieces o (⟨pieces, o, now⟩ :: calls) last (d.orCanceled canceled) := by
  refine ⟨?_, h.written, ?_, fun hall => ?_, ?_, ?_⟩
  · rw [List.map_cons, List.reverse_cons, List.append_assoc]
    exact h.offers.trans (by rw [offers_write]; rfl)
  · refine List.forall_mem_cons.2 ⟨⟨0, resumes_first hpieces o now⟩, fun call hcall => ?_⟩
    -- What the later calls leave out of the rest, they leave out of the whole behind these bytes.
    obtain ⟨skip, hlt, hbefore, hoffer⟩ := h.resumes call hcall
    rw [flatten_piecesFrom] at hlt hbefore
    rw [List.length_drop] at hlt
    refine ⟨n + skip, by omega, ?_, by rw [hoffer, piecesFrom_piecesFrom]⟩
    rw [hbefore, hwritten, List.append_assoc, ← List.take_add]
  · obtain ⟨hall', hflushed⟩ := h.passed fun call hcall => hall call (List.mem_cons_of_mem _ hcall)
    refine ⟨?_, hflushed⟩
    rw [hall', hwritten, flatten_piecesFrom, List.append_assoc, List.take_append_drop]
  · refine List.forall_mem_cons.2 ⟨fun hzero => ?_, h.refused⟩
    simp [WriteCall.Passes, hzero] at hpasses
  · refine List.forall_mem_cons.2 ⟨fun error hfault hlasts => ?_, h.failed⟩
    simp [WriteCall.Passes, hfault, hlasts] at hpasses

/-- A call that does not pass is the last. -/
theorem concludes_stopped {pieces : List (List UInt8)} {o : Outbound} {now : Nat} {d : Delivered}
    (hpieces : pieces.flatten ≠ []) (hstops : ¬WriteCall.Passes ⟨pieces, o, now⟩)
    (hd : d.outbound = (o.write pieces now).outbound)
    (hrefused : (o.write pieces now).outcome = .ok 0 → d.outcome = .error .connectionReset)
    (hfailed : ∀ error, (o.write pieces now).outcome = .error error → ¬error.Transient →
      d.outcome = .error error.report) :
    Concludes pieces o [⟨pieces, o, now⟩] (o.write pieces now).outbound d := by
  refine ⟨?_, by rw [hd], ?_, fun hall => ?_, ?_, ?_⟩
  · rw [hd, offers_write]
    rfl
  · exact List.forall_mem_singleton.2 ⟨0, resumes_first hpieces o now⟩
  · exact absurd (hall _ List.mem_cons_self) hstops
  · exact List.forall_mem_singleton.2 hrefused
  · exact List.forall_mem_singleton.2 hfailed

theorem concludes_flushed {pieces : List (List UInt8)} (hempty : pieces.flatten = [])
    (o : Outbound) (now : Nat) : Concludes pieces o [] o (o.flushed now) := by
  have hkept : o.flush.2.written = o.written ∧ o.flush.2.offers = o.offers := by
    simp only [flush]
    split
    · exact ⟨rfl, rfl⟩
    · split <;> exact ⟨rfl, rfl⟩
  have hended : (o.flushed now).outbound = o.flush.2 ∧
      (o.flush.1 = none → (o.flushed now).outcome = .ok ()) ∧
      ∀ error, o.flush.1 = some error → (o.flushed now).outcome = .error (.io error) := by
    simp only [flushed]
    split <;> simp_all
  obtain ⟨houtbound, hflushed⟩ := hended
  refine ⟨by rw [houtbound, hkept.2]; rfl, by rw [houtbound, hkept.1], by simp, fun _ => ?_,
    by simp, by simp⟩
  exact ⟨by rw [hempty, List.append_nil], hflushed⟩

/-- A delivery is a run of write calls: each is offered what the ones before it have left, and the
first that does not pass is the last. Behind calls that all pass there is the flush. -/
theorem deliver_calls (backoff : Nat) (pieces : List (List UInt8)) (o : Outbound) (now : Nat) :
    ∃ calls last, Calls o calls last ∧
      Concludes pieces o calls last (deliver backoff pieces o now) := by
  fun_induction deliver backoff pieces o now with
  | case1 pieces o now hnone =>
      exact ⟨[], o, .none o, concludes_flushed (by simpa using hnone) o now⟩
  | case2 pieces o now hnone w hzero =>
      have hpieces : pieces.flatten ≠ [] := by simpa using hnone
      have hresult : WriteCall.result ⟨pieces, o, now⟩ = w := rfl
      refine ⟨_, w.outbound, .next (.none _), concludes_stopped hpieces ?_ rfl (fun _ => rfl) ?_⟩
      · simp [WriteCall.Passes, hresult, hzero]
      · intro error hfault
        cases hzero.symm.trans hfault
  | case3 pieces o now hnone w n hwritten ih =>
      have hpieces : pieces.flatten ≠ [] := by simpa using hnone
      have haccepts := write_accepts o pieces now
      have hfront : w.front pieces = pieces.flatten.take (n + 1) := by
        simp [Written.front, hwritten]
      have hpasses : WriteCall.Passes ⟨pieces, o, now⟩ := by
        simp [WriteCall.Passes, WriteCall.result, w, hwritten]
      obtain ⟨calls, last, hcalls, h⟩ := ih
      exact ⟨_, last, .next hcalls,
        .next (n + 1) w.canceled hpieces hpasses (hfront ▸ haccepts.written) h⟩
  | case4 pieces o now hnone w error hfault hretry ih
  | case5 pieces o now hnone w error hfault hretry ih =>
      have hpieces : pieces.flatten ≠ [] := by simpa using hnone
      have haccepts := write_accepts o pieces now
      have hfront : w.front pieces = pieces.flatten.take 0 := by simp [Written.front, hfault]
      have hpasses : WriteCall.Passes ⟨pieces, o, now⟩ := by
        have htransient : error.Transient := .of_retry (by simp [hretry])
        simp [WriteCall.Passes, WriteCall.result, w, hfault, htransient]
      obtain ⟨calls, last, hcalls, h⟩ := ih
      exact ⟨_, last, .next hcalls,
        .next 0 w.canceled hpieces hpasses (hfront ▸ haccepts.written) h⟩
  | case6 pieces o now hnone w error hfault error' hretry =>
      have hpieces : pieces.flatten ≠ [] := by simpa using hnone
      have hresult : WriteCall.result ⟨pieces, o, now⟩ = w := rfl
      obtain ⟨hlasts, rfl⟩ := IoError.retry_eq_never_iff.1 hretry
      refine ⟨_, w.outbound, .next (.none _), concludes_stopped hpieces ?_ rfl ?_ ?_⟩
      · simpa [WriteCall.Passes, hresult, hfault] using hlasts
      · intro hzero
        cases hfault.symm.trans hzero
      · intro error'' hfault' _
        rw [Except.error.inj (hfault.symm.trans hfault')]

theorem deliver_error {backoff : Nat} {pieces : List (List UInt8)} {o : Outbound} {now : Nat}
    {error : ChannelError} (h : (deliver backoff pieces o now).outcome = .error error) :
    error = .connectionReset ∨ ∃ error', error = .io error' := by
  fun_induction deliver backoff pieces o now with
  | case1 pieces o now hnone =>
      rcases flushed_cases o now with hflushed | ⟨after, error', faults, hfaults, hflushed⟩
      · rw [hflushed] at h
        cases h
      · rw [hflushed] at h
        exact .inr ⟨error', (Except.error.inj h).symm⟩
  | case2 pieces o now hnone w hzero => exact .inl (Except.error.inj h).symm
  | case3 pieces o now hnone w n hwritten ih => exact ih h
  | case4 pieces o now hnone w error' hfault hretry ih
  | case5 pieces o now hnone w error' hfault hretry ih => exact ih h
  | case6 pieces o now hnone w error' hfault error'' hretry =>
      obtain rfl := Except.error.inj h
      exact (IoError.eq_of_retry_eq_never hretry).imp_right fun hio => ⟨error', hio⟩

end Outbound

end MessageChannel
