import MessageChannel.Proofs.Refusal

namespace MessageChannel

/-- One script is what is left of the other. On the way there comes a request to stop, or not. -/
def Plays (script : List WriteEvent) (canceled : Bool) (left : List WriteEvent) : Prop :=
  ∃ passed, script = passed ++ left ∧ (canceled = true ↔ ∃ e ∈ passed, e.action = .cancel)

namespace Plays

variable {script left left' : List WriteEvent} {canceled canceled' : Bool}

theorem refl (script : List WriteEvent) : Plays script false script := ⟨[], rfl, by simp⟩

theorem trans (h : Plays script canceled left) (h' : Plays left canceled' left') :
    Plays script (canceled || canceled') left' := by
  obtain ⟨passed, rfl, hcanceled⟩ := h
  obtain ⟨passed', rfl, hcanceled'⟩ := h'
  refine ⟨passed ++ passed', (List.append_assoc ..).symm, ?_⟩
  rw [Bool.or_eq_true, hcanceled, hcanceled']
  simp only [List.mem_append, or_and_right, exists_or]

theorem cancel {event : WriteEvent} (haction : event.action = .cancel)
    (h : Plays script canceled left) : Plays (event :: script) true left := by
  obtain ⟨passed, rfl, -⟩ := h
  exact ⟨event :: passed, rfl, fun _ => ⟨event, List.mem_cons_self, haction⟩, fun _ => rfl⟩

theorem other {event : WriteEvent} (haction : event.action ≠ .cancel)
    (h : Plays script canceled left) : Plays (event :: script) canceled left := by
  obtain ⟨passed, rfl, hcanceled⟩ := h
  refine ⟨event :: passed, rfl, ?_⟩
  simp only [List.mem_cons, exists_eq_or_imp, haction, false_or]
  exact hcanceled

end Plays

namespace Outbound

theorem settle_plays (count : Nat) (script : List WriteEvent) (now : Nat) :
    Plays script (settle count script now).canceled (settle count script now).script := by
  fun_induction settle count script now with
  | case1 now => exact .refl _
  | case2 event script now hdue haction ih => exact .cancel haction ih
  | case3 event script now hdue duration haction ih => exact .other (by simp [haction]) ih
  | case4 event script now hdue error haction => exact .other (by simp [haction]) (.refl _)
  | case5 event script now hdue haction => exact .other (by simp [haction]) (.refl _)
  | case6 event script now hdue => exact .refl _

theorem dropWhile_plays (count : Nat) (script : List WriteEvent) :
    Plays script (script.head?.any (isDueCancel count)) (script.dropWhile (isDueCancel count)) := by
  refine ⟨script.takeWhile (isDueCancel count), List.takeWhile_append_dropWhile.symm, ?_⟩
  have hcancel : ∀ {event : WriteEvent}, isDueCancel count event = true →
      event.action = .cancel := by
    intro event hdue
    simp only [isDueCancel, Bool.and_eq_true, beq_iff_eq] at hdue
    exact hdue.2
  cases script with
  | nil => simp
  | cons event script =>
      by_cases hdue : isDueCancel count event = true
      · simp [hdue, hcancel hdue]
      · simp [hdue]

theorem write_plays (o : Outbound) (pieces : List (List UInt8)) (now : Nat) :
    Plays o.script (o.write pieces now).canceled (o.write pieces now).outbound.script := by
  have hsettled := settle_plays o.written.size o.script now
  simp only [write]
  split
  · exact hsettled
  · exact hsettled.trans (dropWhile_plays _ _)

/-- A delivery that is asked to stop meets a request among the events that it plays, and only then
is it asked. -/
theorem deliver_plays (backoff : Nat) (pieces : List (List UInt8)) (o : Outbound) (now : Nat) :
    Plays o.script (deliver backoff pieces o now).canceled
      (deliver backoff pieces o now).outbound.script := by
  fun_induction deliver backoff pieces o now with
  | case1 pieces o now hnone =>
      rcases flushed_cases o now with hflushed | ⟨after, error, faults, hfaults, hflushed⟩ <;>
        rw [hflushed] <;> exact .refl _
  | case2 pieces o now hnone w hzero => exact write_plays o pieces now
  | case3 pieces o now hnone w n hwritten ih => exact (write_plays o pieces now).trans ih
  | case4 pieces o now hnone w error hfault hretry ih
  | case5 pieces o now hnone w error hfault hretry ih => exact (write_plays o pieces now).trans ih
  | case6 pieces o now hnone w error hfault error' hretry => exact write_plays o pieces now

end Outbound

namespace StreamSession

variable {μ : Type}

/-- What is still to come to the sender. -/
def script (s : StreamSession μ) : List WriteEvent :=
  (s.transport.map fun t => t.outbound.script).getD []

theorem sendFrame_plays {f : Frame} {s t : Scene (StreamSession μ)} {ended : Except Halt Unit}
    (hrun : (sendFrame f).run s = (ended, t)) :
    ∃ canceled, Plays s.session.script canceled t.session.script ∧
      t.session.cancelRequested = (s.session.cancelRequested || canceled) := by
  cases htransport : s.session.transport with
  | none =>
      rw [run_sendFrame_closed htransport] at hrun
      obtain ⟨rfl, rfl⟩ := Prod.mk.inj hrun
      exact ⟨false, .refl _, (Bool.or_false _).symm⟩
  | some transport =>
      rw [run_sendFrame htransport] at hrun
      obtain ⟨-, rfl⟩ := Prod.mk.inj hrun
      refine ⟨_, ?_, rfl⟩
      simpa [script, htransport] using Outbound.deliver_plays _ _ _ _

/-- A sending is asked to stop by a request that was there, or by one that came meanwhile. -/
theorem Sending.plays {s t : StreamSession μ} {ended : Except Halt Unit} (h : Sending s ended t) :
    ∃ canceled, Plays s.script canceled t.script ∧
      (t.cancelRequested = true ∨ ended = .error (.failed .canceled) →
        s.cancelRequested = true ∨ canceled = true) := by
  induction h with
  | start => exact ⟨false, .refl _, by simp⟩
  | wrote h hrun ih =>
      obtain ⟨canceled, hplays, hasked⟩ := ih
      obtain ⟨canceled', hplays', hrequested⟩ := sendFrame_plays hrun
      refine ⟨_, hplays.trans hplays', ?_⟩
      rintro (hleft | rfl)
      · rw [hrequested, Bool.or_eq_true] at hleft
        rw [Bool.or_eq_true]
        rcases hleft with hleft | hcame
        · exact (hasked (.inl hleft)).imp_right .inl
        · exact .inr (.inr hcame)
      · exact absurd (congrArg Prod.fst hrun) (spares_sendFrame _ _)
  | dropped h ih =>
      obtain ⟨canceled, hplays, hasked⟩ := ih
      exact ⟨canceled, hplays, by simp⟩
  | stopped h hrequested ih =>
      obtain ⟨canceled, hplays, hasked⟩ := ih
      exact ⟨canceled, hplays, fun _ => hasked (.inl hrequested)⟩

variable [Message μ] {m : μ} {flags : Flags} {s t : Scene (StreamSession μ)}
  {ended : Except Halt Unit}

/-- How a request to stop has ended a call: it was there before, or it was seen between two slices,
and the peer has been told. -/
inductive StoppedBy (s : StreamSession μ) (m : μ) (flags : Flags) : StreamSession μ → Prop
  | before (hrequested : s.cancelRequested = true) :
      StoppedBy s m flags { s with cancelRequested := false }
  | amid {told} {u v : Scene (StreamSession μ)} (hsliced : flags.sliced = true)
      (hconnected : s.transport.isSome)
      (hsending : Sending s (.error (.failed .canceled)) u.session)
      (hrun : (sendFrame (cancelFrame (Message.typeId m))).run u = (told, v)) :
      StoppedBy s m flags v.session

theorem stoppedBy_of_send (hrun : (send m flags).run s = (.error (.failed .canceled), t))
    (hencode : Worker.encode flags.inWorker m ≠ .error (.failed .canceled)) :
    StoppedBy s.session m flags t.session := by
  rcases refused_or_ready s.session m flags with ⟨halt, h⟩ | ⟨payload, h⟩
  · obtain ⟨hended, -, hsession, hleft⟩ := send_of_refused h hrun
    obtain rfl := Except.error.inj hended
    -- A call without a transport ends otherwise, and so does one with nothing to send.
    cases h with
    | unfit hunfit =>
        cases hunfit with
        | unencoded hnone => exact absurd hnone hencode
    | @requested payload hpayload hrequested =>
        have htaken : t.session.cancelRequested = false :=
          Bool.eq_false_iff.2 fun h => (hleft.1 h).2 ⟨payload, hpayload⟩
        rw [hsession, htaken]
        exact .before hrequested
  · have hconcluded := send_concluded h hrun
    generalize t.session = t' at hconcluded ⊢
    cases hconcluded with
    | failed hfailed hne => exact absurd rfl hne
    | canceled hsliced hsending hframe => exact .amid hsliced h.connected hsending hframe

/-- A request that ends a call was there before it, or came in the course of it. -/
theorem StoppedBy.asked {s t : StreamSession μ} (h : StoppedBy s m flags t) :
    s.cancelRequested = true ∨
      ∃ passed, s.script = passed ++ t.script ∧ ∃ e ∈ passed, e.action = .cancel := by
  cases h with
  | before hrequested => exact .inl hrequested
  | amid hsliced hconnected hsending hrun =>
      obtain ⟨canceled, hplays, hasked⟩ := hsending.plays
      obtain ⟨canceled', hplays', -⟩ := sendFrame_plays hrun
      refine (hasked (.inr rfl)).imp_right fun hcame => ?_
      obtain ⟨passed, hscript, hiff⟩ := hplays.trans hplays'
      exact ⟨passed, hscript, hiff.1 (by rw [hcame, Bool.true_or])⟩

theorem send_quiet_of_ok (hrun : (send m flags).run s = (.ok (), t)) :
    t.session.cancelRequested = false := by
  rcases refused_or_ready s.session m flags with ⟨halt, h⟩ | ⟨payload, h⟩
  · cases (send_of_refused h hrun).1
  · have hconcluded := send_concluded h hrun
    generalize t.session = t' at hconcluded ⊢
    cases hconcluded with
    | sent hsent hquiet => exact hquiet

/-- A call to send that succeeds leaves no request to stop behind, and nor does one that a request
ends, unless another comes while the frame is written with which the peer is told. Where none is
left the next call is only ended by a request that comes in the course of it. -/
theorem send_takes_requests (hrun : (send m flags).run s = (ended, t)) :
    (ended = .ok () → t.session.cancelRequested = false) ∧
    (ended = .error (.failed .canceled) →
      Worker.encode flags.inWorker m ≠ .error (.failed .canceled) →
      (s.session.cancelRequested = true ∧
        t.session = { s.session with cancelRequested := false }) ∨
      (flags.sliced = true ∧ ∃ (bytes : List UInt8) (u v : Scene (StreamSession μ))
        (told : Except Halt Unit), s.session.Says bytes u.session ∧
        u.session.cancelRequested = false ∧
        (sendFrame (cancelFrame (Message.typeId m))).run u = (told, v) ∧ t.session = v.session ∧
        ∃ passed, u.session.script = passed ++ t.session.script ∧
          (t.session.cancelRequested = true ↔ ∃ e ∈ passed, e.action = .cancel))) ∧
    (t.session.cancelRequested = false → ∀ (m' : μ) (flags' : Flags) (t' : Scene (StreamSession μ)),
      (send m' flags').run t = (.error (.failed .canceled), t') →
      Worker.encode flags'.inWorker m' ≠ .error (.failed .canceled) →
      ∃ passed, t.session.script = passed ++ t'.session.script ∧
        ∃ e ∈ passed, e.action = .cancel) := by
  refine ⟨?_, ?_, fun hquiet m' flags' t' hnext hencode => ?_⟩
  · rintro rfl
    exact send_quiet_of_ok hrun
  · rintro rfl hencode
    have hstopped := stoppedBy_of_send hrun hencode
    generalize t.session = t' at hstopped ⊢
    cases hstopped with
    | before hrequested => exact .inl ⟨hrequested, rfl⟩
    | @amid told u v hsliced hconnected hsending hframe =>
        obtain ⟨bytes, hspoke⟩ := hsending.speaks hconnected
        have hquiet := hsending.quiet_of_canceled
        obtain ⟨canceled, ⟨passed, hscript, hcame⟩, hleft⟩ := sendFrame_plays hframe
        rw [hquiet, Bool.false_or] at hleft
        exact .inr ⟨hsliced, bytes, u, v, told, hspoke, hquiet, hframe, rfl, passed, hscript,
          hleft ▸ hcame⟩
  · refine (stoppedBy_of_send hnext hencode).asked.resolve_left ?_
    rw [hquiet]
    exact Bool.false_ne_true

def fiveBytes : AnyMessage := .raw (.ofBytes rawTypeId none [1, 2, 3, 4, 5])

def twoBytes : AnyMessage := .raw (.ofBytes rawTypeId none [6, 7])

/-- A request to stop comes when the eleventh byte is written. -/
def askedLate : Scene (StreamSession AnyMessage) where
  session := .new (.ofVersion 1) {} { outbound := { script := [⟨11, .cancel⟩] } }

/-- The message is sent all the same, and so is the next. -/
theorem send_takes_requests_late :
    let sent := (send twoBytes .none).run askedLate
    let next := (send twoBytes .none).run sent.2
    sent.1 = .ok () ∧ sent.2.session.cancelRequested = false ∧
      next.1 ≠ .error (.failed .canceled) := by
  intro sent next
  have hsent : (send twoBytes .none).run askedLate = (sent.1, sent.2) := rfl
  have hready : askedLate.session.Ready twoBytes [6, 7] :=
    ⟨⟨rfl, by decide, by decide⟩, rfl, rfl⟩
  have hsmooth : askedLate.session.Smooth := by
    refine ⟨_, rfl, fun e he => ?_, nofun, rfl⟩
    obtain rfl := List.mem_singleton.1 he
    trivial
  have hok : sent.1 = .ok () := by
    rcases send_ready hready hsent with hok | ⟨hsliced, -⟩ | ⟨error, -, hbroken⟩
    · exact hok
    · cases hsliced
    · exact absurd hsmooth hbroken.not_smooth
  obtain ⟨hquiet, -, hlater⟩ := send_takes_requests hsent
  refine ⟨hok, hquiet hok, fun hcanceled => ?_⟩
  have hnext : (send twoBytes .none).run sent.2 = (.error (.failed .canceled), next.2) :=
    Prod.ext hcanceled rfl
  obtain ⟨passed, hscript, e, he, -⟩ := hlater (hquiet hok) _ _ _ hnext nofun
  have hnone : sent.2.session.script = [] := by decide +kernel
  rw [hnone] at hscript
  rw [(List.append_eq_nil_iff.1 hscript.symm).1] at he
  cases he

/-- Slices of two bytes. One request comes with the first of them, and one in the midst of the frame
with which the peer is told of that. -/
def askedTwice : Scene (StreamSession AnyMessage) where
  session := .new (.ofVersion 1) { sliceSize := 12 } { outbound :=
    { script := [⟨15, .cancel⟩, ⟨27, .cancel⟩] } }

/-- The second request outlives the call that was under way, and ends the next before a byte of it
is written. -/
theorem send_canceled_again :
    let stopped := (send fiveBytes { sliced := true }).run askedTwice
    let next := (send twoBytes .none).run stopped.2
    haltOf? stopped.1 = some (.failed .canceled) ∧ stopped.2.session.cancelRequested = true ∧
      stopped.2.session.script = [] ∧ haltOf? next.1 = some (.failed .canceled) ∧
      next.2.session.written = stopped.2.session.written := by
  decide +kernel

end StreamSession

end MessageChannel
