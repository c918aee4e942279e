import MessageChannel.Proofs.Emission

namespace MessageChannel.StreamSession

variable {μ : Type} [Message μ]

/-- The body of a message that is there and not too large. -/
structure Sendable (limit : UInt32) (m : μ) (payload : List UInt8) : Prop where
  encode : Message.encode m = .ok payload
  nonempty : payload ≠ []
  fits : payload.length ≤ limit.toNat

/-- A message that there is no use in sending, and what the call says of it. -/
inductive Unfit (limit : UInt32) (m : μ) (flags : Flags) : Halt → Prop
  | unencoded {halt} (hencode : Worker.encode flags.inWorker m = .error halt) :
      Unfit limit m flags halt
  | empty (hencode : Message.encode m = .ok []) : Unfit limit m flags (.failed .noData)
  | tooLarge {payload} (hencode : Message.encode m = .ok payload)
      (hlong : limit.toNat < payload.length) :
      Unfit limit m flags (.failed (.tooLarge payload.length limit.toNat))

section

variable {limit : UInt32} {m : μ} {flags : Flags} {payload : List UInt8} {halt : Halt}
  {s : Scene (StreamSession μ)}

theorem Unfit.not_sendable (h : Unfit limit m flags halt) (payload : List UInt8) :
    ¬Sendable limit m payload := by
  intro hpayload
  cases h with
  | unencoded hencode => cases hencode.symm.trans (Worker.encode_eq_ok_iff.2 hpayload.encode)
  | empty hencode =>
      exact hpayload.nonempty (Except.ok.inj (hpayload.encode.symm.trans hencode))
  | tooLarge hencode hlong =>
      obtain rfl := Except.ok.inj (hpayload.encode.symm.trans hencode)
      exact Nat.not_le.2 hlong hpayload.fits

/-- A message can be sent, or it is unfit. -/
theorem sendable_or_unfit (limit : UInt32) (m : μ) (flags : Flags) :
    (∃ payload, Sendable limit m payload) ∨ ∃ halt, Unfit limit m flags halt := by
  cases hencode : Worker.encode flags.inWorker m with
  | error halt => exact .inr ⟨halt, .unencoded hencode⟩
  | ok payload =>
      rw [Worker.encode_eq_ok_iff] at hencode
      by_cases hempty : payload = []
      · exact .inr ⟨_, .empty (hempty ▸ hencode)⟩
      · by_cases hfits : payload.length ≤ limit.toNat
        · exact .inl ⟨payload, hencode, hempty, hfits⟩
        · exact .inr ⟨_, .tooLarge hencode (Nat.lt_of_not_le hfits)⟩

theorem run_bodyToSend_of_unfit (h : Unfit s.session.config.maxPayload m flags halt) :
    (bodyToSend m flags).run s = (.error halt, s) := by
  cases h with
  | unencoded hencode =>
      simp only [bodyToSend, Call.run_bind, hencode, Call.ofHalting]
      rfl
  | empty hencode =>
      simp only [bodyToSend, Call.run_bind, Worker.encode_eq_ok_iff.2 hencode, Call.ofHalting,
        Call.run_pure, Call.session, Call.failIf, List.isEmpty_nil, if_true]
      rfl
  | @tooLarge payload hencode hlong =>
      have hfull : payload ≠ [] := by
        rintro rfl
        exact Nat.not_lt_zero _ hlong
      simp only [bodyToSend, Call.run_bind, Worker.encode_eq_ok_iff.2 hencode, Call.ofHalting,
        Call.run_pure, Call.session, Call.failIf, List.isEmpty_iff, hfull, if_false, gt_iff_lt,
        hlong, if_true]
      rfl

theorem run_bodyToSend_of_sendable (h : Sendable s.session.config.maxPayload m payload) :
    (bodyToSend m flags).run s = (.ok payload, s) := by
  simp only [bodyToSend, Call.run_bind, Worker.encode_eq_ok_iff.2 h.encode, Call.ofHalting,
    Call.run_pure, Call.session, Call.failIf, List.isEmpty_iff, h.nonempty, if_false, gt_iff_lt,
    Nat.not_lt.2 h.fits]

end

theorem run_bodyToSend (m : μ) (flags : Flags) (s : Scene (StreamSession μ)) :
    ∃ ended, (bodyToSend m flags).run s = (ended, s) ∧
      ∀ payload, ended = .ok payload ↔ Sendable s.session.config.maxPayload m payload := by
  rcases sendable_or_unfit s.session.config.maxPayload m flags with
    ⟨body, hbody⟩ | ⟨halt, hunfit⟩
  · refine ⟨_, run_bodyToSend_of_sendable hbody, fun payload => ⟨fun h => ?_, fun h => ?_⟩⟩
    · exact Except.ok.inj h ▸ hbody
    · rw [Except.ok.inj (hbody.encode.symm.trans h.encode)]
  · refine ⟨_, run_bodyToSend_of_unfit hunfit, fun payload => ⟨fun h => ?_, fun h => ?_⟩⟩
    · cases h
    · exact absurd h (hunfit.not_sendable payload)

/-- The writing of a message whose body is known. -/
def transmit (m : μ) (flags : Flags) (payload : List UInt8) : Call (StreamSession μ) Unit := do
  if flags.versioned then sendVersion
  if flags.sliced then
    (sendSliced (Message.typeId m) payload).onFailure fun error => do
      if error.isCanceled then sendCancel (Message.typeId m)
  else sendWhole (Message.typeId m) payload

theorem sendMessage_eq (m : μ) (flags : Flags) : sendMessage m flags = (do
    let payload ← bodyToSend m flags
    Call.failIf (← takeCancel) .canceled
    transmit m flags payload : Call (StreamSession μ) Unit) := rfl

/-- How the sending of a payload may end behind some other frames, with the bytes that it has
written. A payload that is stopped has lost its last slice, but not its first, and a cancel frame
comes behind it. -/
inductive Sent (s : StreamSession μ) (m : μ) (flags : Flags) (payload : List UInt8)
    (lead : List Frame) (log : Array Event) : Except Halt Unit → List UInt8 → Prop
  | whole (hasked : flags.sliced = true → ∀ j <
        (lead ++ bodyFrames s.config.sliceSize flags.sliced (Message.typeId m) payload).length,
      s.AskedBy (lead ++ bodyFrames s.config.sliceSize flags.sliced (Message.typeId m) payload) j →
        (sliceFrames s.config.sliceSize payload).length < 2) :
      Sent s m flags payload lead log (.ok ())
        (wire (lead ++ bodyFrames s.config.sliceSize flags.sliced (Message.typeId m) payload))
  | broken {error front} (hrough : ¬s.Smooth) (herror : error ≠ .canceled) (hfront : front <+:
      wire (lead ++ bodyFrames s.config.sliceSize flags.sliced (Message.typeId m) payload)) :
      Sent s m flags payload lead log (.error (.failed error)) front
  | stopped {k tail} (hsliced : flags.sliced = true) (hpos : 1 ≤ k)
      (hk : k < (sliceFrames s.config.sliceSize payload).length)
      (hasked : ∀ j, s.AskedBy
        (lead ++ bodyFrames s.config.sliceSize flags.sliced (Message.typeId m) payload) j →
          lead.length + 1 + k ≤ max j (lead.length + 2))
      (htail : tail <+: (cancelFrame (Message.typeId m)).encode)
      (hwhole : tail = (cancelFrame (Message.typeId m)).encode ∨
        ∃ error, .cancelFailed (Message.typeId m) error ∈ log)
      (hsmooth : s.Smooth → tail = (cancelFrame (Message.typeId m)).encode) :
      Sent s m flags payload lead log (.error (.failed .canceled))
        (wire (lead ++ (announcement (Message.typeId m) payload ::
          (sliceFrames s.config.sliceSize payload).take k)) ++ tail)

theorem Sent.behind {s t : StreamSession μ} {m : μ} {flags : Flags} {payload : List UInt8}
    {lead : List Frame} {log : Array Event} {ended : Except Halt Unit} {bytes : List UInt8}
    (h : Sent t m flags payload [] log ended bytes) (hspoke : s.Says (wire lead) t)
    (hpending : ∀ count, Pending count s → Pending count t) :
    Sent s m flags payload lead log ended (wire lead ++ bytes) := by
  cases h with
  | whole hasked =>
      rw [hspoke.config, List.nil_append] at hasked
      rw [List.nil_append, ← wire_append, hspoke.config]
      refine .whole fun hsliced j hj hlater => ?_
      have hbody : 0 < (bodyFrames s.config.sliceSize flags.sliced (Message.typeId m)
          payload).length := by
        simp [bodyFrames, hsliced]
      rw [List.length_append] at hj
      exact hasked hsliced _ (by omega) (hlater.behind hspoke hpending)
  | broken hrough herror hfront =>
      refine .broken (fun hs => hrough (hspoke.smooth hs)) herror ?_
      rw [wire_append, ← hspoke.config]
      exact (List.prefix_append_right_inj _).2 hfront
  | stopped hsliced hpos hk hasked htail hwhole hsmooth =>
      rw [List.nil_append, ← List.append_assoc, ← wire_append, hspoke.config]
      rw [hspoke.config] at hk hasked
      refine .stopped hsliced hpos hk (fun j hlater => ?_) htail hwhole fun hs =>
        hsmooth (hspoke.smooth hs)
      have hbound := hasked _ (hlater.behind hspoke hpending)
      simp only [List.length_nil] at hbound
      omega

/-- The body of a message, in slices or not, and the cancel frame of one that is stopped. -/
def transmitBody (m : μ) (flags : Flags) (payload : List UInt8) : Call (StreamSession μ) Unit :=
  if flags.sliced then
    (sendSliced (Message.typeId m) payload).onFailure fun error => do
      if error.isCanceled then sendCancel (Message.typeId m)
  else sendWhole (Message.typeId m) payload

theorem transmit_eq (m : μ) (flags : Flags) (payload : List UInt8) :
    transmit m flags payload =
      if flags.versioned then sendVersion >>= fun _ => transmitBody m flags payload
      else transmitBody m flags payload := by
  cases hversioned : flags.versioned <;> simp [transmit, transmitBody, hversioned]

theorem transmitSliced_sent {s t : Scene (StreamSession μ)} {ended : Except Halt Unit} {m : μ}
    {flags : Flags} {payload : List UInt8} (hconnected : s.session.transport.isSome)
    (hsliced : flags.sliced = true)
    (hrun : ((sendSliced (Message.typeId m) payload).onFailure fun error => do
      if error.isCanceled then sendCancel (Message.typeId m)).run s = (ended, t)) :
    ∃ bytes, s.session.Says bytes t.session ∧
      Sent s.session m flags payload [] t.log ended bytes := by
  have hemits := emits_sendSliced hconnected (Message.typeId m) payload
  simp only [Call.onFailure] at hrun
  cases hbody : (sendSliced (Message.typeId m) payload).run s with
  | mk ended' u =>
      rw [hbody] at hrun
      rw [emits_iff_of_run hbody] at hemits
      cases hemits with
      | done hspoke hend =>
          obtain ⟨rfl, rfl⟩ := Prod.mk.inj hrun
          rw [← hsliced] at hspoke hend
          exact ⟨_, hspoke, .whole fun _ => hend⟩
      | @broken _ error front hrough herror hfront hspoke =>
          have hcanceled : error.isCanceled = false := by
            cases error <;> simp_all [ChannelError.isCanceled]
          simp only [hcanceled] at hrun
          obtain ⟨rfl, rfl⟩ := Prod.mk.inj hrun
          rw [← hsliced] at hfront
          exact ⟨_, hspoke, .broken hrough herror hfront⟩
      | @stopped _ k hk hstop hspoke =>
          obtain ⟨v, tail, hcancel, hspoke', htail, hwhole, hsmooth⟩ :=
            run_sendCancel hspoke.isSome (Message.typeId m)
          simp only [ChannelError.isCanceled, if_true, hcancel] at hrun
          obtain ⟨rfl, rfl⟩ := Prod.mk.inj hrun
          obtain ⟨htwo, hbound⟩ := hstop
          obtain ⟨j, rfl⟩ : ∃ j, k = j + 1 := ⟨k - 1, by omega⟩
          simp only [bodyFrames, if_true, List.length_cons] at hk
          rw [← hsliced] at hbound
          rw [bodyFrames, if_pos rfl, List.take_succ_cons] at hspoke
          refine ⟨_, hspoke.trans hspoke', .stopped hsliced (by omega) (by omega)
            (fun i hasked => ?_) htail hwhole fun hs => hsmooth (hspoke.smooth hs)⟩
          have hj := hbound i hasked
          simp only [List.length_nil]
          omega

theorem transmitBody_sent {s t : Scene (StreamSession μ)} {ended : Except Halt Unit} {m : μ}
    {flags : Flags} {payload : List UInt8} (hconnected : s.session.transport.isSome)
    (hrun : (transmitBody m flags payload).run s = (ended, t)) :
    ∃ bytes, s.session.Says bytes t.session ∧
      Sent s.session m flags payload [] t.log ended bytes := by
  rw [transmitBody] at hrun
  by_cases hsliced : flags.sliced = true
  · rw [if_pos hsliced] at hrun
    exact transmitSliced_sent hconnected hsliced hrun
  · have hwhole := Bool.eq_false_iff.2 hsliced
    rw [if_neg hsliced] at hrun
    have hemits := emits_sendWhole hconnected (Message.typeId m) payload
    rw [emits_iff_of_run hrun, ← hwhole] at hemits
    cases hemits with
    | done hspoke hend => exact ⟨_, hspoke, .whole fun h => absurd h hsliced⟩
    | broken hrough herror hfront hspoke => exact ⟨_, hspoke, .broken hrough herror hfront⟩
    | stopped hk hstop hspoke => exact hstop.elim

theorem transmit_sent {s t : Scene (StreamSession μ)} {ended : Except Halt Unit} {m : μ}
    {flags : Flags} {payload : List UInt8} (hconnected : s.session.transport.isSome)
    (hrun : (transmit m flags payload).run s = (ended, t)) :
    ∃ bytes, s.session.Says bytes t.session ∧ Sent s.session m flags payload
      (tableFrames s.session.registry flags.versioned) t.log ended bytes := by
  rw [transmit_eq] at hrun
  by_cases hversioned : flags.versioned = true
  · rw [if_pos hversioned, Call.run_bind] at hrun
    rw [tableFrames, if_pos hversioned]
    have hemits := emits_sendVersion hconnected
    cases hversion : (sendVersion (μ := μ)).run s with
    | mk ended' u =>
        rw [hversion] at hrun
        rw [emits_iff_of_run hversion] at hemits
        cases hemits with
        | done hspoke hpending =>
            obtain ⟨bytes, hspoke', hsent⟩ := transmitBody_sent hspoke.isSome hrun
            exact ⟨_, hspoke.trans hspoke', hsent.behind hspoke hpending⟩
        | broken hrough herror hfront hspoke =>
            obtain ⟨rfl, rfl⟩ := Prod.mk.inj hrun
            refine ⟨_, hspoke, .broken hrough herror (hfront.trans ?_)⟩
            rw [wire_append]
            exact List.prefix_append _ _
        | stopped hk hstop hspoke => exact hstop.elim
  · rw [if_neg hversioned] at hrun
    rw [tableFrames, if_neg hversioned]
    exact transmitBody_sent hconnected hrun

theorem transmit_closed {s : Scene (StreamSession μ)} (hclosed : s.session.transport = none) (m : μ)
    (flags : Flags) (payload : List UInt8) :
    (transmit m flags payload).run s = (.error (.failed closedError), s) := by
  have hframe := run_sendFrame_closed hclosed
  rw [transmit_eq, transmitBody]
  cases hversioned : flags.versioned with
  | true =>
      simp only [if_true, sendVersion, Call.run_bind, Call.session, hframe]
  | false =>
      cases hsliced : flags.sliced with
      | true =>
          simp [Call.onFailure, sendSliced, Call.run_bind, hframe, closedError,
            ChannelError.isCanceled, Call.run_pure]
      | false => simp [sendWhole, Call.run_bind, hframe]

theorem Sent.more {s : StreamSession μ} {m : μ} {flags : Flags} {payload : List UInt8}
    {lead : List Frame} {log log' : Array Event} {ended : Except Halt Unit} {bytes : List UInt8}
    (h : Sent s m flags payload lead log ended bytes) (hlog : ∀ e ∈ log, e ∈ log') :
    Sent s m flags payload lead log' ended bytes := by
  cases h with
  | whole hasked => exact .whole hasked
  | broken hrough herror hfront => exact .broken hrough herror hfront
  | stopped hsliced hpos hk hasked htail hwhole hsmooth =>
      exact .stopped hsliced hpos hk hasked htail
        (hwhole.imp_right fun ⟨error, herror⟩ => ⟨error, hlog _ herror⟩) hsmooth

/-- A call that fails tells of it, and nothing else comes of that. -/
theorem run_send (m : μ) (flags : Flags) (s : Scene (StreamSession μ)) :
    ∃ log, (send m flags).run s = (((sendMessage m flags).run s).1,
        { ((sendMessage m flags).run s).2 with log }) ∧
      ∀ e ∈ ((sendMessage m flags).run s).2.log, e ∈ log := by
  simp only [send, Call.onFailure]
  cases (sendMessage m flags).run s with
  | mk ended t =>
      cases ended with
      | ok _ => exact ⟨t.log, rfl, fun e he => he⟩
      | error halt =>
          cases halt with
          | failed error =>
              exact ⟨t.log.push (.sendFailed (Message.name m) error), rfl, fun e he =>
                Array.mem_push_of_mem _ he⟩
          | stalled | crashed => exact ⟨t.log, rfl, fun e he => he⟩

/-- A message is sent if it has a body and no request to stop is there yet. -/
inductive Begun (s : Scene (StreamSession μ)) (m : μ) (flags : Flags) :
    Except Halt Unit × Scene (StreamSession μ) → Prop
  | unfit {halt} (hunfit : ∀ payload, ¬Sendable s.session.config.maxPayload m payload) :
      Begun s m flags (.error halt, s)
  | requested {payload} (hpayload : Sendable s.session.config.maxPayload m payload)
      (hrequested : s.session.cancelRequested = true) : Begun s m flags (.error (.failed .canceled),
        { s with session := { s.session with cancelRequested := false } })
  | begun {payload} (hpayload : Sendable s.session.config.maxPayload m payload)
      (hrequested : s.session.cancelRequested = false) :
      Begun s m flags ((transmit m flags payload).run s)

theorem sendMessage_begun (m : μ) (flags : Flags) (s : Scene (StreamSession μ)) :
    Begun s m flags ((sendMessage m flags).run s) := by
  obtain ⟨ended, hbody, hpayload⟩ := run_bodyToSend m flags s
  rw [sendMessage_eq, Call.run_bind, hbody]
  cases ended with
  | error halt => exact .unfit fun payload h => by cases (hpayload payload).2 h
  | ok payload =>
      have hsendable := (hpayload payload).1 rfl
      dsimp only
      rw [Call.run_bind, run_takeCancel]
      cases hrequested : s.session.cancelRequested with
      | true => exact .requested hsendable hrequested
      | false =>
          have hsame : { s with session := { s.session with cancelRequested := false } } = s := by
            obtain ⟨⟨registry, config, transport, receiver, requested⟩, now, log⟩ := s
            simp only at hrequested
            rw [hrequested]
          rw [hsame]
          exact .begun hsendable hrequested

/-- How a call to send may end, with the bytes that it has written: none if there is nothing to be
sent, if a request to stop is there before, or if there is no transport. -/
inductive SendOutcome (s : StreamSession μ) (m : μ) (flags : Flags) (log : Array Event) :
    Except Halt Unit → List UInt8 → Prop
  | unfit {halt} (hunfit : ∀ payload, ¬Sendable s.config.maxPayload m payload) :
      SendOutcome s m flags log (.error halt) []
  | requested (hrequested : s.cancelRequested = true) :
      SendOutcome s m flags log (.error (.failed .canceled)) []
  | closed (hclosed : s.transport = none) (hquiet : s.cancelRequested = false) :
      SendOutcome s m flags log (.error (.failed closedError)) []
  | sent {payload ended bytes} (hconnected : s.transport.isSome)
      (hpayload : Sendable s.config.maxPayload m payload) (hquiet : s.cancelRequested = false)
      (hsent : Sent s m flags payload (tableFrames s.registry flags.versioned) log ended bytes) :
      SendOutcome s m flags log ended bytes

theorem send_outcome {s t : Scene (StreamSession μ)} {ended : Except Halt Unit} {m : μ}
    {flags : Flags} (hrun : (send m flags).run s = (ended, t)) :
    ∃ bytes, t.session.written = s.session.written ++ bytes ∧
      (s.session.transport.isSome → s.session.Says bytes t.session) ∧
      SendOutcome s.session m flags t.log ended bytes := by
  obtain ⟨log, hsend, hlog⟩ := run_send m flags s
  have hbegun := sendMessage_begun m flags s
  rw [hsend] at hrun
  obtain ⟨rfl, rfl⟩ := Prod.mk.inj hrun
  revert hlog
  generalize (sendMessage m flags).run s = result at hbegun
  intro hlog
  cases hbegun with
  | unfit hunfit => exact ⟨[], (List.append_nil _).symm, .refl, .unfit hunfit⟩
  | requested hpayload hrequested =>
      exact ⟨[], (List.append_nil _).symm,
        fun hconnected => (Says.refl hconnected).withRequest false, .requested hrequested⟩
  | @begun payload hpayload hquiet =>
      cases hconnected : s.session.transport.isSome with
      | true =>
          obtain ⟨bytes, hspoke, hsent⟩ := transmit_sent (s := s) hconnected rfl
          exact ⟨bytes, hspoke.written, fun _ => hspoke,
            .sent hconnected hpayload hquiet (hsent.more hlog)⟩
      | false =>
          have hclosed := Option.isNone_iff_eq_none.1 (Option.isSome_eq_false_iff.1 hconnected)
          rw [transmit_closed hclosed]
          exact ⟨[], (List.append_nil _).symm, by simp, .closed hclosed hquiet⟩

end MessageChannel.StreamSession
