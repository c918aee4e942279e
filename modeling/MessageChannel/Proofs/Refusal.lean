import MessageChannel.Proofs.Sending
import MessageChannel.Proofs.SizeLimits
import MessageChannel.Proofs.WriteCalls

namespace MessageChannel.StreamSession

variable {μ : Type} [Message μ]

/-- Why a call to send gives up before anything else is done. -/
inductive Refused (s : StreamSession μ) (m : μ) (flags : Flags) : Halt → Prop
  | unfit {halt} (hunfit : Unfit s.config.maxPayload m flags halt) : Refused s m flags halt
  | requested {payload} (hpayload : Sendable s.config.maxPayload m payload)
      (hrequested : s.cancelRequested = true) : Refused s m flags (.failed .canceled)
  | closed {payload} (hpayload : Sendable s.config.maxPayload m payload)
      (hquiet : s.cancelRequested = false) (hclosed : s.transport = none) :
      Refused s m flags (.failed closedError)

/-- A message that can be sent right now. -/
structure Ready (s : StreamSession μ) (m : μ) (payload : List UInt8) : Prop where
  sendable : Sendable s.config.maxPayload m payload
  quiet : s.cancelRequested = false
  connected : s.transport.isSome

theorem refused_or_ready (s : StreamSession μ) (m : μ) (flags : Flags) :
    (∃ halt, Refused s m flags halt) ∨ ∃ payload, s.Ready m payload := by
  rcases sendable_or_unfit s.config.maxPayload m flags with ⟨payload, hpayload⟩ | ⟨halt, hunfit⟩
  · cases hrequested : s.cancelRequested with
    | true => exact .inl ⟨_, .requested hpayload hrequested⟩
    | false =>
        cases hconnected : s.transport with
        | none => exact .inl ⟨_, .closed hpayload hrequested hconnected⟩
        | some transport => exact .inr ⟨payload, hpayload, hrequested, by rw [hconnected]; rfl⟩
  · exact .inl ⟨halt, .unfit hunfit⟩

section

variable {m : μ} {flags : Flags} {payload : List UInt8} {halt : Halt} {s : Scene (StreamSession μ)}

/-- Behind the body the request to stop is looked at, and then all the rest comes. -/
theorem run_sendMessage_of_sendable (h : Sendable s.session.config.maxPayload m payload) :
    (sendMessage m flags).run s =
      let u := { s with session := { s.session with cancelRequested := false } }
      if s.session.cancelRequested then (.error (.failed .canceled), u)
      else (transmit m flags payload).run u := by
  rw [sendMessage_eq, Call.run_bind, run_bodyToSend_of_sendable h]
  dsimp only
  rw [Call.run_bind, run_takeCancel]
  cases s.session.cancelRequested <;> rfl

/-- A request to stop is still there behind a call that is refused if the message is at fault. -/
theorem run_sendMessage_of_refused (h : Refused s.session m flags halt) :
    ∃ requested, (sendMessage m flags).run s = (.error halt,
        { s with session := { s.session with cancelRequested := requested } }) ∧
      (requested = true ↔ s.session.cancelRequested = true ∧
        ¬∃ payload, Sendable s.session.config.maxPayload m payload) := by
  cases h with
  | unfit hunfit =>
      refine ⟨s.session.cancelRequested, ?_, ?_⟩
      · rw [sendMessage_eq, Call.run_bind, run_bodyToSend_of_unfit hunfit]
      · have hnone : ¬∃ payload, Sendable s.session.config.maxPayload m payload :=
          fun ⟨payload, hpayload⟩ => hunfit.not_sendable payload hpayload
        exact ⟨fun h => ⟨h, hnone⟩, And.left⟩
  | requested hpayload hrequested =>
      refine ⟨false, ?_, nofun, fun h => absurd ⟨_, hpayload⟩ h.2⟩
      rw [run_sendMessage_of_sendable hpayload, if_pos hrequested]
  | closed hpayload hquiet hclosed =>
      refine ⟨false, ?_, nofun, fun h => absurd ⟨_, hpayload⟩ h.2⟩
      rw [run_sendMessage_of_sendable hpayload, if_neg (by simp [hquiet])]
      let u := { s with session := { s.session with cancelRequested := false } }
      exact transmit_closed (s := u) hclosed m flags _

theorem run_sendMessage_of_ready (h : s.session.Ready m payload) :
    (sendMessage m flags).run s = (transmit m flags payload).run s := by
  rw [run_sendMessage_of_sendable h.sendable, if_neg (by simp [h.quiet])]
  congr 2
  rw [← h.quiet]

end

/-- The transport fails for good, with this error, in the midst of a frame that is written behind
others. Nothing is done after that. -/
def BreaksDown (s : StreamSession μ) (error : ChannelError) (t : StreamSession μ) : Prop :=
  ∃ (f : Frame) (front : List UInt8) (u : StreamSession μ) (transport : ByteStream) (now : Nat),
    s.Says front u ∧ u.transport = some transport ∧
    let d := transport.outbound.deliver u.config.retryBackoff f.pieces now
    d.outcome = .error error ∧ t = { u with
      transport := some { transport with outbound := d.outbound }
      cancelRequested := u.cancelRequested || d.canceled }

omit [Message μ] in
theorem Sending.breaksDown {s t : StreamSession μ} {halt : Halt} (h : Sending s (.error halt) t)
    (hne : halt ≠ .failed .canceled) (hconnected : s.transport.isSome) :
    ∃ error, halt = .failed error ∧ s.BreaksDown error t := by
  obtain ⟨f, u, v, hu, hrun, rfl⟩ := h.of_error hne
  obtain ⟨front, hspoke⟩ := hu.speaks hconnected
  obtain ⟨transport, htransport⟩ := Option.isSome_iff_exists.1 hspoke.isSome
  rw [run_sendFrame htransport] at hrun
  obtain ⟨hended, rfl⟩ := Prod.mk.inj hrun
  cases houtcome :
    (transport.outbound.deliver u.session.config.retryBackoff f.pieces u.now).outcome with
  | ok _ =>
      rw [houtcome] at hended
      cases hended
  | error error =>
      rw [houtcome] at hended
      obtain rfl := Except.error.inj hended
      exact ⟨error, rfl, f, front, u.session, transport, u.now, hspoke, htransport, houtcome, rfl⟩

omit [Message μ] in
theorem BreaksDown.error_cases {s t : StreamSession μ} {error : ChannelError}
    (h : s.BreaksDown error t) : error = .connectionReset ∨ ∃ error', error = .io error' := by
  obtain ⟨f, front, u, transport, now, -, -, houtcome, -⟩ := h
  exact Outbound.deliver_error houtcome

omit [Message μ] in
theorem BreaksDown.not_smooth {s t : StreamSession μ} {error : ChannelError}
    (h : s.BreaksDown error t) : ¬s.Smooth := by
  intro hsmooth
  obtain ⟨f, front, u, transport, now, hspoke, htransport, houtcome, -⟩ := h
  obtain ⟨transport', htransport', hunfailing⟩ := hspoke.smooth hsmooth
  obtain rfl := Option.some.inj (htransport.symm.trans htransport')
  rw [Outbound.deliver_unfailing _ _ hunfailing] at houtcome
  cases houtcome

variable {m : μ} {flags : Flags} {payload : List UInt8} {s t : Scene (StreamSession μ)}
  {ended : Except Halt Unit}

theorem send_concluded (h : s.session.Ready m payload) (hrun : (send m flags).run s = (ended, t)) :
    Concluded s.session (Message.typeId m) flags.sliced ended t.session := by
  obtain ⟨log, hsend, -⟩ := run_send m flags s
  cases htransmit : (transmit m flags payload).run s with
  | mk ended' u =>
      have hconcluded := transmit_concluded htransmit
      rw [hsend, run_sendMessage_of_ready h, htransmit] at hrun
      obtain ⟨rfl, rfl⟩ := Prod.mk.inj hrun
      exact hconcluded

/-- What a message comes to that can be sent right now. -/
theorem send_ready (h : s.session.Ready m payload) (hrun : (send m flags).run s = (ended, t)) :
    ended = .ok () ∨ (flags.sliced = true ∧ ended = .error (.failed .canceled)) ∨
      ∃ error, ended = .error (.failed error) ∧ s.session.BreaksDown error t.session := by
  have hconcluded := send_concluded h hrun
  generalize t.session = t' at hconcluded ⊢
  cases hconcluded with
  | sent hsent hquiet => exact .inl rfl
  | failed hfailed hne =>
      obtain ⟨error, rfl, hbroken⟩ := hfailed.breaksDown hne h.connected
      exact .inr (.inr ⟨error, rfl, hbroken⟩)
  | canceled hsliced hcanceled hframe => exact .inr (.inl ⟨hsliced, rfl⟩)

theorem error_of_ready {error : ChannelError} (h : s.session.Ready m payload)
    (hrun : (send m flags).run s = (.error (.failed error), t)) :
    error = .canceled ∨ error = .connectionReset ∨ ∃ error', error = .io error' := by
  rcases send_ready h hrun with hok | ⟨-, hcanceled⟩ | ⟨error', hended, hbroken⟩
  · cases hok
  · exact .inl (Halt.failed.inj (Except.error.inj hcanceled))
  · obtain rfl := Halt.failed.inj (Except.error.inj hended)
    exact .inr hbroken.error_cases

theorem send_of_refused {halt : Halt} (h : Refused s.session m flags halt)
    (hrun : (send m flags).run s = (ended, t)) :
    ended = .error halt ∧ t.now = s.now ∧
      t.session = { s.session with cancelRequested := t.session.cancelRequested } ∧
      (t.session.cancelRequested = true ↔ s.session.cancelRequested = true ∧
        ¬∃ payload, Sendable s.session.config.maxPayload m payload) := by
  obtain ⟨log, hsend, -⟩ := run_send m flags s
  obtain ⟨requested, hrefused, hrequested⟩ := run_sendMessage_of_refused h
  rw [hsend, hrefused] at hrun
  obtain ⟨rfl, rfl⟩ := Prod.mk.inj hrun
  exact ⟨rfl, rfl, rfl, hrequested⟩

/-- A call to send that is refused leaves everything as it is, but for a request to stop, which it
takes off if the message could be sent. The calls that end without a body, with one that is too
large, with a request that was there before or without a transport are all refused. Any other call
sends the message, unless the transport fails for good or a request comes between two slices. -/
theorem send_refusal (hrun : (send m flags).run s = (ended, t)) :
    (∀ halt, Refused s.session m flags halt →
      ended = .error halt ∧ t.now = s.now ∧
      t.session = { s.session with cancelRequested := t.session.cancelRequested } ∧
      (t.session.cancelRequested = true ↔ s.session.cancelRequested = true ∧
        ¬∃ payload, Sendable s.session.config.maxPayload m payload)) ∧
    ((∃ halt, Worker.encode flags.inWorker m = .error halt) ∨
      ended = .error (.failed .noData) ∨
      (∃ size limit, ended = .error (.failed (.tooLarge size limit))) ∨
      (ended = .error (.failed .canceled) ∧ s.session.cancelRequested = true) ∨
      s.session.transport = none → ∃ halt, ended = .error halt ∧ Refused s.session m flags halt) ∧
    ∀ payload, s.session.Ready m payload →
      (ended = .ok () ∨ (flags.sliced = true ∧ ended = .error (.failed .canceled)) ∨
        ∃ error, ended = .error (.failed error) ∧ s.session.BreaksDown error t.session) ∧
      (s.session.Smooth →
        ended = .ok () ∨ (flags.sliced = true ∧ ended = .error (.failed .canceled))) := by
  refine ⟨fun halt h => send_of_refused h hrun, fun hended => ?_, fun payload h => ⟨?_, ?_⟩⟩
  · rcases refused_or_ready s.session m flags with ⟨halt, h⟩ | ⟨payload, h⟩
    · exact ⟨halt, (send_of_refused h hrun).1, h⟩
    · -- A message that can be sent right now comes to none of these ends.
      exfalso
      rcases hended with ⟨halt, hencode⟩ | rfl | ⟨size, limit, rfl⟩ | ⟨-, hrequested⟩ | hclosed
      · cases hencode.symm.trans (Worker.encode_eq_ok_iff.2 h.sendable.encode)
      · rcases error_of_ready h hrun with hnone | hnone | ⟨_, hnone⟩ <;> cases hnone
      · rcases error_of_ready h hrun with hlarge | hlarge | ⟨_, hlarge⟩ <;> cases hlarge
      · rw [h.quiet] at hrequested
        cases hrequested
      · have hconnected := h.connected
        rw [hclosed] at hconnected
        cases hconnected
  · exact send_ready h hrun
  · intro hsmooth
    rcases send_ready h hrun with hok | hcanceled | ⟨error, -, hbroken⟩
    · exact .inl hok
    · exact .inr hcanceled
    · exact absurd hsmooth hbroken.not_smooth

def nineBytes : AnyMessage := .raw (.ofBytes rawTypeId none [1, 2, 3, 4, 5, 6, 7, 8, 9])

def oneByte : AnyMessage := .raw (.ofBytes rawTypeId none [1])

/-- Where there is room for eight bytes nine are turned down, and the table is not written in front
of them. A request to stop is left for the byte that comes next. Without one that byte is sent. -/
theorem send_refusal_cramped :
    let asked : Scene (StreamSession AnyMessage) :=
      { session := { cramped with cancelRequested := true } }
    let flags : Flags := { versioned := true }
    let refused := (send nineBytes flags).run asked
    let stopped := (send oneByte flags).run refused.2
    let sent := (send oneByte flags).run stopped.2
    refused.1 = .error (.failed (.tooLarge 9 8)) ∧ refused.2.session = asked.session ∧
      stopped.1 = .error (.failed .canceled) ∧ stopped.2.session = cramped ∧ sent.1 = .ok () := by
  intro asked flags refused stopped sent
  have hlarge : Refused asked.session nineBytes flags (.failed (.tooLarge 9 8)) := by
    have hencode : Message.encode nineBytes = .ok [1, 2, 3, 4, 5, 6, 7, 8, 9] := rfl
    exact .unfit (.tooLarge hencode (by decide))
  have hbody : Sendable cramped.config.maxPayload oneByte [1] := ⟨rfl, by decide, by decide⟩
  have hrefused : (send nineBytes flags).run asked = (refused.1, refused.2) := rfl
  have hstopped : (send oneByte flags).run refused.2 = (stopped.1, stopped.2) := rfl
  have hsent : (send oneByte flags).run stopped.2 = (sent.1, sent.2) := rfl
  obtain ⟨hturned, -, hleft, hkept⟩ := (send_refusal hrefused).1 _ hlarge
  have hkeeps : refused.2.session.cancelRequested = true :=
    hkept.2 ⟨rfl, fun ⟨payload, hpayload⟩ => by
      obtain rfl := Except.ok.inj (hpayload.encode.symm.trans rfl)
      exact absurd hpayload.fits (by decide)⟩
  rw [hkeeps] at hleft
  have hasked : Refused refused.2.session oneByte flags (.failed .canceled) :=
    hleft ▸ .requested hbody rfl
  obtain ⟨hcanceled, -, hleft', htaken⟩ := (send_refusal hstopped).1 _ hasked
  have htakes : stopped.2.session.cancelRequested = false :=
    Bool.eq_false_iff.2 fun h => (htaken.1 h).2 ⟨[1], hleft ▸ hbody⟩
  rw [htakes, hleft] at hleft'
  have hready : stopped.2.session.Ready oneByte [1] := hleft' ▸ ⟨hbody, rfl, rfl⟩
  have hsmooth : stopped.2.session.Smooth := hleft' ▸ ⟨_, rfl, nofun, nofun, rfl⟩
  refine ⟨hturned, hleft, hcanceled, hleft', ?_⟩
  rcases ((send_refusal hsent).2.2 [1] hready).2 hsmooth with hok | ⟨hsliced, -⟩
  · exact hok
  · cases hsliced

end MessageChannel.StreamSession
