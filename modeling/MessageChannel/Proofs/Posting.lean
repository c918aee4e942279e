import MessageChannel.Datagram.Send
import MessageChannel.Proofs.Emission

namespace MessageChannel.DatagramSession

variable {μ : Type}

/-- The datagrams that the transport has taken, each with its target. -/
def sent (s : DatagramSession μ) : List (Endpoint × List UInt8) :=
  (s.socket.map fun p => p.sent.toList).getD []

/-- One session becomes the other by posting these frames. -/
structure Posts (s : DatagramSession μ) (frames : List Frame) (target : Endpoint)
    (t : DatagramSession μ) : Prop where
  session : t = { s with socket := t.socket }
  arrivals : t.socket.map (·.arrivals) = s.socket.map (·.arrivals)
  sent : t.sent = s.sent ++ frames.map fun f => (target, f.encode)

namespace Posts

variable {s t u : DatagramSession μ} {front back : List Frame} {target : Endpoint}

theorem refl (s : DatagramSession μ) (target : Endpoint) : s.Posts [] target s :=
  ⟨rfl, rfl, (List.append_nil _).symm⟩

theorem trans (hst : s.Posts front target t) (htu : t.Posts back target u) :
    s.Posts (front ++ back) target u := by
  refine ⟨?_, htu.arrivals.trans hst.arrivals, ?_⟩
  · rw [htu.session, hst.session]
  · rw [htu.sent, hst.sent, List.map_append, List.append_assoc]

end Posts

/-- How an attempt to post some frames may end: with all of them posted, or some of the first. -/
def Posting (s : DatagramSession μ) (frames : List Frame) (target : Endpoint)
    (ended : Except Halt Unit) (t : DatagramSession μ) : Prop :=
  ∃ posted, posted <+: frames ∧ s.Posts posted target t ∧ (ended = .ok () → posted = frames)

theorem Posting.failed {s t : DatagramSession μ} {front : List Frame} {target : Endpoint}
    {halt : Halt} (h : s.Posting front target (.error halt) t) (back : List Frame) :
    s.Posting (front ++ back) target (.error halt) t := by
  obtain ⟨posted, hprefix, hposts, -⟩ := h
  exact ⟨posted, hprefix.trans (List.prefix_append _ _), hposts, by simp⟩

theorem Posting.trans {s t u : DatagramSession μ} {front back : List Frame} {target : Endpoint}
    {ended : Except Halt Unit} (hst : s.Posting front target (.ok ()) t)
    (htu : t.Posting back target ended u) : s.Posting (front ++ back) target ended u := by
  obtain ⟨posted, -, hposts, hall⟩ := hst
  obtain rfl := hall rfl
  obtain ⟨posted', hprefix', hposts', hall'⟩ := htu
  exact ⟨posted ++ posted', (List.prefix_append_right_inj _).2 hprefix', hposts.trans hposts',
    fun hended => by rw [hall' hended]⟩

variable {s t : Scene (DatagramSession μ)} {ended : Except Halt Unit} {target : Endpoint}

theorem run_sendFrame_closed (hclosed : s.session.socket = none) (f : Frame) (target : Endpoint) :
    (sendFrame f target).run s = (.error (.failed closedError), s) := by
  simp only [sendFrame, connected, Call.run_bind, Call.session, hclosed, Call.fail, Call.halt]

/-- A frame is posted as one datagram, and a call that is told of fewer bytes has failed. -/
theorem run_sendFrame {p : DatagramSocket} (hsocket : s.session.socket = some p) (f : Frame)
    (target : Endpoint) :
    let posted :=
      DatagramSocket.post s.session.config.retryBackoff f.encode.length p.replies s.now
    let sent := match posted.outcome with
      | .ok _ => p.sent.push (target, f.encode)
      | .error _ => p.sent
    ∃ text, (sendFrame f target).run s =
      (match posted.outcome with
        | .ok told => if told = f.encode.length then .ok ()
            else .error (.failed (.io (.reported .writeZero text)))
        | .error error => .error (.failed error),
      { s with
        session := { s.session with socket := some { p with replies := posted.replies, sent } }
        now := posted.now }) := by
  simp only [sendFrame, connected, Call.run_bind, Call.session, hsocket, Call.scene, Call.settle,
    Call.run_pure, DatagramSocket.send]
  cases (DatagramSocket.post s.session.config.retryBackoff f.encode.length p.replies
      s.now).outcome with
  | error error => exact ⟨"", rfl⟩
  | ok told =>
      by_cases htold : told = f.encode.length
      · simp only [Call.ofExcept, Call.run_pure, Call.failIf, htold, ne_eq, not_true, if_false,
          if_true]
        exact ⟨"", trivial⟩
      · simp only [Call.ofExcept, Call.run_pure, Call.failIf, htold, ne_eq, not_false_eq_true,
          if_true, if_false]
        exact ⟨_, rfl⟩

theorem sendFrame_posting {f : Frame} (hrun : (sendFrame f target).run s = (ended, t)) :
    s.session.Posting [f] target ended t.session := by
  cases hsocket : s.session.socket with
  | none =>
      rw [run_sendFrame_closed hsocket] at hrun
      obtain ⟨rfl, rfl⟩ := Prod.mk.inj hrun
      exact ⟨[], List.nil_prefix, .refl _ _, by simp⟩
  | some p =>
      obtain ⟨text, hsend⟩ := run_sendFrame hsocket f target
      rw [hsend] at hrun
      obtain ⟨rfl, rfl⟩ := Prod.mk.inj hrun
      cases (DatagramSocket.post s.session.config.retryBackoff f.encode.length p.replies
          s.now).outcome with
      | error error =>
          exact ⟨[], List.nil_prefix, ⟨rfl, by simp [hsocket], by simp [sent, hsocket]⟩, by simp⟩
      | ok told =>
          exact ⟨[f], List.prefix_rfl, ⟨rfl, by simp [hsocket], by simp [sent, hsocket]⟩,
            fun _ => rfl⟩

theorem sendVersion_posting (hrun : (sendVersion target).run s = (ended, t)) :
    s.session.Posting [tableFrame s.session.registry] target ended t.session := by
  simp only [sendVersion, Call.run_bind, Call.session] at hrun
  cases hframe : (sendFrame (tableFrame s.session.registry) target).run s with
  | mk ended' u =>
      have hposting := sendFrame_posting hframe
      rw [tableFrame] at hframe
      rw [hframe] at hrun
      cases ended' with
      | error halt =>
          obtain ⟨rfl, rfl⟩ := Prod.mk.inj hrun
          exact hposting
      | ok _ =>
          obtain ⟨rfl, rfl⟩ := Prod.mk.inj hrun
          exact hposting

variable [Message μ]

/-- The body of a message that is there and fits into a datagram. -/
structure Postable (m : μ) (flags : Flags) (payload : List UInt8) : Prop where
  whole : flags.sliced = false
  encode : Message.encode m = .ok payload
  nonempty : payload ≠ []
  fits : payload.length ≤ maxDatagramPayload

def messageFrame (m : μ) (payload : List UInt8) : Frame :=
  ⟨.complete payload.length.toUInt32 (Message.typeId m), payload⟩

/-- What a call to send does before it posts anything. -/
def bodyToPost (m : μ) (flags : Flags) : Call (DatagramSession μ) (List UInt8) := do
  Call.failIf flags.sliced (.unsupported .slicedDatagram)
  let payload ← Call.ofHalting (Worker.encode flags.inWorker m)
  Call.failIf payload.isEmpty .noData
  Call.failIf (payload.length > maxDatagramPayload) (.tooLarge payload.length maxDatagramPayload)
  return payload

def post (m : μ) (target : Endpoint) (flags : Flags) (payload : List UInt8) :
    Call (DatagramSession μ) Unit := do
  if flags.versioned then sendVersion target
  sendFrame (messageFrame m payload) target
  Call.tell (.sentTo (messageFrame m payload).header target)

theorem send_eq (m : μ) (target : Endpoint) (flags : Flags) :
    send m target flags = bodyToPost m flags >>= post m target flags := by
  simp only [send, bodyToPost, bind_assoc, pure_bind]
  rfl

/-- Why a message is not posted, of the reasons that lie in it and in the flags. -/
inductive Rejected (m : μ) (flags : Flags) : Halt → Prop
  | sliced (hsliced : flags.sliced = true) :
      Rejected m flags (.failed (.unsupported .slicedDatagram))
  | unencodable {halt} (hwhole : flags.sliced = false)
      (hencode : Worker.encode flags.inWorker m = .error halt) : Rejected m flags halt
  | empty (hwhole : flags.sliced = false) (hencode : Message.encode m = .ok []) :
      Rejected m flags (.failed .noData)
  | tooLarge {payload} (hwhole : flags.sliced = false) (hencode : Message.encode m = .ok payload)
      (hlong : maxDatagramPayload < payload.length) :
      Rejected m flags (.failed (.tooLarge payload.length maxDatagramPayload))

theorem postable_or_rejected (m : μ) (flags : Flags) :
    (∃ payload, Postable m flags payload) ∨ ∃ halt, Rejected m flags halt := by
  cases hsliced : flags.sliced with
  | true => exact .inr ⟨_, .sliced hsliced⟩
  | false =>
      cases hencode : Message.encode m with
      | error failure =>
          cases hworker : Worker.encode flags.inWorker m with
          | error halt => exact .inr ⟨_, .unencodable hsliced hworker⟩
          | ok payload =>
              rw [Worker.encode_eq, hencode] at hworker
              cases failure <;> cases hworker
      | ok payload =>
          by_cases hempty : payload = []
          · exact .inr ⟨_, .empty hsliced (hempty ▸ hencode)⟩
          · by_cases hlong : maxDatagramPayload < payload.length
            · exact .inr ⟨_, .tooLarge hsliced hencode hlong⟩
            · exact .inl ⟨payload, hsliced, hencode, hempty, Nat.not_lt.1 hlong⟩

theorem Postable.run_bodyToPost {m : μ} {flags : Flags} {payload : List UInt8}
    (h : Postable m flags payload) (s : Scene (DatagramSession μ)) :
    (bodyToPost m flags).run s = (.ok payload, s) := by
  have hfull : payload.isEmpty = false := by simpa using h.nonempty
  have hfits := Nat.not_lt.2 h.fits
  simp only [bodyToPost, Call.run_bind, Call.failIf, Worker.encode_eq, h.whole, h.encode,
    Worker.settle, Call.ofHalting, Call.run_pure, hfull, gt_iff_lt, hfits, Bool.false_eq_true,
    if_false]

theorem Rejected.run_bodyToPost {m : μ} {flags : Flags} {halt : Halt}
    (h : Rejected m flags halt) (s : Scene (DatagramSession μ)) :
    (bodyToPost m flags).run s = (.error halt, s) := by
  cases h with
  | sliced hsliced =>
      simp only [bodyToPost, Call.run_bind, Call.failIf, hsliced, if_true]
      rfl
  | unencodable hwhole hencode =>
      simp only [bodyToPost, Call.run_bind, Call.failIf, hwhole, Bool.false_eq_true, if_false,
        Call.run_pure, hencode]
      rfl
  | empty hwhole hencode =>
      simp only [bodyToPost, Call.run_bind, Call.failIf, Worker.encode_eq, hwhole, hencode,
        Worker.settle, Call.ofHalting, Call.run_pure, Bool.false_eq_true, if_false]
      rfl
  | @tooLarge payload hwhole hencode hlong =>
      have hfull : payload.isEmpty = false := by
        rw [List.isEmpty_eq_false_iff_exists_mem, ← List.length_pos_iff_exists_mem]
        omega
      simp only [bodyToPost, Call.run_bind, Call.failIf, Worker.encode_eq, hwhole, hencode,
        Worker.settle, Call.ofHalting, Call.run_pure, hfull, gt_iff_lt, hlong, Bool.false_eq_true,
        if_true, if_false]
      rfl

theorem Rejected.run_send {m : μ} {flags : Flags} {halt : Halt} (h : Rejected m flags halt)
    (target : Endpoint) (s : Scene (DatagramSession μ)) :
    (send m target flags).run s = (.error halt, s) := by
  rw [send_eq, Call.run_bind, h.run_bodyToPost]

theorem Postable.run_send {m : μ} {flags : Flags} {payload : List UInt8}
    (h : Postable m flags payload) (target : Endpoint) (s : Scene (DatagramSession μ)) :
    (send m target flags).run s = (post m target flags payload).run s := by
  rw [send_eq, Call.run_bind, h.run_bodyToPost]

theorem post_posting {m : μ} {flags : Flags} {payload : List UInt8}
    (hrun : (post m target flags payload).run s = (ended, t)) :
    s.session.Posting (tableFrames s.session.registry flags.versioned ++ [messageFrame m payload])
      target ended t.session := by
  have hmessage : ∀ {u}, (do
      sendFrame (messageFrame m payload) target
      Call.tell (.sentTo (messageFrame m payload).header target) :
        Call (DatagramSession μ) Unit).run u = (ended, t) →
      u.session.Posting [messageFrame m payload] target ended t.session := by
    intro u hrun
    rw [Call.run_bind] at hrun
    cases hframe : (sendFrame (messageFrame m payload) target).run u with
    | mk ended' v =>
        have hposting := sendFrame_posting hframe
        rw [hframe] at hrun
        cases ended' <;> obtain ⟨rfl, rfl⟩ := Prod.mk.inj hrun <;> exact hposting
  rw [post] at hrun
  cases hversioned : flags.versioned with
  | false =>
      simp only [hversioned, Bool.false_eq_true, if_false] at hrun
      exact hmessage hrun
  | true =>
      simp only [hversioned, if_true, Call.run_bind] at hrun
      rw [tableFrames, if_pos rfl]
      cases hversion : (sendVersion target).run s with
      | mk ended' u =>
          have hposting := sendVersion_posting hversion
          rw [hversion] at hrun
          cases ended' with
          | error halt =>
              obtain ⟨rfl, rfl⟩ := Prod.mk.inj hrun
              exact hposting.failed _
          | ok _ => exact hposting.trans (hmessage hrun)

/-- How a call to send may end, with the frames that it has posted. -/
theorem send_posting {m : μ} {flags : Flags} (hrun : (send m target flags).run s = (ended, t)) :
    (ended ≠ .ok () ∧ t.session = s.session) ∨ ∃ payload, Postable m flags payload ∧
      s.session.Posting
        (tableFrames s.session.registry flags.versioned ++ [messageFrame m payload]) target ended
        t.session := by
  rcases postable_or_rejected m flags with ⟨payload, hpayload⟩ | ⟨halt, hrejected⟩
  · rw [hpayload.run_send] at hrun
    exact .inr ⟨payload, hpayload, post_posting hrun⟩
  · rw [hrejected.run_send] at hrun
    obtain ⟨rfl, rfl⟩ := Prod.mk.inj hrun
    exact .inl ⟨by simp, rfl⟩

end MessageChannel.DatagramSession
