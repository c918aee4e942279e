import MessageChannel.Proofs.CallFrame
import MessageChannel.Proofs.FrameIntake
import MessageChannel.Proofs.Hears
import MessageChannel.Proofs.SendWire

namespace MessageChannel

variable {μ : Type}

namespace StreamSession

/-- What calls to receive go by. -/
def hearing (s : StreamSession μ) : Registry μ × Config × Option Inbound × Receiver μ :=
  (s.registry, s.config, s.transport.map (·.inbound), s.receiver)

section Sending

theorem keeps_sendFrame (f : Frame) : Call.Keeps hearing (sendFrame (μ := μ) f) := by
  intro s
  cases htransport : s.session.transport with
  | none =>
      simp only [sendFrame, connected, Call.run_bind, Call.session, htransport, Call.fail,
        Call.halt]
  | some transport =>
      rw [run_sendFrame htransport]
      simp [hearing, htransport]

theorem keeps_takeCancel : Call.Keeps hearing (takeCancel (μ := μ)) := fun _ => rfl

theorem keeps_dropLateCancel (typeId : Int32) :
    Call.Keeps hearing (dropLateCancel (μ := μ) typeId) :=
  .bind keeps_takeCancel fun _ => .tellIf _ _

theorem keeps_sendVersion : Call.Keeps hearing (sendVersion (μ := μ)) :=
  .bind .session fun _ => .bind (keeps_sendFrame _) fun _ => .tell _

theorem keeps_sendSlices (payload : List UInt8) (count : Nat) (ranges : List SliceRange)
    (index : Nat) : Call.Keeps hearing (sendSlices (μ := μ) payload count ranges index) := by
  induction ranges generalizing index with
  | nil => exact .pure _
  | cons range ranges ih =>
      rw [sendSlices_cons]
      refine .bind ?_ fun _ => .bind (keeps_sendFrame _) fun _ => ih _
      rw [checkpoint]
      split
      · refine .bind keeps_takeCancel fun requested => ?_
        split
        · exact .bind (.tell _) fun _ => .fail _
        · exact .pure _
      · exact .pure _

theorem keeps_sendSliced (typeId : Int32) (payload : List UInt8) :
    Call.Keeps hearing (sendSliced (μ := μ) typeId payload) :=
  .bind (keeps_sendFrame _) fun _ => .bind (.tell _) fun _ => .bind .session fun _ =>
    .bind (keeps_sendSlices _ _ _ _) fun _ => .bind (.tell _) fun _ => keeps_dropLateCancel _

theorem keeps_sendWhole (typeId : Int32) (payload : List UInt8) :
    Call.Keeps hearing (sendWhole (μ := μ) typeId payload) :=
  .bind (keeps_sendFrame _) fun _ => .bind (.tell _) fun _ => keeps_dropLateCancel _

theorem keeps_sendCancel (typeId : Int32) : Call.Keeps hearing (sendCancel (μ := μ) typeId) := by
  refine .bind (.errorOf? (keeps_sendFrame _)) fun error? => ?_
  split
  · exact .tell _
  · exact .tell _

variable [Message μ]

theorem keeps_transmit (m : μ) (flags : Flags) (payload : List UInt8) :
    Call.Keeps hearing (transmit m flags payload) := by
  have hbody : Call.Keeps hearing (transmitBody m flags payload) := by
    rw [transmitBody]
    split
    · refine .onFailure (keeps_sendSliced _ _) fun error => ?_
      split
      · exact keeps_sendCancel _
      · exact .pure _
    · exact keeps_sendWhole _ _
  rw [transmit_eq]
  split
  · exact .bind keeps_sendVersion fun _ => hbody
  · exact hbody

/-- A call to send changes nothing that calls to receive go by. -/
theorem keeps_send (m : μ) (flags : Flags) : Call.Keeps hearing (send m flags) := by
  refine .onFailure ?_ fun _ => .tell _
  rw [sendMessage_eq]
  refine .bind ?_ fun _ => .bind keeps_takeCancel fun _ => .bind (.failIf _ _) fun _ =>
    keeps_transmit _ _ _
  exact .bind (.ofHalting _) fun _ => .bind .session fun _ => .bind (.failIf _ _) fun _ =>
    .bind (.failIf _ _) fun _ => .pure _

end Sending

end StreamSession

namespace Receiver

def limit (r : Receiver μ) : UInt32 := r.assembly.limit

theorem keeps_assemble {act : Assembly → Except ChannelError Unit × Assembly}
    (h : ∀ a, (act a).2.limit = a.limit) : Call.Keeps limit (assemble (μ := μ) act) := by
  intro s
  simp only [assemble, Call.run_bind, Call.session, Call.update]
  exact (Call.Keeps.ofExcept _ _).trans (h _)

theorem limit_prepare (h : Header) (a : Assembly) : (a.prepare h).2.limit = a.limit := by
  rcases hprepare : a.prepare h with ⟨error | _, b⟩
  · rw [Assembly.prepare_refused hprepare]
  · obtain ⟨-, -, rfl⟩ := Assembly.prepare_eq_ok_iff.1 hprepare
    rfl

theorem limit_start (h : Header) (a : Assembly) : (a.start h).2.limit = a.limit := by
  rcases hstart : a.start h with ⟨error | _, b⟩
  · rw [Assembly.start_refused hstart]
  · obtain ⟨-, -, rfl⟩ := Assembly.start_eq_ok_iff.1 hstart
    rfl

theorem keeps_onHeader (registry : Registry μ) (h : Header) :
    Call.Keeps limit (onHeader registry h) := by
  refine .bind (.update fun _ => rfl) fun _ => .bind (.tell _) fun _ =>
    .bind (.ofExcept _) fun kind => ?_
  cases kind with
  | complete => exact .bind (keeps_assemble (limit_prepare h)) fun _ => .pure _
  | slice => exact .bind .session fun _ => .bind (.ofExcept _) fun _ => .pure _
  | sliceHeader =>
      exact .bind (keeps_assemble (limit_start h)) fun _ => .bind (.update fun _ => rfl) fun _ =>
        .bind .session fun _ => .bind (.tellIf _ _) fun _ => .pure _
  | cancel => exact .bind (.tell _) fun _ => .bind (.update fun _ => rfl) fun _ => .fail _
  | versionVerification =>
      exact .bind (.failIf _ _) fun _ => .bind (keeps_assemble (limit_prepare h)) fun _ => .pure _

theorem keeps_onBody (registry : Registry μ) (h : Header) :
    Call.Keeps limit (onBody registry h) := by
  refine .bind (.ofExcept _) fun kind => ?_
  cases kind with
  | slice => exact .bind (.update fun _ => rfl) fun _ => .bind .session fun _ => .pure _
  | versionVerification =>
      refine .bind ?_ fun _ => .pure _
      exact .bind .session fun _ => .bind (.ofExcept _) fun _ =>
        .bind (.update fun _ => rfl) fun _ => .bind (.tellIf _ _) fun _ =>
          .bind (.tell _) fun _ => .update fun _ => rfl
  | complete | sliceHeader | cancel => exact .bind (.update fun _ => rfl) fun _ => .pure _

variable [Message μ]

theorem keeps_deliver (flags : Flags) (typeId : Int32) (sliced : Bool) :
    Call.Keeps limit (deliver (μ := μ) flags typeId sliced) := by
  refine (timeless_deliver flags typeId sliced).keeps fun r => ?_
  rw [effect_deliver]
  rfl

end Receiver

namespace StreamSession

section Receiving

/-- What is a session's own: nothing that is received changes it. -/
def own (s : StreamSession μ) : Registry μ × Config × UInt32 × Bool :=
  (s.registry, s.config, s.receiver.limit, s.cancelRequested)

section

variable {ν : Type} {view : StreamSession μ → ν}

theorem keeps_pull (h : ∀ s transport, view { s with transport } = view s) (n : Nat)
    (deadline : Option Nat) : Call.Keeps view (pull (μ := μ) n deadline) := by
  intro s
  cases htransport : s.session.transport with
  | none =>
      simp only [pull, connected, Call.run_bind, Call.session, htransport, Call.fail, Call.halt]
  | some transport =>
      rw [run_pull htransport]
      exact h _ _

theorem keeps_checkEnd (ended : FillEnd) : Call.Keeps view (checkEnd (μ := μ) ended) := by
  cases ended
  · exact .pure _
  · exact .fail _
  · exact .fail _
  · exact .halt _

theorem keeps_pullExactly (h : ∀ s transport, view { s with transport } = view s) (n : Nat)
    (deadline : Option Nat) : Call.Keeps view (pullExactly (μ := μ) n deadline) :=
  .bind (keeps_pull h _ _) fun _ => .bind (keeps_checkEnd _) fun _ => .pure _

/-- The reading of a header changes nothing but the transport. -/
theorem keeps_readHeader (h : ∀ s transport, view { s with transport } = view s) :
    Call.Keeps view (readHeader (μ := μ)) := by
  intro s
  rw [run_readHeader]
  split
  · rw [readHeaderBy_eq]
    exact Call.Keeps.bind (keeps_pullExactly h _ _)
      (fun _ => .bind (keeps_pullExactly h _ _) fun _ => .pure _) s
  · exact keeps_pullExactly h _ _ s

theorem receiver_of_readHeader {s t : Scene (StreamSession μ)} {ended : Except Halt (List UInt8)}
    (hread : readHeader.run s = (ended, t)) : t.session.receiver = s.session.receiver := by
  have hkeeps : Call.Keeps (fun s : StreamSession μ => s.receiver) readHeader :=
    keeps_readHeader fun _ _ => rfl
  exact hkeeps.of_run hread

theorem keeps_readBody (h : ∀ s transport, view { s with transport } = view s)
    (hfill : ∀ s range bytes, view { s with receiver := s.receiver.fill range bytes } = view s)
    (range : SliceRange) : Call.Keeps view (readBody (μ := μ) range) :=
  .bind (keeps_pull h _ _) fun _ => .bind (.update fun _ => hfill _ _ _) fun _ => keeps_checkEnd _

end

theorem keeps_onReceiver {α : Type} {act : Call (Receiver μ) α}
    (h : Call.Keeps Receiver.limit act) : Call.Keeps own (onReceiver act) := by
  intro s
  have hlimit := h ⟨s.session.receiver, s.now, s.log⟩
  simp only [onReceiver, Call.within, own, hlimit]

variable [Message μ]

theorem keeps_meet (flags : Flags) (demand : Demand) :
    Call.Keeps own (meet (μ := μ) flags demand) := by
  cases demand with
  | frame | body range => exact .pure _
  | delivery typeId sliced => exact .map (keeps_onReceiver (Receiver.keeps_deliver _ _ _))

theorem keeps_receiveFrame (flags : Flags) : Call.Keeps own (receiveFrame (μ := μ) flags) := by
  refine .bind (keeps_readHeader fun _ _ => rfl) fun _ => .bind (.ofExcept _) fun h =>
    .bind .session fun s => .bind (keeps_onReceiver (Receiver.keeps_onHeader _ _)) fun demand => ?_
  split
  · exact .bind (keeps_readBody (fun _ _ => rfl) (fun _ _ _ => rfl) _) fun _ =>
      .bind (keeps_onReceiver (Receiver.keeps_onBody _ _)) fun _ => keeps_meet _ _
  · exact keeps_meet _ _

theorem keeps_receiveMessage (flags : Flags) :
    Call.Keeps own (⟨receiveMessage flags⟩ : Call (StreamSession μ) μ) := by
  intro s
  dsimp only
  fun_induction receiveMessage flags s with
  | case1 s t hframe ih => exact ih.trans ((keeps_receiveFrame flags).of_run hframe)
  | case2 s m t hframe => exact (keeps_receiveFrame flags).of_run hframe
  | case3 s halt t hframe => exact (keeps_receiveFrame flags).of_run hframe

theorem keeps_receive (flags : Flags) : Call.Keeps own (receive (μ := μ) flags) :=
  .bind (.tellIf _ _) fun _ => .bind (.tellIf _ _) fun _ =>
    .onFailure (keeps_receiveMessage flags) fun _ => .update fun _ => rfl

end Receiving

end StreamSession

end MessageChannel
