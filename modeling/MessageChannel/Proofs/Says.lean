import MessageChannel.Proofs.CallEffect
import MessageChannel.Proofs.Delivery
import MessageChannel.Proofs.FrameCodec
import MessageChannel.Stream.Send

namespace MessageChannel.StreamSession

variable {μ : Type}

def written (s : StreamSession μ) : List UInt8 :=
  (s.transport.map fun t => t.outbound.written.toList).getD []

/-- One session becomes the other by writing these bytes; only a request to stop may come or go
besides. -/
def Says (s : StreamSession μ) (bytes : List UInt8) (t : StreamSession μ) : Prop :=
  ∃ transport outbound, s.transport = some transport ∧ transport.outbound.Accepts bytes outbound ∧
    t = { s with
      transport := some { transport with outbound }
      cancelRequested := t.cancelRequested }

/-- No write fails for good. -/
def Smooth (s : StreamSession μ) : Prop :=
  ∃ transport, s.transport = some transport ∧ transport.outbound.Unfailing

/-- A request to stop is there, or it comes before so many bytes are written. -/
def Pending (count : Nat) (s : StreamSession μ) : Prop :=
  s.cancelRequested = true ∨ ∃ transport, s.transport = some transport ∧
    Asks count transport.outbound.script ∧ transport.outbound.written.size < count

namespace Says

variable {s t u : StreamSession μ} {front back : List UInt8}

theorem written (h : s.Says front t) : t.written = s.written ++ front := by
  obtain ⟨transport, outbound, hs, haccepts, ht⟩ := h
  rw [ht]
  simp [StreamSession.written, hs, haccepts.written]

theorem registry (h : s.Says front t) : t.registry = s.registry := by
  obtain ⟨transport, outbound, hs, haccepts, ht⟩ := h
  rw [ht]

theorem config (h : s.Says front t) : t.config = s.config := by
  obtain ⟨transport, outbound, hs, haccepts, ht⟩ := h
  rw [ht]

theorem isSome (h : s.Says front t) : t.transport.isSome := by
  obtain ⟨transport, outbound, hs, haccepts, ht⟩ := h
  rw [ht]
  rfl

theorem smooth (h : s.Says front t) (hs : s.Smooth) : t.Smooth := by
  obtain ⟨transport, outbound, htransport, haccepts, ht⟩ := h
  obtain ⟨transport', htransport', hunfailing⟩ := hs
  obtain rfl := Option.some.inj (htransport.symm.trans htransport')
  rw [ht]
  exact ⟨_, rfl, haccepts.unfailing hunfailing⟩

theorem refl (h : s.transport.isSome) : s.Says [] s := by
  obtain ⟨transport, htransport⟩ := Option.isSome_iff_exists.1 h
  exact ⟨transport, transport.outbound, htransport, .refl _, by rw [← htransport]⟩

theorem trans (hst : s.Says front t) (htu : t.Says back u) : s.Says (front ++ back) u := by
  obtain ⟨transport, outbound, hs, haccepts, ht⟩ := hst
  obtain ⟨transport', outbound', ht', haccepts', hu⟩ := htu
  rw [ht] at ht' hu
  obtain rfl := Option.some.inj ht'
  exact ⟨transport, outbound', hs, haccepts.trans haccepts', hu⟩

theorem withRequest (h : s.Says front t) (requested : Bool) :
    s.Says front { t with cancelRequested := requested } := by
  obtain ⟨transport, outbound, hs, haccepts, ht⟩ := h
  refine ⟨transport, outbound, hs, haccepts, ?_⟩
  rw [ht]

end Says

theorem Smooth.isSome {s : StreamSession μ} (h : s.Smooth) : s.transport.isSome := by
  obtain ⟨transport, htransport, -⟩ := h
  rw [htransport]
  rfl

theorem Pending.requested {count : Nat} {s : StreamSession μ} (h : Pending count s)
    (hcount : count ≤ s.written.length) : s.cancelRequested = true := by
  rcases h with hrequested | ⟨transport, htransport, -, hsize⟩
  · exact hrequested
  · simp only [written, htransport, Option.map_some, Option.getD_some,
      Array.length_toList] at hcount
    omega

theorem run_sendFrame {transport : ByteStream} {s : Scene (StreamSession μ)}
    (htransport : s.session.transport = some transport) (f : Frame) :
    (sendFrame f).run s =
      let d := transport.outbound.deliver s.session.config.retryBackoff f.pieces s.now
      (match d.outcome with
        | .ok () => .ok ()
        | .error error => .error (.failed error),
        ⟨{ s.session with
          transport := some { transport with outbound := d.outbound }
          cancelRequested := s.session.cancelRequested || d.canceled }, d.now, s.log⟩) := by
  simp only [sendFrame, connected, Call.run_bind, Call.session, htransport, Call.scene, Call.settle,
    Call.run_pure]
  cases (transport.outbound.deliver s.session.config.retryBackoff f.pieces s.now).outcome <;> rfl

theorem run_sendFrame_closed {s : Scene (StreamSession μ)} (hclosed : s.session.transport = none)
    (f : Frame) : (sendFrame f).run s = (.error (.failed closedError), s) := by
  simp only [sendFrame, connected, Call.run_bind, Call.session, hclosed, Call.fail, Call.halt]

theorem run_takeCancel (s : Scene (StreamSession μ)) :
    takeCancel.run s = (.ok s.session.cancelRequested,
      { s with session := { s.session with cancelRequested := false } }) := rfl

end MessageChannel.StreamSession
