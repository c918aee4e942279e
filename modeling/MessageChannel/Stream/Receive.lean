import MessageChannel.Stream.Session

namespace MessageChannel.StreamSession

variable {μ : Type}

def pull (n : Nat) (deadline : Option Nat) : Call (StreamSession μ) Filled := do
  let t ← connected
  let s ← Call.scene
  let filled := t.inbound.fill s.session.config.retryBackoff deadline s.now n
  Call.settle { s.session with transport := some { t with inbound := filled.inbound } } filled.now
  return filled

def checkEnd : FillEnd → Call (StreamSession μ) Unit
  | .full => return
  | .failed error => Call.fail error
  | .expired => Call.fail .timeout
  | .stalled => Call.halt .stalled

def onReceiver {α : Type} (act : Call (Receiver μ) α) : Call (StreamSession μ) α :=
  act.within (fun s => s.receiver) (fun r s => { s with receiver := r })

/-- How long to wait for the first byte of a header: in the midst of a message, for ever. -/
def idleLimit (s : StreamSession μ) : Option Nat :=
  if s.receiver.assembly.isAssembling then none else s.config.recvTimeout

def readHeaderBy (deadline : Nat) : Call (StreamSession μ) (List UInt8) := do
  let first ← pull 1 (some deadline)
  checkEnd first.outcome
  let rest ← pull (headerSize - 1) none
  checkEnd rest.outcome
  return first.bytes ++ rest.bytes

def readHeader : Call (StreamSession μ) (List UInt8) := do
  let s ← Call.scene
  match s.session.idleLimit with
  | some limit => readHeaderBy (s.now + limit)
  | none =>
      let filled ← pull headerSize none
      checkEnd filled.outcome
      return filled.bytes

def readBody (range : SliceRange) : Call (StreamSession μ) Unit := do
  let filled ← pull range.length none
  Call.update fun s => { s with receiver := s.receiver.fill range filled.bytes }
  checkEnd filled.outcome

/-- Goes by what a frame asks for: the message, if the frame completes one. -/
def meet [Message μ] (flags : Flags) (demand : Demand) : Call (StreamSession μ) (Option μ) := do
  match demand with
  | .delivery typeId sliced => some <$> onReceiver (Receiver.deliver flags typeId sliced)
  | _ => return none

def receiveFrame [Message μ] (flags : Flags) : Call (StreamSession μ) (Option μ) := do
  let h ← Call.ofExcept (Header.parse (← readHeader))
  let registry := (← Call.session).registry
  match ← onReceiver (Receiver.onHeader registry h) with
  | .body range =>
      readBody range
      meet flags (← onReceiver (Receiver.onBody registry h))
  | demand => meet flags demand

theorem shrinks_onReceiver {α : Type} (act : Call (Receiver μ) α) :
    Call.Shrinks unread (onReceiver act) := fun _ => Nat.le_refl _

theorem unread_pull {n : Nat} {deadline : Option Nat} {s t : Scene (StreamSession μ)}
    {filled : Filled} (h : (pull n deadline).run s = (.ok filled, t)) :
    t.session.unread + filled.bytes.length = s.session.unread ∧
      (filled.outcome = .full → filled.bytes.length = n) := by
  cases htransport : s.session.transport with
  | none =>
      simp [pull, connected, Call.run_bind, Call.session, htransport, Call.fail, Call.halt] at h
  | some transport =>
      simp only [pull, connected, Call.run_bind, Call.session, htransport, Call.scene, Call.settle,
        Call.run_pure, Prod.mk.injEq, Except.ok.injEq] at h
      obtain ⟨rfl, rfl⟩ := h
      refine ⟨?_, Inbound.length_bytes_fill⟩
      simpa [unread, htransport] using Inbound.unread_fill ..

theorem shrinks_pull (n : Nat) (deadline : Option Nat) :
    Call.Shrinks unread (pull (μ := μ) n deadline) := by
  intro s
  cases htransport : s.session.transport with
  | none => simp [pull, connected, Call.run_bind, Call.session, htransport, Call.fail, Call.halt]
  | some transport =>
      obtain ⟨filled, t, hpull⟩ : ∃ filled t, (pull n deadline).run s = (.ok filled, t) := by
        simp only [pull, connected, Call.run_bind, Call.session, htransport, Call.scene, Call.settle,
          Call.run_pure]
        exact ⟨_, _, rfl⟩
      have := (unread_pull hpull).1
      rw [hpull]
      simp only
      omega

theorem shrinks_checkEnd (ended : FillEnd) : Call.Shrinks unread (checkEnd (μ := μ) ended) := by
  cases ended
  · exact .pure _
  · exact .fail _
  · exact .fail _
  · exact .halt _

theorem run_checkEnd_eq_ok {ended : FillEnd} {s t : Scene (StreamSession μ)} :
    (checkEnd ended).run s = (.ok (), t) ↔ ended = .full ∧ s = t := by
  cases ended <;> simp [checkEnd, Call.run_pure, Call.fail, Call.halt]

theorem shrinks_readBody (range : SliceRange) : Call.Shrinks unread (readBody (μ := μ) range) :=
  .bind (shrinks_pull _ _) fun _ => .bind (.update fun _ => Nat.le_refl _) fun _ =>
    shrinks_checkEnd _

theorem unread_pull_checkEnd {α : Type} {n : Nat} {deadline : Option Nat}
    {next : Filled → Call (StreamSession μ) α} {s t : Scene (StreamSession μ)} {a : α}
    (h : (do let filled ← pull n deadline; checkEnd filled.outcome; next filled).run s =
      (.ok a, t)) :
    ∃ filled u, (next filled).run u = (.ok a, t) ∧ filled.bytes.length = n ∧
      u.session.unread + n = s.session.unread := by
  obtain ⟨filled, u, hpull, h⟩ := Call.run_bind_eq_ok.1 h
  obtain ⟨⟨⟩, u', hend, h⟩ := Call.run_bind_eq_ok.1 h
  obtain ⟨hfull, rfl⟩ := run_checkEnd_eq_ok.1 hend
  obtain ⟨hread, hlength⟩ := unread_pull hpull
  exact ⟨filled, u, h, hlength hfull, by rw [← hlength hfull, hread]⟩

theorem unread_readHeaderBy {deadline : Nat} {s t : Scene (StreamSession μ)} {bytes : List UInt8}
    (h : (readHeaderBy deadline).run s = (.ok bytes, t)) :
    t.session.unread + headerSize = s.session.unread ∧ bytes.length = headerSize := by
  obtain ⟨first, u, h, hfirst, hread⟩ := unread_pull_checkEnd h
  obtain ⟨rest, u', h, hrest, hread'⟩ := unread_pull_checkEnd h
  obtain ⟨rfl, rfl⟩ : first.bytes ++ rest.bytes = bytes ∧ u' = t := by simpa [Call.run_pure] using h
  simp only [List.length_append, headerSize] at *
  omega

theorem unread_readHeader {s t : Scene (StreamSession μ)} {bytes : List UInt8}
    (h : readHeader.run s = (.ok bytes, t)) :
    t.session.unread + headerSize = s.session.unread ∧ bytes.length = headerSize := by
  obtain ⟨s', u, hscene, h⟩ := Call.run_bind_eq_ok.1 h
  obtain ⟨rfl, rfl⟩ : s = s' ∧ s = u := by simpa [Call.scene] using hscene
  cases hlimit : s.session.idleLimit with
  | some limit =>
      rw [hlimit] at h
      exact unread_readHeaderBy h
  | none =>
      rw [hlimit] at h
      obtain ⟨filled, u, h, hlength, hread⟩ := unread_pull_checkEnd h
      obtain ⟨rfl, rfl⟩ : filled.bytes = bytes ∧ u = t := by simpa [Call.run_pure] using h
      exact ⟨hread, hlength⟩

variable [Message μ]

theorem shrinks_meet (flags : Flags) (demand : Demand) :
    Call.Shrinks unread (meet (μ := μ) flags demand) := by
  cases demand
  · exact .pure _
  · exact .pure _
  · exact .map (shrinks_onReceiver _)

/-- A frame takes its header from the transport, if nothing else. -/
theorem unread_receiveFrame {flags : Flags} {s t : Scene (StreamSession μ)} {m : Option μ}
    (h : (receiveFrame flags).run s = (.ok m, t)) :
    t.session.unread + headerSize ≤ s.session.unread := by
  obtain ⟨bytes, u, hheader, h⟩ := Call.run_bind_eq_ok.1 h
  obtain ⟨hread, -⟩ := unread_readHeader hheader
  suffices hrest : ∀ bytes, Call.Shrinks unread (do
      let h ← Call.ofExcept (Header.parse bytes)
      let registry := (← Call.session).registry
      match ← onReceiver (Receiver.onHeader registry h) with
      | .body range =>
          readBody range
          meet flags (← onReceiver (Receiver.onBody registry h))
      | demand => meet (μ := μ) flags demand) by
    have := hrest bytes u
    rw [h] at this
    simp only at this
    omega
  intro bytes
  refine .bind (.ofExcept _) fun _ => .bind .session fun _ =>
    .bind (shrinks_onReceiver _) fun _ => ?_
  split
  · exact .bind (shrinks_readBody _) fun _ => .bind (shrinks_onReceiver _) fun _ => shrinks_meet _ _
  · exact shrinks_meet _ _

def receiveMessage (flags : Flags) (s : Scene (StreamSession μ)) :
    Except Halt μ × Scene (StreamSession μ) :=
  match _h : (receiveFrame flags).run s with
  | (.ok none, t) => receiveMessage flags t
  | (.ok (some m), t) => (.ok m, t)
  | (.error halt, t) => (.error halt, t)
termination_by s.session.unread
decreasing_by
  have := unread_receiveFrame (by assumption)
  simp only [headerSize] at this
  omega

def receive (flags : Flags) : Call (StreamSession μ) μ := do
  Call.tellIf flags.sliced (.flagIgnored "SLICE_DATA")
  Call.tellIf flags.versioned (.flagIgnored "VERSION_VERIFICATION")
  Call.onFailure ⟨receiveMessage flags⟩ fun _ => Call.update reset

end MessageChannel.StreamSession
