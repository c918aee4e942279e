import MessageChannel.Proofs.SendWire

namespace MessageChannel.StreamSession

variable {μ α β : Type}

/-- What becomes of a session while a message is sent, and how the sending stands: frames are
written one after the other, requests to stop are dropped, and one that is seen ends it. So does a
frame that is not written. -/
inductive Sending (s : StreamSession μ) : Except Halt Unit → StreamSession μ → Prop
  | start : Sending s (.ok ()) s
  | wrote {f ended} {t u : Scene (StreamSession μ)} (h : Sending s (.ok ()) t.session)
      (hrun : (sendFrame f).run t = (ended, u)) : Sending s ended u.session
  | dropped {t} (h : Sending s (.ok ()) t) : Sending s (.ok ()) { t with cancelRequested := false }
  | stopped {t} (h : Sending s (.ok ()) t) (hrequested : t.cancelRequested = true) :
      Sending s (.error (.failed .canceled)) { t with cancelRequested := false }

/-- A call that goes on with the sending of a message. -/
def Performs (act : Call (StreamSession μ) α) : Prop :=
  ∀ ⦃origin : StreamSession μ⦄ ⦃s t ended⦄, Sending origin (.ok ()) s.session →
    act.run s = (ended, t) → Sending origin (ended.map fun _ => ()) t.session

namespace Performs

theorem pure (a : α) : Performs (Pure.pure a : Call (StreamSession μ) α) := by
  rintro origin s t ended hs ⟨rfl, rfl⟩
  exact hs

theorem session : Performs (Call.session : Call (StreamSession μ) _) := by
  rintro origin s t ended hs ⟨rfl, rfl⟩
  exact hs

theorem tell (event : Event) : Performs (Call.tell event : Call (StreamSession μ) Unit) := by
  rintro origin s t ended hs ⟨rfl, rfl⟩
  exact hs

theorem bind {act : Call (StreamSession μ) α} {next : α → Call (StreamSession μ) β}
    (hact : Performs act) (hnext : ∀ a, Performs (next a)) : Performs (act >>= next) := by
  intro origin s t ended hs hrun
  rw [Call.run_bind] at hrun
  cases hfirst : act.run s with
  | mk first u =>
      rw [hfirst] at hrun
      have hu := hact hs hfirst
      cases first with
      | ok a => exact hnext a hu hrun
      | error halt =>
          obtain ⟨rfl, rfl⟩ := Prod.mk.inj hrun
          exact hu

theorem sendFrame (f : Frame) : Performs (μ := μ) (sendFrame f) := by
  intro origin s t ended hs hrun
  have ht := Sending.wrote hs hrun
  cases ended <;> exact ht

end Performs

/-- No request to stop is left over behind the last frame. -/
theorem run_dropLateCancel (typeId : Int32) (s : Scene (StreamSession μ)) :
    ∃ log, (dropLateCancel typeId).run s =
      (.ok (), ⟨{ s.session with cancelRequested := false }, s.now, log⟩) := by
  rw [dropLateCancel, Call.run_bind, run_takeCancel]
  exact Call.run_tellIf _ _ _

theorem performs_dropLateCancel (typeId : Int32) : Performs (μ := μ) (dropLateCancel typeId) := by
  intro origin s t ended hs hrun
  obtain ⟨log, hdrop⟩ := run_dropLateCancel typeId s
  rw [hdrop] at hrun
  obtain ⟨rfl, rfl⟩ := Prod.mk.inj hrun
  exact .dropped hs

theorem performs_checkpoint (index count : Nat) : Performs (μ := μ) (checkpoint index count) := by
  by_cases hindex : index = 0
  · rw [checkpoint, if_neg (not_not_intro hindex)]
    exact .pure _
  · rw [checkpoint, if_pos hindex]
    intro origin s t ended hs hrun
    rw [Call.run_bind, run_takeCancel] at hrun
    dsimp only at hrun
    cases hrequested : s.session.cancelRequested with
    | true =>
        rw [hrequested, if_pos rfl] at hrun
        obtain ⟨rfl, rfl⟩ := Prod.mk.inj hrun
        exact .stopped hs hrequested
    | false =>
        rw [hrequested, if_neg Bool.false_ne_true] at hrun
        obtain ⟨rfl, rfl⟩ := Prod.mk.inj hrun
        exact .dropped hs

theorem performs_sendSlices (payload : List UInt8) (count : Nat) (ranges : List SliceRange)
    (index : Nat) : Performs (μ := μ) (sendSlices payload count ranges index) := by
  induction ranges generalizing index with
  | nil => exact .pure _
  | cons range ranges ih =>
      rw [sendSlices_cons]
      exact .bind (performs_checkpoint index count) fun _ =>
        .bind (.sendFrame _) fun _ => ih (index + 1)

theorem performs_sendSliced (typeId : Int32) (payload : List UInt8) :
    Performs (μ := μ) (sendSliced typeId payload) :=
  .bind (.sendFrame _) fun _ => .bind (.tell _) fun _ => .bind .session fun _ =>
    .bind (performs_sendSlices ..) fun _ => .bind (.tell _) fun _ => performs_dropLateCancel _

theorem performs_sendWhole (typeId : Int32) (payload : List UInt8) :
    Performs (μ := μ) (sendWhole typeId payload) :=
  .bind (.sendFrame _) fun _ => .bind (.tell _) fun _ => performs_dropLateCancel _

theorem performs_sendVersion : Performs (μ := μ) sendVersion :=
  .bind .session fun _ => .bind (.sendFrame _) fun _ => .tell _

/-- A call that succeeds leaves no request to stop behind. -/
def Quiets (act : Call (StreamSession μ) α) : Prop :=
  ∀ ⦃s t a⦄, act.run s = (.ok a, t) → t.session.cancelRequested = false

theorem Quiets.behind {act : Call (StreamSession μ) α} {next : α → Call (StreamSession μ) β}
    (h : ∀ a, Quiets (next a)) : Quiets (act >>= next) := by
  intro s t b hrun
  obtain ⟨a, u, -, hrun⟩ := Call.run_bind_eq_ok.1 hrun
  exact h a hrun

theorem quiets_dropLateCancel (typeId : Int32) : Quiets (μ := μ) (dropLateCancel typeId) := by
  intro s t a hrun
  obtain ⟨log, hdrop⟩ := run_dropLateCancel typeId s
  rw [hdrop] at hrun
  obtain ⟨-, rfl⟩ := Prod.mk.inj hrun
  rfl

theorem quiets_sendWhole (typeId : Int32) (payload : List UInt8) :
    Quiets (μ := μ) (sendWhole typeId payload) :=
  .behind fun _ => .behind fun _ => quiets_dropLateCancel _

theorem quiets_sendSliced (typeId : Int32) (payload : List UInt8) :
    Quiets (μ := μ) (sendSliced typeId payload) :=
  .behind fun _ => .behind fun _ => .behind fun _ => .behind fun _ => .behind fun _ =>
    quiets_dropLateCancel _

/-- A frame is written, or there is an error, but no request ends the writing. -/
theorem run_sendFrame_cases (f : Frame) (s : Scene (StreamSession μ)) :
    ∃ t, (sendFrame f).run s = (.ok (), t) ∨
      ∃ error, error ≠ .canceled ∧ (sendFrame f).run s = (.error (.failed error), t) := by
  cases htransport : s.session.transport with
  | none => exact ⟨s, .inr ⟨closedError, nofun, run_sendFrame_closed htransport f⟩⟩
  | some transport =>
      obtain ⟨-, -, -, -, -, hne⟩ :=
        Outbound.deliver_accepts s.session.config.retryBackoff f.pieces transport.outbound s.now
      rw [run_sendFrame htransport]
      cases houtcome :
        (transport.outbound.deliver s.session.config.retryBackoff f.pieces s.now).outcome with
      | ok _ => exact ⟨_, .inl (by simp only [houtcome]; rfl)⟩
      | error error =>
          exact ⟨_, .inr ⟨error, fun hcanceled => hne (hcanceled ▸ houtcome),
            by simp only [houtcome]; rfl⟩⟩

theorem spares_sendFrame (f : Frame) : Call.Spares .canceled (sendFrame (μ := μ) f) := by
  intro s hcanceled
  obtain ⟨t, hrun | ⟨error, hne, hrun⟩⟩ := run_sendFrame_cases f s
  · rw [hrun] at hcanceled
    cases hcanceled
  · rw [hrun] at hcanceled
    exact hne (Halt.failed.inj (Except.error.inj hcanceled))

theorem spares_sendVersion : Call.Spares .canceled (sendVersion (μ := μ)) :=
  .bind .session fun _ => .bind (spares_sendFrame _) fun _ => .tell _

theorem spares_sendWhole (typeId : Int32) (payload : List UInt8) :
    Call.Spares .canceled (sendWhole (μ := μ) typeId payload) :=
  .bind (spares_sendFrame _) fun _ => .bind (.tell _) fun _ =>
    .bind (.bind .session fun _ => .bind (.update _) fun _ => .pure _) fun _ => .tellIf _ _

/-- A frame with the news of a stop is written as far as it goes. -/
theorem run_sendCancel_frame (typeId : Int32) (s : Scene (StreamSession μ)) :
    ∃ ended t log, (sendFrame (cancelFrame typeId)).run s = (ended, t) ∧
      (sendCancel typeId).run s = (.ok (), { t with log }) := by
  rw [sendCancel, Call.run_bind, Call.errorOf?]
  obtain ⟨t, hrun | ⟨error, -, hrun⟩⟩ := run_sendFrame_cases (cancelFrame typeId) s
  · have hrun' : (sendFrame ⟨.cancel typeId, []⟩).run s = (.ok (), t) := hrun
    exact ⟨_, t, _, hrun, by simp only [hrun']; rfl⟩
  · have hrun' : (sendFrame ⟨.cancel typeId, []⟩).run s = (.error (.failed error), t) := hrun
    exact ⟨_, t, _, hrun, by simp only [hrun']; rfl⟩

namespace Sending

variable {s t : StreamSession μ} {ended : Except Halt Unit}

theorem speaks (h : Sending s ended t) (hconnected : s.transport.isSome) :
    ∃ bytes, s.Says bytes t := by
  induction h with
  | start => exact ⟨[], .refl hconnected⟩
  | @wrote f ended t u h hrun ih =>
      obtain ⟨front, hspoke⟩ := ih
      have hemits := emits_sendFrame (s := t) hspoke.isSome f
      rw [emits_iff_of_run hrun] at hemits
      cases hemits with
      | done hspoke' | broken hrough herror hfront hspoke' => exact ⟨_, hspoke.trans hspoke'⟩
      | stopped hk hstop => exact hstop.elim
  | dropped h ih | stopped h hrequested ih =>
      obtain ⟨front, hspoke⟩ := ih
      exact ⟨front, hspoke.withRequest false⟩

/-- A sending that a request ends has taken the request off. -/
theorem quiet_of_canceled (h : Sending s (.error (.failed .canceled)) t) :
    t.cancelRequested = false := by
  cases h with
  | wrote h hrun => exact absurd (congrArg Prod.fst hrun) (spares_sendFrame _ _)
  | stopped h hrequested => rfl

/-- Any other end is that of a frame. -/
theorem of_error {halt : Halt} (h : Sending s (.error halt) t) (hne : halt ≠ .failed .canceled) :
    ∃ (f : Frame) (u v : Scene (StreamSession μ)), Sending s (.ok ()) u.session ∧
      (sendFrame f).run u = (.error halt, v) ∧ v.session = t := by
  cases h with
  | wrote h hrun => exact ⟨_, _, _, h, hrun, rfl⟩
  | stopped h hrequested => exact absurd rfl hne

end Sending

/-- How the sending of a message is over, and with what session. Behind one that a request has
ended comes a frame that says so. -/
inductive Concluded (s : StreamSession μ) (typeId : Int32) (sliced : Bool) :
    Except Halt Unit → StreamSession μ → Prop
  | sent {t} (h : Sending s (.ok ()) t) (hquiet : t.cancelRequested = false) :
      Concluded s typeId sliced (.ok ()) t
  | failed {halt t} (h : Sending s (.error halt) t) (hne : halt ≠ .failed .canceled) :
      Concluded s typeId sliced (.error halt) t
  | canceled {ended} {u v : Scene (StreamSession μ)} (hsliced : sliced = true)
      (h : Sending s (.error (.failed .canceled)) u.session)
      (hrun : (sendFrame (cancelFrame typeId)).run u = (ended, v)) :
      Concluded s typeId sliced (.error (.failed .canceled)) v.session

variable {payload : List UInt8} {s t : Scene (StreamSession μ)} {ended : Except Halt Unit}

/-- The peer is told of a stop, and of nothing else. -/
theorem run_sliced_of_other {u : Scene (StreamSession μ)} {typeId : Int32}
    (hbody : (sendSliced typeId payload).run s = (ended, u))
    (hne : ended ≠ .error (.failed .canceled)) :
    ((sendSliced typeId payload).onFailure fun error => do
      if error.isCanceled then sendCancel typeId).run s = (ended, u) := by
  simp only [Call.onFailure, hbody]
  cases ended with
  | ok _ => rfl
  | error halt =>
      cases halt with
      | failed error =>
          have hother : error.isCanceled = false := by
            cases error <;> simp_all [ChannelError.isCanceled]
          simp only [hother]
          rfl
      | stalled | crashed => rfl

theorem run_sliced_of_canceled {u : Scene (StreamSession μ)} {typeId : Int32}
    (hbody : (sendSliced typeId payload).run s = (.error (.failed .canceled), u)) :
    ∃ told v log, (sendFrame (cancelFrame typeId)).run u = (told, v) ∧
      ((sendSliced typeId payload).onFailure fun error => do
        if error.isCanceled then sendCancel typeId).run s =
          (.error (.failed .canceled), { v with log }) := by
  obtain ⟨told, v, log, hframe, hcancel⟩ := run_sendCancel_frame typeId u
  refine ⟨told, v, log, hframe, ?_⟩
  simp only [Call.onFailure, hbody, ChannelError.isCanceled, if_true, hcancel]

variable [Message μ] {m : μ} {flags : Flags} {origin : StreamSession μ}

theorem transmitSliced_concluded (hs : Sending origin (.ok ()) s.session)
    (hrun : ((sendSliced (Message.typeId m) payload).onFailure fun error => do
      if error.isCanceled then sendCancel (Message.typeId m)).run s = (ended, t)) :
    Concluded origin (Message.typeId m) true ended t.session := by
  cases hbody : (sendSliced (Message.typeId m) payload).run s with
  | mk ended' u =>
      have hu := performs_sendSliced _ _ hs hbody
      by_cases hcanceled : ended' = .error (.failed .canceled)
      · subst hcanceled
        obtain ⟨told, v, log, hframe, htold⟩ := run_sliced_of_canceled hbody
        obtain ⟨rfl, rfl⟩ := Prod.mk.inj (htold.symm.trans hrun)
        have hstopped : Concluded origin (Message.typeId m) true _ v.session :=
          .canceled rfl hu hframe
        exact hstopped
      · obtain ⟨rfl, rfl⟩ := Prod.mk.inj ((run_sliced_of_other hbody hcanceled).symm.trans hrun)
        cases ended' with
        | ok _ => exact .sent hu (quiets_sendSliced _ _ hbody)
        | error halt => exact .failed hu fun hhalt => hcanceled (congrArg _ hhalt)

theorem transmitBody_concluded (hs : Sending origin (.ok ()) s.session)
    (hrun : (transmitBody m flags payload).run s = (ended, t)) :
    Concluded origin (Message.typeId m) flags.sliced ended t.session := by
  rw [transmitBody] at hrun
  cases hsliced : flags.sliced with
  | true =>
      rw [if_pos hsliced] at hrun
      exact transmitSliced_concluded hs hrun
  | false =>
      rw [if_neg (by simp [hsliced])] at hrun
      have ht := performs_sendWhole _ _ hs hrun
      cases ended with
      | ok _ => exact .sent ht (quiets_sendWhole _ _ hrun)
      | error halt =>
          refine .failed ht fun hcanceled => ?_
          exact absurd (hcanceled ▸ congrArg Prod.fst hrun) (spares_sendWhole _ _ _)

theorem transmit_concluded (hrun : (transmit m flags payload).run s = (ended, t)) :
    Concluded s.session (Message.typeId m) flags.sliced ended t.session := by
  rw [transmit_eq] at hrun
  by_cases hversioned : flags.versioned = true
  · rw [if_pos hversioned, Call.run_bind] at hrun
    cases hversion : (sendVersion (μ := μ)).run s with
    | mk ended' u =>
        have hu := performs_sendVersion .start hversion
        rw [hversion] at hrun
        cases ended' with
        | ok _ => exact transmitBody_concluded hu hrun
        | error halt =>
            obtain ⟨rfl, rfl⟩ := Prod.mk.inj hrun
            refine .failed hu fun hcanceled => ?_
            exact absurd (hcanceled ▸ congrArg Prod.fst hversion) (spares_sendVersion _)
  · rw [if_neg hversioned] at hrun
    exact transmitBody_concluded .start hrun

end MessageChannel.StreamSession
