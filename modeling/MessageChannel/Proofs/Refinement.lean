import MessageChannel.Proofs.DatagramAnswers
import MessageChannel.Proofs.Disguise

namespace MessageChannel

variable {μ : Type}

namespace Call

variable {σ τ α β : Type}

/-- The second call goes as the first does, unless the first breaks down. -/
def Refines (act act' : Call σ α) : Prop :=
  ∀ s, (act.run s).1 = .error .crashed ∨ act'.run s = act.run s

namespace Refines

theorem refl (act : Call σ α) : Refines act act := fun _ => .inr rfl

theorem of_run {act act' : Call σ α} (h : Refines act act') {s t : Scene σ} {ended : Except Halt α}
    (hrun : act.run s = (ended, t)) : ended = .error .crashed ∨ act'.run s = (ended, t) := by
  have hs := h s
  rwa [hrun] at hs

theorem ofHalting {ended ended' : Except Halt α} (h : ended = .error .crashed ∨ ended' = ended) :
    Refines (Call.ofHalting ended : Call σ α) (Call.ofHalting ended') := by
  intro s
  rcases h with rfl | rfl
  · exact .inl rfl
  · exact .inr rfl

theorem bind {act act' : Call σ α} {next next' : α → Call σ β} (hact : Refines act act')
    (hnext : ∀ a, Refines (next a) (next' a)) : Refines (act >>= next) (act' >>= next') := by
  intro s
  rw [run_bind, run_bind]
  rcases hact s with hcrash | hsame
  · cases hrun : act.run s with
    | mk ended t =>
        rw [hrun] at hcrash
        subst hcrash
        exact .inl rfl
  · rw [hsame]
    cases act.run s with
    | mk ended t =>
        cases ended with
        | ok a => exact hnext a t
        | error halt => exact .inr rfl

theorem map {act act' : Call σ α} {f : α → β} (h : Refines act act') :
    Refines (f <$> act) (f <$> act') := by
  rw [map_eq_pure_bind, map_eq_pure_bind]
  exact h.bind fun _ => refl _

theorem within {act act' : Call τ α} (h : Refines act act') (part : σ → τ) (put : τ → σ → σ) :
    Refines (act.within part put) (act'.within part put) := by
  intro s
  rcases h ⟨part s.session, s.now, s.log⟩ with hcrash | hsame
  · exact .inl hcrash
  · refine .inr ?_
    simp only [Call.within, hsame]

theorem onFailure {act act' : Call σ α} (h : Refines act act')
    (more : ChannelError → Call σ Unit) :
    Refines (act.onFailure more) (act'.onFailure more) := by
  intro s
  rcases h s with hcrash | hsame
  · refine .inl ?_
    simp only [Call.onFailure]
    cases hrun : act.run s with
    | mk ended t =>
        rw [hrun] at hcrash
        subst hcrash
        rfl
  · refine .inr ?_
    simp only [Call.onFailure, hsame]

end Refines

/-- Calls that do not break down go the same way where their work is done, if that refines the work
in place. -/
theorem run_offloaded {call : Flags → Call σ α} {s : Scene σ}
    (hrefines : ∀ (flags : Flags) (inWorker : Bool),
      Refines (call { flags with inWorker := false }) (call { flags with inWorker }))
    (hs : ∀ flags, ((call flags).run s).1 ≠ .error .crashed) (flags : Flags) (inWorker : Bool) :
    (call { flags with inWorker }).run s = (call flags).run s := by
  have hsame (inWorker : Bool) :
      (call { flags with inWorker }).run s = (call { flags with inWorker := false }).run s :=
    (hrefines flags inWorker s).resolve_left (hs _)
  exact (hsame inWorker).trans (hsame flags.inWorker).symm

end Call

variable [Message μ]

namespace Worker

variable {α : Type}

/-- Only a breakdown tells where a job ran. -/
theorem settle_refines (inWorker : Bool) (ended : Except BodyFailure α) :
    settle false ended = .error .crashed ∨ settle inWorker ended = settle false ended := by
  cases ended with
  | ok a => exact .inr rfl
  | error failure =>
      cases failure with
      | refused error => exact .inr rfl
      | crashed => exact .inl rfl

theorem decode_refines (inWorker : Bool) (m : μ) (payload : List UInt8) :
    decode false m payload = .error .crashed ∨
      decode inWorker m payload = decode false m payload := by
  rw [decode_eq, decode_eq]
  exact settle_refines _ _

end Worker

namespace Receiver

theorem deliver_refines (flags : Flags) (inWorker : Bool) (typeId : Int32) (sliced : Bool) :
    Call.Refines (deliver (μ := μ) { flags with inWorker := false } typeId sliced)
      (deliver { flags with inWorker } typeId sliced) := by
  rw [deliver_eq, deliver_eq]
  refine .bind (.refl _) fun r => .bind (.refl _) fun _ => ?_
  cases r.message with
  | some m => exact .ofHalting (Worker.decode_refines _ _ _)
  | none => exact .refl _

end Receiver

namespace StreamSession

variable (flags : Flags) (inWorker : Bool)

theorem meet_refines (demand : Demand) :
    Call.Refines (meet (μ := μ) { flags with inWorker := false } demand)
      (meet { flags with inWorker } demand) := by
  cases demand with
  | frame | body range => exact .refl _
  | delivery typeId sliced =>
      exact .map (.within (Receiver.deliver_refines flags inWorker typeId sliced) _ _)

theorem receiveFrame_refines :
    Call.Refines (receiveFrame (μ := μ) { flags with inWorker := false })
      (receiveFrame { flags with inWorker }) := by
  refine .bind (.refl _) fun bytes => .bind (.refl _) fun h => .bind (.refl _) fun s =>
    .bind (.refl _) fun demand => ?_
  cases demand with
  | frame | delivery => exact meet_refines flags inWorker _
  | body range =>
      exact .bind (.refl _) fun _ => .bind (.refl _) fun _ => meet_refines flags inWorker _

theorem receiveMessage_refines :
    Call.Refines (⟨receiveMessage { flags with inWorker := false }⟩ : Call (StreamSession μ) μ)
      ⟨receiveMessage { flags with inWorker }⟩ := by
  intro s
  dsimp only
  -- Frame by frame: a frame that is the same leads to the same next one.
  fun_induction receiveMessage { flags with inWorker := false } s with
  | case1 s t hframe ih =>
      obtain hcrash | hsame := (receiveFrame_refines flags inWorker).of_run hframe
      · cases hcrash
      · rw [receiveMessage_eq { flags with inWorker } s, hsame]
        exact ih
  | case2 s m t hframe =>
      obtain hcrash | hsame := (receiveFrame_refines flags inWorker).of_run hframe
      · cases hcrash
      · rw [receiveMessage_eq { flags with inWorker } s, hsame]
        exact .inr rfl
  | case3 s halt t hframe =>
      obtain hcrash | hsame := (receiveFrame_refines flags inWorker).of_run hframe
      · exact .inl (by rw [Except.error.inj hcrash])
      · rw [receiveMessage_eq { flags with inWorker } s, hsame]
        exact .inr rfl

theorem receive_refines :
    Call.Refines (receive (μ := μ) { flags with inWorker := false })
      (receive { flags with inWorker }) :=
  .bind (.refl _) fun _ => .bind (.refl _) fun _ =>
    .onFailure (receiveMessage_refines flags inWorker) _

end StreamSession

namespace DatagramSession

variable (flags : Flags) (inWorker : Bool)

theorem deliver_refines (typeId : Int32) (payload : List UInt8) :
    Call.Refines (deliver (μ := μ) { flags with inWorker := false } typeId payload)
      (deliver { flags with inWorker } typeId payload) := by
  simp only [deliver, ← decode_eq_ite]
  refine .bind (.refl _) fun s => ?_
  cases s.registry.resolve? typeId s.peerTable with
  | some m => exact .ofHalting (Worker.decode_refines _ _ _)
  | none => exact .refl _

theorem onDatagram_refines (sender : Endpoint) (bytes : List UInt8) :
    Call.Refines (onDatagram (μ := μ) { flags with inWorker := false } sender bytes)
      (onDatagram { flags with inWorker } sender bytes) := by
  refine .bind (.refl _) fun h => .bind (.refl _) fun _ => .bind (.refl _) fun _ =>
    .bind (.refl _) fun s => .bind (.refl _) fun _ => .bind (.refl _) fun _ =>
    .bind (.refl _) fun kind => ?_
  cases kind with
  | complete => exact .map (deliver_refines flags inWorker _ _)
  | versionVerification | slice | sliceHeader | cancel => exact .refl _

theorem receiveDatagram_refines :
    Call.Refines (receiveDatagram (μ := μ) { flags with inWorker := false })
      (receiveDatagram { flags with inWorker }) :=
  .bind (.refl _) fun _ => .bind (.refl _) fun _ =>
    .bind (onDatagram_refines flags inWorker _ _) fun _ => .refl _

theorem receiveMessage_refines :
    Call.Refines
      (⟨receiveMessage { flags with inWorker := false }⟩ : Call (DatagramSession μ) (μ × Endpoint))
      ⟨receiveMessage { flags with inWorker }⟩ := by
  intro s
  dsimp only
  fun_induction receiveMessage { flags with inWorker := false } s with
  | case1 s t hdatagram ih =>
      obtain hcrash | hsame := (receiveDatagram_refines flags inWorker).of_run hdatagram
      · cases hcrash
      · rw [receiveMessage_eq { flags with inWorker } s, hsame]
        exact ih
  | case2 s m t hdatagram =>
      obtain hcrash | hsame := (receiveDatagram_refines flags inWorker).of_run hdatagram
      · cases hcrash
      · rw [receiveMessage_eq { flags with inWorker } s, hsame]
        exact .inr rfl
  | case3 s halt t hdatagram =>
      obtain hcrash | hsame := (receiveDatagram_refines flags inWorker).of_run hdatagram
      · exact .inl (by rw [Except.error.inj hcrash])
      · rw [receiveMessage_eq { flags with inWorker } s, hsame]
        exact .inr rfl

theorem receive_refines :
    Call.Refines (receive (μ := μ) { flags with inWorker := false })
      (receive { flags with inWorker }) :=
  .bind (.refl _) fun _ => .bind (.refl _) fun _ => receiveMessage_refines flags inWorker

end DatagramSession

end MessageChannel
