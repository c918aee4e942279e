import MessageChannel.Proofs.CallEffect

namespace MessageChannel.Call

variable {σ τ α β ν : Type}

theorem run_of_start {act : Call σ α} {session session' : σ} {now later : Nat}
    {ended : Except Halt α} {told : List Event}
    (h : act.start session now = (ended, session', later, told)) :
    ∃ log, act.run { session, now } = (ended, ⟨session', later, log⟩) ∧ log.toList = told := by
  simp only [start, Prod.mk.injEq] at h
  obtain ⟨rfl, rfl, rfl, rfl⟩ := h
  exact ⟨_, rfl, rfl⟩

/-- A view of the session that a call never changes. -/
def Keeps (view : σ → ν) (act : Call σ α) : Prop :=
  ∀ s, view (act.run s).2.session = view s.session

namespace Keeps

variable {view : σ → ν}

theorem of_run {act : Call σ α} (h : Keeps view act) {s t : Scene σ} {ended : Except Halt α}
    (hrun : act.run s = (ended, t)) : view t.session = view s.session := by
  have hs := h s
  rwa [hrun] at hs

theorem pure (a : α) : Keeps view (Pure.pure a : Call σ α) := fun _ => rfl

theorem halt (h : Halt) : Keeps view (Call.halt h : Call σ α) := fun _ => rfl

theorem fail (error : ChannelError) : Keeps view (Call.fail error : Call σ α) := fun _ => rfl

theorem session : Keeps view (Call.session : Call σ σ) := fun _ => rfl

theorem tell (event : Event) : Keeps view (Call.tell event : Call σ Unit) := fun _ => rfl

theorem update {f : σ → σ} (h : ∀ s, view (f s) = view s) : Keeps view (Call.update f) :=
  fun s => h s.session

theorem failIf (c : Prop) [Decidable c] (error : ChannelError) :
    Keeps view (Call.failIf c error : Call σ Unit) := by
  by_cases hc : c
  · rw [Call.failIf, if_pos hc]
    exact fail _
  · rw [Call.failIf, if_neg hc]
    exact pure _

theorem tellIf (c : Prop) [Decidable c] (event : Event) :
    Keeps view (Call.tellIf c event : Call σ Unit) := by
  by_cases hc : c
  · rw [Call.tellIf, if_pos hc]
    exact tell _
  · rw [Call.tellIf, if_neg hc]
    exact pure _

theorem ofExcept (ended : Except ChannelError α) : Keeps view (Call.ofExcept ended : Call σ α) := by
  cases ended
  · exact fail _
  · exact pure _

theorem ofHalting (ended : Except Halt α) : Keeps view (Call.ofHalting ended : Call σ α) := by
  cases ended
  · exact halt _
  · exact pure _

theorem bind {act : Call σ α} {next : α → Call σ β} (hact : Keeps view act)
    (hnext : ∀ a, Keeps view (next a)) : Keeps view (act >>= next) := by
  intro s
  rw [run_bind]
  cases hrun : act.run s with
  | mk ended t =>
      cases ended with
      | ok a => exact (hnext a t).trans (hact.of_run hrun)
      | error halt => exact hact.of_run hrun

theorem map {act : Call σ α} {f : α → β} (h : Keeps view act) : Keeps view (f <$> act) :=
  bind h fun _ => pure _

theorem onFailure {act : Call σ α} {more : ChannelError → Call σ Unit} (hact : Keeps view act)
    (hmore : ∀ error, Keeps view (more error)) : Keeps view (act.onFailure more) := by
  intro s
  simp only [Call.onFailure]
  cases hrun : act.run s with
  | mk ended t =>
      have ht := hact.of_run hrun
      cases ended with
      | ok a => exact ht
      | error halt =>
          cases halt with
          | stalled | crashed => exact ht
          | failed error =>
              dsimp only
              cases hrun' : (more error).run t with
              | mk ended' u =>
                  have hu := (hmore error).of_run hrun'
                  cases ended' <;> exact hu.trans ht

theorem errorOf? {act : Call σ Unit} (hact : Keeps view act) : Keeps view (Call.errorOf? act) := by
  intro s
  simp only [Call.errorOf?]
  cases hrun : act.run s with
  | mk ended t =>
      have ht := hact.of_run hrun
      cases ended with
      | ok a => exact ht
      | error halt => cases halt <;> exact ht

/-- A call on a part of the session keeps what it keeps of that part. -/
theorem withinPart {act : Call τ α} {part : σ → τ} {put : τ → σ → σ} {partView : τ → ν}
    (hact : Keeps partView act) (hpart : ∀ s, view s = partView (part s))
    (hput : ∀ t s, view (put t s) = partView t) : Keeps view (act.within part put) := by
  intro s
  rw [hpart s.session]
  exact (hput _ _).trans (hact ⟨part s.session, s.now, s.log⟩)

end Keeps

theorem Timeless.keeps {view : σ → ν} {act : Call σ α} (h : Timeless act)
    (heffect : ∀ s, view (act.effect s).2 = view s) : Keeps view act := by
  intro s
  obtain ⟨log, hrun⟩ := h s
  rw [hrun]
  exact heffect s.session

/-- A call that goes the same way if this is done to the session before, as if it were done to the
session after. -/
def Ignores (change : σ → σ) (act : Call σ α) : Prop :=
  ∀ s, act.run { s with session := change s.session } =
    ((act.run s).1, { (act.run s).2 with session := change (act.run s).2.session })

namespace Ignores

variable {change : σ → σ}

theorem pure (a : α) : Ignores change (Pure.pure a : Call σ α) := fun _ => rfl

theorem halt (h : Halt) : Ignores change (Call.halt h : Call σ α) := fun _ => rfl

theorem fail (error : ChannelError) : Ignores change (Call.fail error : Call σ α) := fun _ => rfl

theorem tell (event : Event) : Ignores change (Call.tell event : Call σ Unit) := fun _ => rfl

theorem update {f : σ → σ} (h : ∀ s, f (change s) = change (f s)) :
    Ignores change (Call.update f) := by
  intro s
  simp only [Call.update, h]

theorem tellIf (c : Prop) [Decidable c] (event : Event) :
    Ignores change (Call.tellIf c event : Call σ Unit) := by
  by_cases hc : c
  · rw [Call.tellIf, if_pos hc]
    exact tell _
  · rw [Call.tellIf, if_neg hc]
    exact pure _

theorem bind {act : Call σ α} {next : α → Call σ β} (hact : Ignores change act)
    (hnext : ∀ a, Ignores change (next a)) : Ignores change (act >>= next) := by
  intro s
  rw [run_bind, run_bind, hact s]
  cases act.run s with
  | mk ended t =>
      cases ended with
      | ok a => exact hnext a t
      | error halt => rfl

theorem failIf (c : Prop) [Decidable c] (error : ChannelError) :
    Ignores change (Call.failIf c error : Call σ Unit) := by
  by_cases hc : c
  · rw [Call.failIf, if_pos hc]
    exact fail _
  · rw [Call.failIf, if_neg hc]
    exact pure _

theorem ofExcept (ended : Except ChannelError α) :
    Ignores change (Call.ofExcept ended : Call σ α) := by
  cases ended
  · exact fail _
  · exact pure _

theorem ofHalting (ended : Except Halt α) : Ignores change (Call.ofHalting ended : Call σ α) := by
  cases ended
  · exact halt _
  · exact pure _

theorem map {act : Call σ α} {f : α → β} (h : Ignores change act) : Ignores change (f <$> act) :=
  bind h fun _ => pure _

/-- A call may look at the session if it does not go by what is changed. -/
theorem bindSession {next : σ → Call σ β} (hsame : ∀ s, next (change s) = next s)
    (hnext : ∀ s, Ignores change (next s)) : Ignores change (Call.session >>= next) := by
  intro s
  simp only [run_bind, Call.session]
  rw [hsame, hnext s.session s]

/-- A call may look at the scene if it does not go by what is changed. -/
theorem bindScene {next : Scene σ → Call σ β}
    (hsame : ∀ s, next { s with session := change s.session } = next s)
    (hnext : ∀ s, Ignores change (next s)) : Ignores change (Call.scene >>= next) := by
  intro s
  simp only [run_bind, Call.scene]
  rw [hsame, hnext s s]

theorem within {act : Call τ α} {part : σ → τ} {put : τ → σ → σ}
    (hpart : ∀ s, part (change s) = part s) (hput : ∀ t s, put t (change s) = change (put t s)) :
    Ignores change (act.within part put) := by
  intro s
  simp only [Call.within, hpart, hput]

end Ignores

end MessageChannel.Call
