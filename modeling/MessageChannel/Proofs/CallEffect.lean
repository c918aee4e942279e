import MessageChannel.Call

namespace MessageChannel.Call

variable {σ τ α β : Type}

theorem within_map (f : α → β) (act : Call τ α) (part : σ → τ) (put : τ → σ → σ) :
    (f <$> act).within part put = f <$> act.within part put := by
  apply ext_run
  intro s
  cases hact : act.run ⟨part s.session, s.now, s.log⟩ with
  | mk ended t =>
      have hwithin : (act.within part put).run s =
          (ended, ⟨put t.session s.session, t.now, t.log⟩) := by
        simp only [within, hact]
      have hmap : (f <$> act).run ⟨part s.session, s.now, s.log⟩ = (ended.map f, t) := by
        rw [map_eq_pure_bind, run_bind, hact]
        cases ended <;> rfl
      have hleft : ((f <$> act).within part put).run s =
          (ended.map f, ⟨put t.session s.session, t.now, t.log⟩) := by
        simp only [within, hmap]
      rw [hleft, map_eq_pure_bind, run_bind, hwithin]
      cases ended <;> rfl

theorem run_tellIf (c : Prop) [Decidable c] (event : Event) (s : Scene σ) :
    ∃ log, (tellIf c event).run s = (.ok (), { s with log }) := by
  by_cases hc : c
  · rw [tellIf, if_pos hc]
    exact ⟨_, rfl⟩
  · rw [tellIf, if_neg hc]
    exact ⟨s.log, rfl⟩

/-- What a call makes of a session at time zero, with nothing told before. -/
def effect (act : Call σ α) (session : σ) : Except Halt α × σ :=
  let (ended, s) := act.run { session }
  (ended, s.session)

/-- A call that goes by the session alone. It leaves the clock as it is; what it tells does not
matter here. -/
def Timeless (act : Call σ α) : Prop :=
  ∀ s, ∃ log, act.run s = ((act.effect s.session).1, ⟨(act.effect s.session).2, s.now, log⟩)

theorem effect_of_run {act : Call σ α} {session : σ} {ended : Except Halt α} {s : Scene σ}
    (h : act.run { session } = (ended, s)) : act.effect session = (ended, s.session) := by
  simp only [effect, h]

/-- One call after the other. The second does not see the clock or the log of the first. -/
theorem effect_bind {act : Call σ α} {next : α → Call σ β} (hnext : ∀ a, Timeless (next a))
    (session : σ) :
    (act >>= next).effect session =
      match act.effect session with
      | (.ok a, session) => (next a).effect session
      | (.error h, session) => (.error h, session) := by
  cases hact : act.run { session } with
  | mk ended s =>
      rw [effect_of_run hact]
      cases ended with
      | ok a =>
          obtain ⟨log, hrun⟩ := hnext a s
          simp only [effect, run_bind, hact] at hrun ⊢
          rw [hrun]
      | error h => simp only [effect, run_bind, hact]

namespace Timeless

theorem pure (a : α) : Timeless (Pure.pure a : Call σ α) := fun s => ⟨s.log, rfl⟩

theorem halt (h : Halt) : Timeless (Call.halt h : Call σ α) := fun s => ⟨s.log, rfl⟩

theorem fail (error : ChannelError) : Timeless (Call.fail error : Call σ α) := halt _

theorem session : Timeless (Call.session : Call σ σ) := fun s => ⟨s.log, rfl⟩

theorem update (f : σ → σ) : Timeless (Call.update f) := fun s => ⟨s.log, rfl⟩

theorem tell (event : Event) : Timeless (Call.tell event : Call σ Unit) :=
  fun s => ⟨s.log.push event, rfl⟩

theorem failIf (c : Prop) [Decidable c] (error : ChannelError) :
    Timeless (Call.failIf c error : Call σ Unit) := by
  by_cases hc : c
  · rw [Call.failIf, if_pos hc]
    exact fail _
  · rw [Call.failIf, if_neg hc]
    exact pure _

theorem tellIf (c : Prop) [Decidable c] (event : Event) :
    Timeless (Call.tellIf c event : Call σ Unit) := by
  by_cases hc : c
  · rw [Call.tellIf, if_pos hc]
    exact tell _
  · rw [Call.tellIf, if_neg hc]
    exact pure _

theorem ofExcept (ended : Except ChannelError α) :
    Timeless (Call.ofExcept ended : Call σ α) := by
  cases ended
  · exact fail _
  · exact pure _

theorem ofHalting (ended : Except Halt α) : Timeless (Call.ofHalting ended : Call σ α) := by
  cases ended
  · exact halt _
  · exact pure _

theorem bind {act : Call σ α} {next : α → Call σ β} (hact : Timeless act)
    (hnext : ∀ a, Timeless (next a)) : Timeless (act >>= next) := by
  intro s
  obtain ⟨log, hrun⟩ := hact s
  rw [run_bind, hrun, effect_bind hnext]
  cases heffect : act.effect s.session with
  | mk ended session =>
      cases ended with
      | ok a =>
          obtain ⟨log', hrun'⟩ := hnext a ⟨session, s.now, log⟩
          exact ⟨log', hrun'⟩
      | error h => exact ⟨log, rfl⟩

theorem map {act : Call σ α} {f : α → β} (h : Timeless act) : Timeless (f <$> act) :=
  bind h fun _ => pure _

theorem run_within {act : Call τ α} (h : Timeless act) (part : σ → τ) (put : τ → σ → σ)
    (s : Scene σ) :
    ∃ log, (act.within part put).run s =
      ((act.effect (part s.session)).1,
        ⟨put (act.effect (part s.session)).2 s.session, s.now, log⟩) := by
  obtain ⟨log, hrun⟩ := h ⟨part s.session, s.now, s.log⟩
  refine ⟨log, ?_⟩
  simp only [Call.within, hrun]

end Timeless

/-- A call that never fails with this error. -/
def Spares (error : ChannelError) (act : Call σ α) : Prop :=
  ∀ s, (act.run s).1 ≠ .error (.failed error)

namespace Spares

variable {error : ChannelError}

theorem pure (a : α) : Spares error (Pure.pure a : Call σ α) := fun _ => nofun

theorem session : Spares error (Call.session : Call σ σ) := fun _ => nofun

theorem update (f : σ → σ) : Spares error (Call.update f) := fun _ => nofun

theorem tell (event : Event) : Spares error (Call.tell event : Call σ Unit) := fun _ => nofun

theorem fail {error' : ChannelError} (h : error' ≠ error) :
    Spares error (Call.fail error' : Call σ α) := by
  intro s hfail
  exact h (Halt.failed.inj (Except.error.inj hfail))

theorem tellIf (c : Prop) [Decidable c] (event : Event) :
    Spares error (Call.tellIf c event : Call σ Unit) := by
  by_cases hc : c
  · rw [Call.tellIf, if_pos hc]
    exact tell _
  · rw [Call.tellIf, if_neg hc]
    exact pure _

theorem ofExcept {ended : Except ChannelError α} (h : ended ≠ .error error) :
    Spares error (Call.ofExcept ended : Call σ α) := by
  cases ended with
  | ok a => exact pure a
  | error error' => exact fail fun herror => h (herror ▸ rfl)

theorem bind {act : Call σ α} {next : α → Call σ β} (hact : Spares error act)
    (hnext : ∀ a, Spares error (next a)) : Spares error (act >>= next) := by
  intro s
  have hs := hact s
  rw [run_bind]
  cases hrun : act.run s with
  | mk ended t =>
      rw [hrun] at hs
      cases ended with
      | ok a => exact hnext a t
      | error halt =>
          intro hfail
          apply hs
          rw [Except.error.inj hfail]

theorem map {act : Call σ α} {f : α → β} (h : Spares error act) : Spares error (f <$> act) :=
  bind h fun _ => pure _

theorem within {act : Call τ α} (h : Spares error act) (part : σ → τ) (put : τ → σ → σ) :
    Spares error (act.within part put) := fun s => h ⟨part s.session, s.now, s.log⟩

end Spares

theorem Timeless.spares {error : ChannelError} {act : Call σ α} (h : Timeless act)
    (heffect : ∀ session, (act.effect session).1 ≠ .error (.failed error)) : Spares error act := by
  intro s
  obtain ⟨log, hrun⟩ := h s
  rw [hrun]
  exact heffect s.session

end MessageChannel.Call
