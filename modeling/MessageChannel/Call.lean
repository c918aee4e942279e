import MessageChannel.Event

namespace MessageChannel

inductive Halt where
  | failed (error : ChannelError)
  /-- The call waits for ever. -/
  | stalled
  /-- The code of a message broke down in the midst of the call. -/
  | crashed
deriving DecidableEq, Repr

/-- What calls work on: a session, the clock, and what has been told so far. -/
structure Scene (σ : Type) where
  session : σ
  now : Nat := 0
  log : Array Event := #[]

/-- A call on a session. What it did before it came to a halt stays done. -/
structure Call (σ α : Type) where
  run : Scene σ → Except Halt α × Scene σ

namespace Call

variable {σ τ α β : Type}

instance : Monad (Call σ) where
  pure a := ⟨fun s => (.ok a, s)⟩
  bind act next := ⟨fun s =>
    match act.run s with
    | (.ok a, s) => (next a).run s
    | (.error halt, s) => (.error halt, s)⟩

def halt (h : Halt) : Call σ α := ⟨fun s => (.error h, s)⟩

def fail (error : ChannelError) : Call σ α := halt (.failed error)

def failIf (c : Prop) [Decidable c] (error : ChannelError) : Call σ Unit :=
  if c then fail error else pure ()

def ofExcept : Except ChannelError α → Call σ α
  | .ok a => pure a
  | .error error => fail error

def ofHalting : Except Halt α → Call σ α
  | .ok a => pure a
  | .error h => halt h

def scene : Call σ (Scene σ) := ⟨fun s => (.ok s, s)⟩

def session : Call σ σ := ⟨fun s => (.ok s.session, s)⟩

def update (f : σ → σ) : Call σ Unit := ⟨fun s => (.ok (), { s with session := f s.session })⟩

def settle (session : σ) (now : Nat) : Call σ Unit := ⟨fun s => (.ok (), { s with session, now })⟩

def tell (event : Event) : Call σ Unit := ⟨fun s => (.ok (), { s with log := s.log.push event })⟩

def tellIf (c : Prop) [Decidable c] (event : Event) : Call σ Unit :=
  if c then tell event else pure ()

def onFailure (act : Call σ α) (more : ChannelError → Call σ Unit) : Call σ α := ⟨fun s =>
  match act.run s with
  | (.error (.failed error), s) =>
      match (more error).run s with
      | (.ok (), s) => (.error (.failed error), s)
      | (.error h, s) => (.error h, s)
  | ended => ended⟩

def errorOf? (act : Call σ Unit) : Call σ (Option ChannelError) := ⟨fun s =>
  match act.run s with
  | (.error (.failed error), s) => (.ok (some error), s)
  | (.error h, s) => (.error h, s)
  | (.ok (), s) => (.ok none, s)⟩

def within (part : σ → τ) (put : τ → σ → σ) (act : Call τ α) : Call σ α := ⟨fun s =>
  let (ended, t) := act.run ⟨part s.session, s.now, s.log⟩
  (ended, ⟨put t.session s.session, t.now, t.log⟩)⟩

/-- Runs a call on a session from some moment on: how it ends, with the session, the clock and
what was told. -/
def start (act : Call σ α) (session : σ) (now : Nat) : Except Halt α × σ × Nat × List Event :=
  let (ended, s) := act.run { session, now }
  (ended, s.session, s.now, s.log.toList)

theorem run_pure (a : α) (s : Scene σ) : (pure a : Call σ α).run s = (.ok a, s) := rfl

theorem run_bind (act : Call σ α) (next : α → Call σ β) (s : Scene σ) :
    (act >>= next).run s =
      match act.run s with
      | (.ok a, s) => (next a).run s
      | (.error h, s) => (.error h, s) := rfl

theorem ext_run {act act' : Call σ α} (h : ∀ s, act.run s = act'.run s) : act = act' := by
  cases act
  cases act'
  congr 1
  funext s
  exact h s

instance : LawfulMonad (Call σ) :=
  LawfulMonad.mk' (Call σ)
    (by
      intro α act
      apply ext_run
      intro s
      change (act >>= fun a => pure a).run s = act.run s
      rw [run_bind]
      split <;> simp_all [run_pure])
    (by intros; rfl)
    (by
      intro α β γ act next more
      apply ext_run
      intro s
      rw [run_bind, run_bind, run_bind]
      cases act.run s with
      | mk ended t => cases ended <;> rfl)

theorem run_bind_eq_ok {act : Call σ α} {next : α → Call σ β} {s t : Scene σ} {b : β} :
    (act >>= next).run s = (.ok b, t) ↔
      ∃ a u, act.run s = (.ok a, u) ∧ (next a).run u = (.ok b, t) := by
  rw [run_bind]
  split
  · next a u hact =>
    rw [hact]
    exact ⟨fun h => ⟨a, u, rfl, h⟩, by rintro ⟨_, _, ⟨⟩, h⟩; exact h⟩
  · next h u hact => simp [hact]

/-- A measure of the session that a call never makes larger. -/
def Shrinks (size : σ → Nat) (act : Call σ α) : Prop :=
  ∀ s, size (act.run s).2.session ≤ size s.session

namespace Shrinks

variable {size : σ → Nat}

theorem pure (a : α) : Shrinks size (Pure.pure a : Call σ α) := fun _ => Nat.le_refl _

theorem halt (h : Halt) : Shrinks size (Call.halt h : Call σ α) := fun _ => Nat.le_refl _

theorem fail (error : ChannelError) : Shrinks size (Call.fail error : Call σ α) := halt _

theorem session : Shrinks size (Call.session : Call σ σ) := fun _ => Nat.le_refl _

theorem tell (event : Event) : Shrinks size (Call.tell event : Call σ Unit) :=
  fun _ => Nat.le_refl _

theorem failIf (c : Prop) [Decidable c] (error : ChannelError) :
    Shrinks size (Call.failIf c error : Call σ Unit) := by
  unfold Call.failIf
  split
  · exact fail _
  · exact pure _

theorem tellIf (c : Prop) [Decidable c] (event : Event) :
    Shrinks size (Call.tellIf c event : Call σ Unit) := by
  unfold Call.tellIf
  split
  · exact tell _
  · exact pure _

theorem ofExcept (ended : Except ChannelError α) :
    Shrinks size (Call.ofExcept ended : Call σ α) := by
  cases ended
  · exact fail _
  · exact pure _

theorem ofHalting (ended : Except Halt α) : Shrinks size (Call.ofHalting ended : Call σ α) := by
  cases ended
  · exact halt _
  · exact pure _

theorem update {f : σ → σ} (h : ∀ s, size (f s) ≤ size s) : Shrinks size (Call.update f) :=
  fun s => h s.session

theorem bind {act : Call σ α} {next : α → Call σ β} (h : Shrinks size act)
    (hnext : ∀ a, Shrinks size (next a)) : Shrinks size (act >>= next) := by
  intro s
  have hs := h s
  rw [run_bind]
  split
  · next a t hact =>
      rw [hact] at hs
      exact Nat.le_trans (hnext a t) hs
  · next halt t hact =>
      rw [hact] at hs
      exact hs

theorem map {act : Call σ α} {f : α → β} (h : Shrinks size act) : Shrinks size (f <$> act) :=
  bind h fun _ => pure _

end Shrinks

end Call

end MessageChannel
