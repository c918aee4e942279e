import MessageChannel.Proofs.Available
import MessageChannel.Proofs.CallEffect
import MessageChannel.Stream.Receive

namespace MessageChannel

variable {μ : Type}

/-- How a call that wants more bytes ends when the wait for them does. -/
def FillEnd.halt : FillEnd → Halt
  | .failed error => .failed error
  | .expired => .failed .timeout
  | .full | .stalled => .stalled

/-- How a call ends that has this to return when the wait for its bytes is over. -/
def FillEnd.ended {α : Type} (a : α) : FillEnd → Except Halt α
  | .full => .ok a
  | outcome => .error outcome.halt

namespace StreamSession

def available (s : StreamSession μ) : List UInt8 :=
  (s.transport.map fun t => t.inbound.available).getD []

/-- How a call ends that wants more bytes than are available. -/
def shortage (s : StreamSession μ) : Halt :=
  match s.transport with
  | some t => t.inbound.ending.halt
  | none => .failed closedError

/-- One session becomes the other by reading these bytes; only its receiver may differ too. -/
def Hears (s : StreamSession μ) (bytes : List UInt8) (t : StreamSession μ) : Prop :=
  ∃ transport inbound, s.transport = some transport ∧ transport.inbound.Leads bytes inbound ∧
    t = { s with transport := some { transport with inbound }, receiver := t.receiver }

namespace Hears

variable {s t u : StreamSession μ} {front back : List UInt8}

theorem available (h : s.Hears front t) : s.available = front ++ t.available := by
  obtain ⟨transport, inbound, hs, hleads, ht⟩ := h
  rw [ht]
  simp [StreamSession.available, hs, hleads.available]

theorem bytes_eq (h : s.Hears front t) (hs : s.available = back ++ t.available) : front = back := by
  have hread := h.available
  rw [hs] at hread
  exact (List.append_cancel_right hread).symm

theorem shortage (h : s.Hears front t) : t.shortage = s.shortage := by
  obtain ⟨transport, inbound, hs, hleads, ht⟩ := h
  rw [ht]
  simp [StreamSession.shortage, hs, hleads.ending]

theorem registry (h : s.Hears front t) : t.registry = s.registry := by
  obtain ⟨transport, inbound, hs, hleads, ht⟩ := h
  rw [ht]

theorem config (h : s.Hears front t) : t.config = s.config := by
  obtain ⟨transport, inbound, hs, hleads, ht⟩ := h
  rw [ht]

theorem connected (h : s.Hears front t) : ∃ transport, t.transport = some transport := by
  obtain ⟨transport, inbound, hs, hleads, ht⟩ := h
  exact ⟨_, by rw [ht]⟩

theorem refl {transport : ByteStream} (h : s.transport = some transport) : s.Hears [] s :=
  ⟨transport, transport.inbound, h, .refl _, by rw [← h]⟩

theorem trans (hst : s.Hears front t) (htu : t.Hears back u) : s.Hears (front ++ back) u := by
  obtain ⟨transport, inbound, hs, hleads, ht⟩ := hst
  obtain ⟨transport', inbound', ht', hleads', hu⟩ := htu
  rw [ht] at ht' hu
  obtain rfl := Option.some.inj ht'
  exact ⟨transport, inbound', hs, hleads.trans hleads', hu⟩

theorem withReceiver (h : s.Hears front t) (r : Receiver μ) :
    s.Hears front { t with receiver := r } := by
  obtain ⟨transport, inbound, hs, hleads, ht⟩ := h
  refine ⟨transport, inbound, hs, hleads, ?_⟩
  rw [ht]

end Hears

theorem run_pull {transport : ByteStream} {s : Scene (StreamSession μ)}
    (htransport : s.session.transport = some transport) (n : Nat) (deadline : Option Nat) :
    let filled := transport.inbound.fill s.session.config.retryBackoff deadline s.now n
    (pull n deadline).run s = (.ok filled,
      ⟨{ s.session with transport := some { transport with inbound := filled.inbound } },
        filled.now, s.log⟩) := by
  simp only [pull, connected, Call.run_bind, Call.session, htransport, Call.scene, Call.settle,
    Call.run_pure]

theorem shortage_ne_timeout (s : StreamSession μ) : s.shortage ≠ .failed .timeout := by
  cases htransport : s.transport with
  | none => simp [shortage, htransport, closedError]
  | some transport =>
      have htimeout : transport.inbound.ending ≠ .failed .timeout := Inbound.endOf_ne_timeout _ _
      have hexpired : transport.inbound.ending ≠ .expired := Inbound.endOf_ne_expired _ _
      intro hhalt
      rw [shortage, htransport] at hhalt
      change transport.inbound.ending.halt = _ at hhalt
      cases hend : transport.inbound.ending with
      | failed error =>
          rw [hend, FillEnd.halt, Halt.failed.injEq] at hhalt
          exact htimeout (hhalt ▸ hend)
      | expired => exact hexpired hend
      | full | stalled => simp [hend, FillEnd.halt] at hhalt

theorem run_pull_closed {s : Scene (StreamSession μ)} (hclosed : s.session.transport = none)
    (n : Nat) (deadline : Option Nat) :
    (pull n deadline).run s = (.error (.failed closedError), s) := by
  simp only [pull, connected, Call.run_bind, Call.session, hclosed, Call.fail, Call.halt]

theorem run_checkEnd (outcome : FillEnd) (s : Scene (StreamSession μ)) :
    (checkEnd outcome).run s = (outcome.ended (), s) := by
  cases outcome <;> rfl

theorem run_checkEnd_ending (i : Inbound) (s : Scene (StreamSession μ)) :
    (checkEnd i.ending).run s = (.error i.ending.halt, s) := by
  have hne : i.ending ≠ .full := Inbound.endOf_ne_full _ _
  cases hend : i.ending with
  | full => exact absurd hend hne
  | failed error | expired | stalled => rfl

def pullExactly (n : Nat) (deadline : Option Nat) : Call (StreamSession μ) (List UInt8) := do
  let filled ← pull n deadline
  checkEnd filled.outcome
  return filled.bytes

theorem run_pullExactly {transport : ByteStream} {s : Scene (StreamSession μ)}
    (htransport : s.session.transport = some transport) (n : Nat) (deadline : Option Nat) :
    let filled := transport.inbound.fill s.session.config.retryBackoff deadline s.now n
    (pullExactly n deadline).run s = (filled.outcome.ended filled.bytes,
      ⟨{ s.session with transport := some { transport with inbound := filled.inbound } },
        filled.now, s.log⟩) := by
  dsimp only
  rw [pullExactly, Call.run_bind, run_pull htransport]
  dsimp only
  rw [Call.run_bind, run_checkEnd]
  cases (transport.inbound.fill s.session.config.retryBackoff deadline s.now n).outcome <;> rfl

theorem run_readBody {transport : ByteStream} {s : Scene (StreamSession μ)}
    (htransport : s.session.transport = some transport) (range : SliceRange) :
    let filled := transport.inbound.fill s.session.config.retryBackoff none s.now range.length
    (readBody range).run s = (filled.outcome.ended (),
      ⟨{ s.session with
          transport := some { transport with inbound := filled.inbound }
          receiver := s.session.receiver.fill range filled.bytes }, filled.now, s.log⟩) := by
  dsimp only
  rw [readBody, Call.run_bind, run_pull htransport]
  dsimp only
  rw [Call.run_bind, Call.update]
  dsimp only
  rw [run_checkEnd]

/-- How a wait for `n` bytes on a session ends, unless a deadline ends it: with the bytes, or
because no more will come. -/
def Pulls (s : Scene (StreamSession μ)) (n : Nat) (ended : Except Halt (List UInt8))
    (t : Scene (StreamSession μ)) : Prop :=
  (∃ bytes, ended = .ok bytes ∧ bytes.length = n ∧ s.session.Hears bytes t.session ∧
    t.session.receiver = s.session.receiver) ∨
  (ended = .error s.session.shortage ∧ s.session.available.length < n)

theorem pullExactly_cases {n : Nat} {deadline : Option Nat} {s t : Scene (StreamSession μ)}
    {ended : Except Halt (List UInt8)} (hn : 0 < n)
    (hrun : (pullExactly n deadline).run s = (ended, t)) :
    Pulls s n ended t ∨ ended = .error (.failed .timeout) ∧ deadline ≠ none ∧
      ∃ bytes, bytes.length < n ∧ s.session.Hears bytes t.session ∧
        t.session.receiver = s.session.receiver := by
  cases htransport : s.session.transport with
  | none =>
      have hfail : (pull n deadline).run s = (.error (.failed closedError), s) := by
        simp only [pull, connected, Call.run_bind, Call.session, htransport, Call.fail, Call.halt]
      rw [pullExactly, Call.run_bind, hfail] at hrun
      obtain ⟨rfl, rfl⟩ := Prod.mk.inj hrun
      exact .inl (.inr (by simp [shortage, available, htransport, hn]))
  | some transport =>
      rw [pullExactly, Call.run_bind, run_pull htransport] at hrun
      dsimp only at hrun
      rcases transport.inbound.fill_cases s.session.config.retryBackoff deadline s.now n with
        ⟨hfull, hlength, hleads⟩ | ⟨hend, hshort⟩ | ⟨hexpired, hdeadline, hshort, hleads⟩
      · rw [hfull] at hrun
        obtain ⟨rfl, rfl⟩ := Prod.mk.inj hrun
        exact .inl (.inl ⟨_, rfl, hlength, ⟨transport, _, htransport, hleads, rfl⟩, rfl⟩)
      · rw [hend, Call.run_bind, run_checkEnd_ending] at hrun
        obtain ⟨rfl, rfl⟩ := Prod.mk.inj hrun
        exact .inl (.inr ⟨by simp [shortage, htransport],
          by simpa [available, htransport] using hshort⟩)
      · rw [hexpired] at hrun
        obtain ⟨rfl, rfl⟩ := Prod.mk.inj hrun
        exact .inr ⟨rfl, hdeadline, _, hshort, ⟨transport, _, htransport, hleads, rfl⟩, rfl⟩

theorem run_readHeader (s : Scene (StreamSession μ)) :
    readHeader.run s = (match s.session.idleLimit with
      | some limit => readHeaderBy (s.now + limit)
      | none => pullExactly headerSize none).run s := by
  simp only [readHeader, Call.run_bind, Call.scene]
  rfl

theorem readHeaderBy_eq (deadline : Nat) : readHeaderBy deadline = (do
    let first ← pullExactly 1 (some deadline)
    let rest ← pullExactly (headerSize - 1) none
    return first ++ rest : Call (StreamSession μ) (List UInt8)) := by
  simp only [readHeaderBy, pullExactly, bind_assoc, pure_bind]

theorem inFlight_of_idleLimit {s : StreamSession μ} {limit : Nat} (h : s.idleLimit = some limit) :
    s.receiver.assembly.inFlight = none := by
  cases hflight : s.receiver.assembly.inFlight with
  | none => rfl
  | some announced => simp [idleLimit, Assembly.isAssembling, hflight] at h

/-- A header is read, or not enough of it comes. Only the first byte of a message is waited for
with a limit. -/
theorem readHeader_cases {s t : Scene (StreamSession μ)} {ended : Except Halt (List UInt8)}
    (hrun : readHeader.run s = (ended, t)) :
    Pulls s headerSize ended t ∨ ended = .error (.failed .timeout) ∧
      s.session.receiver.assembly.inFlight = none ∧ s.session.Hears [] t.session ∧
        t.session.receiver = s.session.receiver := by
  rw [run_readHeader] at hrun
  cases hlimit : s.session.idleLimit with
  | none =>
      rw [hlimit] at hrun
      rcases pullExactly_cases (by decide) hrun with hpulls | ⟨-, hdeadline, -⟩
      · exact .inl hpulls
      · exact absurd rfl hdeadline
  | some limit =>
      simp only [hlimit] at hrun
      rw [readHeaderBy_eq, Call.run_bind] at hrun
      cases hfirst : (pullExactly 1 (some (s.now + limit))).run s with
      | mk endedFirst u =>
          rw [hfirst] at hrun
          rcases pullExactly_cases (by decide) hfirst with
            (⟨first, rfl, hlength, hhears, hreceiver⟩ | ⟨rfl, hshort⟩) |
            ⟨rfl, -, bytes, hshort, hhears, hreceiver⟩
          · cases hrest : (pullExactly (headerSize - 1) none).run u with
            | mk endedRest v =>
                simp only [Call.run_bind, hrest] at hrun
                have havailable := congrArg List.length hhears.available
                rw [List.length_append, hlength] at havailable
                rcases pullExactly_cases (by decide) hrest with
                  (⟨rest, rfl, hlength', hhears', hreceiver'⟩ | ⟨rfl, hshort⟩) |
                  ⟨-, hdeadline, -⟩
                · obtain ⟨rfl, rfl⟩ := Prod.mk.inj hrun
                  refine .inl (.inl ⟨first ++ rest, rfl, ?_, hhears.trans hhears',
                    hreceiver'.trans hreceiver⟩)
                  rw [List.length_append, hlength, hlength']
                  rfl
                · obtain ⟨rfl, rfl⟩ := Prod.mk.inj hrun
                  refine .inl (.inr ⟨by rw [hhears.shortage], ?_⟩)
                  simp only [headerSize] at hshort ⊢
                  omega
                · exact absurd rfl hdeadline
          · obtain ⟨rfl, rfl⟩ := Prod.mk.inj hrun
            exact .inl (.inr ⟨rfl, by simp only [headerSize]; omega⟩)
          · obtain ⟨rfl, rfl⟩ := Prod.mk.inj hrun
            obtain rfl := List.length_eq_zero_iff.1 (Nat.lt_one_iff.1 hshort)
            exact .inr ⟨rfl, inFlight_of_idleLimit hlimit, hhears, hreceiver⟩

theorem readHeader_timeout {s t : Scene (StreamSession μ)}
    (hrun : readHeader.run s = (.error (.failed .timeout), t)) :
    s.session.receiver.assembly.inFlight = none ∧ s.session.Hears [] t.session ∧
      t.session.receiver = s.session.receiver := by
  rcases readHeader_cases hrun with (⟨bytes, hended, -⟩ | ⟨hended, -⟩) | ⟨-, htimeout⟩
  · cases hended
  · exact absurd (Except.error.inj hended).symm s.session.shortage_ne_timeout
  · exact htimeout

/-- A body is read into its place, or not enough of it comes. -/
theorem readBody_cases {range : SliceRange} {s t : Scene (StreamSession μ)}
    {ended : Except Halt Unit} {transport : ByteStream}
    (htransport : s.session.transport = some transport)
    (hrun : (readBody range).run s = (ended, t)) :
    (∃ bytes, ended = .ok () ∧ bytes.length = range.length ∧ s.session.Hears bytes t.session ∧
      t.session.receiver = s.session.receiver.fill range bytes) ∨
    (ended = .error s.session.shortage ∧ s.session.available.length < range.length) := by
  rw [readBody, Call.run_bind, run_pull htransport] at hrun
  dsimp only at hrun
  rcases transport.inbound.fill_cases s.session.config.retryBackoff none s.now range.length with
    ⟨hfull, hlength, hleads⟩ | ⟨hend, hshort⟩ | ⟨-, hdeadline, -⟩
  · rw [hfull] at hrun
    obtain ⟨rfl, rfl⟩ := Prod.mk.inj hrun
    exact .inl ⟨_, rfl, hlength, ⟨transport, _, htransport, hleads, rfl⟩, rfl⟩
  · rw [hend, Call.run_bind, Call.update] at hrun
    dsimp only at hrun
    rw [run_checkEnd_ending] at hrun
    obtain ⟨rfl, rfl⟩ := Prod.mk.inj hrun
    exact .inr ⟨by simp [shortage, htransport], by simpa [available, htransport] using hshort⟩
  · exact absurd rfl hdeadline

end StreamSession

end MessageChannel
