import MessageChannel.Proofs.Patience
import MessageChannel.Proofs.Untouched
import Mathlib.Data.List.Infix

namespace MessageChannel

variable {μ : Type}

namespace Inbound

/-- How long a reader waits that gets here, until there is a byte for it or the stream ends. There
is no telling if that may be for ever, or if the wait has begun before. -/
def wait? (staysOpen : Bool) (backoff : Nat) : List Arrival → Option Nat
  | [] => if staysOpen then none else some 0
  | .bytes [] :: rest => wait? staysOpen backoff rest
  | .bytes (_ :: _) :: _ | .closed :: _ => some 0
  | .pause duration :: rest => (wait? staysOpen backoff rest).map (duration + ·)
  | .silentUntil _ :: _ => none
  | .fault error :: rest =>
      match error.retry with
      | .now => wait? staysOpen backoff rest
      | .later => (wait? staysOpen backoff rest).map (backoff + ·)
      | .never _ => some 0

/-- Wherever in the stream a reader gets, it waits no longer than this. -/
def Brisk (i : Inbound) (backoff limit : Nat) : Prop :=
  ∀ rest, rest <:+ i.arrivals → ∃ d ≤ limit, wait? i.staysOpen backoff rest = some d

instance (i : Inbound) (backoff limit : Nat) : Decidable (i.Brisk backoff limit) :=
  decidable_of_iff (∀ rest ∈ i.arrivals.tails,
      (wait? i.staysOpen backoff rest).any (· ≤ limit) = true) <| by
    refine forall_congr' fun rest => ?_
    rw [List.mem_tails]
    refine imp_congr_right fun _ => ?_
    cases wait? i.staysOpen backoff rest <;> simp

/-- A wait for one byte that is over in time is not given up. -/
theorem fillFrom_in_time {staysOpen : Bool} {backoff deadline now d : Nat}
    {arrivals : List Arrival} (hwait : wait? staysOpen backoff arrivals = some d)
    (hd : now + d ≤ deadline) :
    (fillFrom staysOpen backoff (some deadline) arrivals now 1).outcome ≠ .expired := by
  fun_induction wait? staysOpen backoff arrivals generalizing now d with
  | case1 hopen => simp at hwait
  | case2 hclosed => simp [fillFrom, hclosed]
  | case3 rest ih =>
      have hsplit : splitExactly? 1 [] = none := rfl
      simpa [fillFrom, hsplit] using ih hwait hd
  | case4 b data rest =>
      have hsplit : splitExactly? 1 (b :: data) = some ([b], data) := splitExactly?_append [b] data
      simp [fillFrom, hsplit]
  | case5 rest => simp [fillFrom]
  | case6 duration rest ih =>
      obtain ⟨d', hwait', rfl⟩ := Option.map_eq_some_iff.1 hwait
      have htime : inTime (some deadline) (now + duration) = true := by
        simp only [inTime, decide_eq_true_eq]
        omega
      simpa [fillFrom, htime] using ih hwait' (by omega)
  | case7 wake rest => simp at hwait
  | case8 error rest hretry ih => simpa [fillFrom, hretry] using ih hwait hd
  | case9 error rest hretry ih =>
      obtain ⟨d', hwait', rfl⟩ := Option.map_eq_some_iff.1 hwait
      have htime : inTime (some deadline) (now + backoff) = true := by
        simp only [inTime, decide_eq_true_eq]
        omega
      simpa [fillFrom, hretry, htime] using ih hwait' (by omega)
  | case10 error rest error' hretry => simp [fillFrom, hretry]

namespace Brisk

variable {staysOpen : Bool} {rest : List Arrival} {backoff limit : Nat}

theorem tail {a : Arrival} (h : Brisk ⟨a :: rest, staysOpen⟩ backoff limit) :
    Brisk ⟨rest, staysOpen⟩ backoff limit :=
  fun _ hrest => h _ (hrest.trans (List.suffix_cons _ _))

theorem bytes (h : Brisk ⟨rest, staysOpen⟩ backoff limit) (data : List UInt8) :
    Brisk ⟨.bytes data :: rest, staysOpen⟩ backoff limit := by
  intro back hback
  rcases List.suffix_cons_iff.1 hback with rfl | hback
  · cases data with
    | nil => exact h rest List.suffix_rfl
    | cons b data => exact ⟨0, Nat.zero_le _, rfl⟩
  · exact h back hback

end Brisk

theorem outcome_fill_ne_timeout (i : Inbound) (backoff : Nat) (deadline : Option Nat)
    (now n : Nat) : (i.fill backoff deadline now n).outcome ≠ .failed .timeout := by
  rcases i.fill_cases backoff deadline now n with ⟨hfull, -⟩ | ⟨hend, -⟩ | ⟨hexpired, -⟩
  · simp [hfull]
  · rw [hend]
    exact endOf_ne_timeout _ _
  · simp [hexpired]

theorem fillFrom_brisk {limit : Nat} (staysOpen : Bool) (backoff : Nat) (deadline : Option Nat)
    (arrivals : List Arrival) (now n : Nat)
    (h : (fillFrom staysOpen backoff deadline arrivals now n).outcome ≠ .expired)
    (hbrisk : Brisk ⟨arrivals, staysOpen⟩ backoff limit) :
    Brisk (fillFrom staysOpen backoff deadline arrivals now n).inbound backoff limit := by
  fun_induction fillFrom staysOpen backoff deadline arrivals now n with
  | case1 | case3 | case4 | case15 => exact hbrisk
  | case5 data rest now n front left hsplit => exact hbrisk.tail.bytes left
  | case6 data rest now n hsplit filled ih => exact ih h hbrisk.tail
  | case7 duration rest now n wake htime ih | case9 wake rest now n htime ih =>
      exact ih h hbrisk.tail
  | case11 error rest now n hretry ih | case12 error rest now n hretry htime ih =>
      exact ih h hbrisk.tail
  | case14 error rest now n error' hretry => exact hbrisk.tail
  | _ => simp [fillFrom.expire] at h

end Inbound

namespace Call

variable {σ α β ν : Type}

/-- From where `P` holds the call gets to where it holds again, and does not fail with this
error. -/
def Safe (P : σ → Prop) (error : ChannelError) (act : Call σ α) : Prop :=
  ∀ ⦃s t : Scene σ⦄ ⦃ended : Except Halt α⦄, P s.session → act.run s = (ended, t) →
    ended ≠ .error (.failed error) ∧ P t.session

namespace Safe

variable {P : σ → Prop} {error : ChannelError}

theorem of_keeps {view : σ → ν} {act : Call σ α} (hspares : Spares error act)
    (hkeeps : Keeps view act) (hview : ∀ {s t}, view t = view s → P s → P t) :
    Safe P error act := by
  intro s t ended hs hrun
  have hquiet := hspares s
  rw [hrun] at hquiet
  exact ⟨hquiet, hview (hkeeps.of_run hrun) hs⟩

theorem bind {act : Call σ α} {next : α → Call σ β} (hact : Safe P error act)
    (hnext : ∀ a, Safe P error (next a)) : Safe P error (act >>= next) := by
  intro s t ended hs hrun
  rw [run_bind] at hrun
  cases hfirst : act.run s with
  | mk first u =>
      obtain ⟨hquiet, hu⟩ := hact hs hfirst
      rw [hfirst] at hrun
      cases first with
      | ok a => exact hnext a hu hrun
      | error halt =>
          obtain ⟨rfl, rfl⟩ := Prod.mk.inj hrun
          exact ⟨by simpa using hquiet, hu⟩

end Safe

end Call

theorem FillEnd.expired_of_ended {α : Type} {a : α} {outcome : FillEnd}
    (h : outcome.ended a = .error (.failed .timeout)) (hquiet : outcome ≠ .failed .timeout) :
    outcome = .expired := by
  cases outcome with
  | failed error =>
      exact absurd (congrArg FillEnd.failed (Halt.failed.inj (Except.error.inj h))) hquiet
  | full | stalled => cases h
  | expired => rfl

namespace StreamSession

/-- No wait of this session reaches its limit, if it has one. -/
def Unhurried (s : StreamSession μ) : Prop :=
  ∀ limit transport, s.config.recvTimeout = some limit → s.transport = some transport →
    transport.inbound.Brisk s.config.retryBackoff limit

theorem Unhurried.congr {s t : StreamSession μ}
    (h : (t.config, t.transport) = (s.config, s.transport)) (hs : s.Unhurried) :
    t.Unhurried := by
  obtain ⟨hconfig, htransport⟩ := Prod.mk.inj h
  rw [Unhurried, hconfig, htransport]
  exact hs

theorem Unhurried.of_patient {s : StreamSession μ} (h : s.config.recvTimeout = none) :
    s.Unhurried := by
  intro limit transport hlimit
  rw [h] at hlimit
  cases hlimit

section

variable {s t : Scene (StreamSession μ)}

theorem brisk_fill {transport : ByteStream} {n : Nat} {deadline : Option Nat}
    (hs : s.session.Unhurried) (htransport : s.session.transport = some transport)
    (hquiet : (transport.inbound.fill s.session.config.retryBackoff deadline s.now n).outcome ≠
      .expired) :
    ∀ limit, s.session.config.recvTimeout = some limit →
      (transport.inbound.fill s.session.config.retryBackoff deadline s.now n).inbound.Brisk
        s.session.config.retryBackoff limit :=
  fun limit hlimit =>
    Inbound.fillFrom_brisk _ _ _ _ _ _ hquiet (hs limit transport hlimit htransport)

theorem pullExactly_unhurried {n : Nat} {deadline : Option Nat} {ended : Except Halt (List UInt8)}
    (hs : s.session.Unhurried) (hrun : (pullExactly n deadline).run s = (ended, t))
    (hquiet : ended ≠ .error (.failed .timeout)) : t.session.Unhurried := by
  cases htransport : s.session.transport with
  | none =>
      rw [pullExactly, Call.run_bind, run_pull_closed htransport] at hrun
      obtain ⟨rfl, rfl⟩ := Prod.mk.inj hrun
      exact hs
  | some transport =>
      rw [run_pullExactly htransport] at hrun
      obtain ⟨rfl, rfl⟩ := Prod.mk.inj hrun
      intro limit transport' hlimit htransport'
      obtain rfl := Option.some.inj htransport'
      refine brisk_fill hs htransport (fun hexpired => hquiet ?_) limit hlimit
      rw [hexpired]
      rfl

theorem pullExactly_ne_timeout {n : Nat} {ended : Except Halt (List UInt8)} (hn : 0 < n)
    (hrun : (pullExactly n none).run s = (ended, t)) : ended ≠ .error (.failed .timeout) := by
  rcases pullExactly_cases hn hrun with (⟨bytes, rfl, -⟩ | ⟨rfl, -⟩) | ⟨-, hdeadline, -⟩
  · simp
  · intro hshortage
    exact s.session.shortage_ne_timeout (Except.error.inj hshortage)
  · exact absurd rfl hdeadline

theorem pullFirst_ne_timeout {limit : Nat} {ended : Except Halt (List UInt8)}
    (hs : s.session.Unhurried) (hlimit : s.session.config.recvTimeout = some limit)
    (hrun : (pullExactly 1 (some (s.now + limit))).run s = (ended, t)) :
    ended ≠ .error (.failed .timeout) := by
  cases htransport : s.session.transport with
  | none =>
      rw [pullExactly, Call.run_bind, run_pull_closed htransport] at hrun
      obtain ⟨rfl, rfl⟩ := Prod.mk.inj hrun
      simp [closedError]
  | some transport =>
      rw [run_pullExactly htransport] at hrun
      obtain ⟨rfl, rfl⟩ := Prod.mk.inj hrun
      obtain ⟨d, hd, hwait⟩ := hs limit transport hlimit htransport _ List.suffix_rfl
      intro htimeout
      exact Inbound.fillFrom_in_time hwait (Nat.add_le_add_left hd s.now)
        (FillEnd.expired_of_ended htimeout (Inbound.outcome_fill_ne_timeout _ _ _ _ _))

theorem recvTimeout_of_idleLimit {s : StreamSession μ} {limit : Nat}
    (h : s.idleLimit = some limit) : s.config.recvTimeout = some limit := by
  rw [idleLimit] at h
  split at h
  · cases h
  · exact h

end

theorem safe_readHeader : Call.Safe Unhurried .timeout (readHeader (μ := μ)) := by
  intro s t ended hs hrun
  rw [run_readHeader] at hrun
  cases hlimit : s.session.idleLimit with
  | none =>
      rw [hlimit] at hrun
      have hquiet := pullExactly_ne_timeout (by decide) hrun
      exact ⟨hquiet, pullExactly_unhurried hs hrun hquiet⟩
  | some limit =>
      simp only [hlimit] at hrun
      rw [readHeaderBy_eq, Call.run_bind] at hrun
      cases hfirst : (pullExactly 1 (some (s.now + limit))).run s with
      | mk first u =>
          have hquiet := pullFirst_ne_timeout hs (recvTimeout_of_idleLimit hlimit) hfirst
          have hu := pullExactly_unhurried hs hfirst hquiet
          rw [hfirst] at hrun
          cases first with
          | error halt =>
              obtain ⟨rfl, rfl⟩ := Prod.mk.inj hrun
              exact ⟨hquiet, hu⟩
          | ok front =>
              dsimp only at hrun
              rw [Call.run_bind] at hrun
              cases hsecond : (pullExactly (headerSize - 1) none).run u with
              | mk second v =>
                  have hquiet' := pullExactly_ne_timeout (by decide) hsecond
                  have hv := pullExactly_unhurried hu hsecond hquiet'
                  rw [hsecond] at hrun
                  cases second with
                  | ok back =>
                      obtain ⟨rfl, rfl⟩ := Prod.mk.inj hrun
                      exact ⟨by simp, hv⟩
                  | error halt =>
                      obtain ⟨rfl, rfl⟩ := Prod.mk.inj hrun
                      exact ⟨by simpa using hquiet', hv⟩

theorem safe_readBody (range : SliceRange) :
    Call.Safe Unhurried .timeout (readBody (μ := μ) range) := by
  intro s t ended hs hrun
  have hquiet := spares_readBody range s
  rw [hrun] at hquiet
  refine ⟨hquiet, ?_⟩
  cases htransport : s.session.transport with
  | none =>
      rw [readBody, Call.run_bind, run_pull_closed htransport] at hrun
      obtain ⟨rfl, rfl⟩ := Prod.mk.inj hrun
      exact hs
  | some transport =>
      rw [run_readBody htransport] at hrun
      obtain ⟨rfl, rfl⟩ := Prod.mk.inj hrun
      intro limit transport' hlimit htransport'
      obtain rfl := Option.some.inj htransport'
      exact brisk_fill hs htransport (Inbound.fillFrom_ne_expired _ _ _ _ _) limit hlimit

theorem safe_onReceiver {α : Type} {act : Call (Receiver μ) α} (h : Call.Spares .timeout act) :
    Call.Safe Unhurried .timeout (onReceiver act) := by
  have hkeeps : Call.Keeps (fun s : StreamSession μ => (s.config, s.transport)) (onReceiver act) :=
    fun _ => rfl
  exact .of_keeps (spares_onReceiver h) hkeeps Unhurried.congr

variable [Message μ]

theorem safe_receiveFrame (flags : Flags) :
    Call.Safe Unhurried .timeout (receiveFrame (μ := μ) flags) := by
  have hstill : ∀ {s t : StreamSession μ}, id t = id s → s.Unhurried → t.Unhurried := by
    rintro s t rfl hs
    exact hs
  rw [receiveFrame_eq]
  refine .bind safe_readHeader fun bytes => .bind
    (.of_keeps (.ofExcept (Header.parse_ne_timeout _)) (.ofExcept _) hstill) fun h =>
    .bind (.of_keeps .session .session hstill) fun s =>
    .bind (safe_onReceiver (Receiver.spares_onHeader _ _)) fun demand => ?_
  cases demand with
  | frame | delivery => exact safe_onReceiver (Receiver.spares_conclude flags _)
  | body range =>
      exact .bind (safe_readBody range) fun _ => safe_onReceiver
        (.bind (Receiver.spares_onBody _ _) fun _ => Receiver.spares_conclude _ _)

theorem safe_receiveMessage (flags : Flags) :
    Call.Safe Unhurried .timeout (⟨receiveMessage flags⟩ : Call (StreamSession μ) μ) := by
  intro s t ended hs hrun
  dsimp only at hrun
  fun_induction receiveMessage flags s with
  | case1 s u hframe ih => exact ih (safe_receiveFrame flags hs hframe).2 hrun
  | case2 s m u hframe =>
      obtain ⟨rfl, rfl⟩ := Prod.mk.inj hrun
      exact ⟨by simp, (safe_receiveFrame flags hs hframe).2⟩
  | case3 s halt u hframe =>
      obtain ⟨rfl, rfl⟩ := Prod.mk.inj hrun
      obtain ⟨hquiet, hu⟩ := safe_receiveFrame flags hs hframe
      exact ⟨by simpa using hquiet, hu⟩

/-- A session whose waits do not reach their limit is never given up. -/
theorem safe_receive (flags : Flags) : Call.Safe Unhurried .timeout (receive (μ := μ) flags) := by
  intro s t ended hs hrun
  obtain ⟨log, u, hmessage, rfl⟩ := receive_settled hrun
  obtain ⟨hquiet, hu⟩ := safe_receiveMessage flags (s := { s with log }) hs hmessage
  exact ⟨hquiet, hu⟩

end StreamSession

end MessageChannel
