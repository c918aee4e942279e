import MessageChannel.Proofs.Timeouts

namespace MessageChannel

variable {μ : Type}

/-- How often a reader may at most be held up by this, at some time. -/
def Arrival.weight (now : Nat) : Arrival → Nat
  | .pause duration => duration + 2
  | .silentUntil wake => wake - now + 1
  | _ => 1

theorem Arrival.weight_le (a : Arrival) {now later : Nat} (h : now ≤ later) :
    a.weight later ≤ a.weight now := by
  cases a <;> simp only [weight] <;> omega

theorem Arrival.weight_pos (a : Arrival) (now : Nat) : 0 < a.weight now := by
  cases a <;> simp only [weight] <;> omega

namespace Inbound

def weightOf (now : Nat) : List Arrival → Nat
  | [] => 0
  | a :: rest => a.weight now + weightOf now rest

def weight (now : Nat) (i : Inbound) : Nat := weightOf now i.arrivals

theorem weightOf_le (arrivals : List Arrival) {now later : Nat} (h : now ≤ later) :
    weightOf later arrivals ≤ weightOf now arrivals := by
  induction arrivals with
  | nil => exact Nat.le_refl _
  | cons a rest ih => exact Nat.add_le_add (a.weight_le h) ih

theorem weightOf_lt_cons (a : Arrival) (rest : List Arrival) {now later : Nat} (h : now ≤ later) :
    weightOf later rest < weightOf now (a :: rest) := by
  have hrest := weightOf_le rest h
  have hpos := a.weight_pos now
  simp only [weightOf]
  omega

theorem le_of_inTime {deadline : Option Nat} {wake : Nat} (h : inTime deadline wake = true) :
    ∀ limit ∈ deadline, wake ≤ limit := by
  rintro limit rfl
  simpa [inTime] using h

theorem exists_of_not_inTime {deadline : Option Nat} {wake : Nat}
    (h : ¬inTime deadline wake = true) : ∃ limit, deadline = some limit ∧ limit < wake := by
  cases deadline with
  | none => simp [inTime] at h
  | some limit => exact ⟨limit, rfl, by simpa [inTime] using h⟩

/-- No read adds to what holds its reader up. -/
theorem fillFrom_weight (staysOpen : Bool) (backoff : Nat) (deadline : Option Nat)
    (arrivals : List Arrival) (now n : Nat) (hdeadline : ∀ limit ∈ deadline, now ≤ limit) :
    let filled := fillFrom staysOpen backoff deadline arrivals now n
    now ≤ filled.now ∧ filled.inbound.weight filled.now ≤ weightOf now arrivals := by
  fun_induction fillFrom staysOpen backoff deadline arrivals now n with
  | case1 | case3 | case4 | case15 => exact ⟨Nat.le_refl _, Nat.le_refl _⟩
  | case2 now n hopen limit => exact ⟨hdeadline limit ‹deadline = some limit›, Nat.le_refl _⟩
  | case5 => exact ⟨Nat.le_refl _, Nat.le_refl _⟩
  | case6 data rest now n hsplit filled ih =>
      obtain ⟨hnow, hweight⟩ := ih hdeadline
      exact ⟨hnow, hweight.trans (weightOf_lt_cons _ _ (Nat.le_refl _)).le⟩
  | case7 duration rest now n wake htime ih =>
      obtain ⟨hnow, hweight⟩ := ih (le_of_inTime htime)
      have hwake : now ≤ wake := Nat.le_add_right _ _
      exact ⟨hwake.trans hnow, hweight.trans (weightOf_lt_cons _ _ hwake).le⟩
  | case8 duration rest now n wake htime =>
      obtain ⟨limit, rfl, hlate⟩ := exists_of_not_inTime htime
      have hlimit := hdeadline limit rfl
      have hrest := weightOf_le rest hlimit
      refine ⟨hlimit, ?_⟩
      simp only [fillFrom.expire, weight, weightOf, Arrival.weight, Option.getD_some, wake]
      omega
  | case9 wake rest now n htime ih =>
      obtain ⟨hnow, hweight⟩ := ih (le_of_inTime htime)
      have hwake : now ≤ max now wake := Nat.le_max_left _ _
      exact ⟨hwake.trans hnow, hweight.trans (weightOf_lt_cons _ _ hwake).le⟩
  | case10 wake rest now n htime =>
      obtain ⟨limit, rfl, hlate⟩ := exists_of_not_inTime htime
      have hlimit := hdeadline limit rfl
      exact ⟨hlimit, Nat.add_le_add (Arrival.weight_le (.silentUntil wake) hlimit)
        (weightOf_le rest hlimit)⟩
  | case11 error rest now n hretry ih =>
      obtain ⟨hnow, hweight⟩ := ih hdeadline
      exact ⟨hnow, hweight.trans (weightOf_lt_cons _ _ (Nat.le_refl _)).le⟩
  | case12 error rest now n hretry htime ih =>
      obtain ⟨hnow, hweight⟩ := ih (le_of_inTime htime)
      have hwake : now ≤ now + backoff := Nat.le_add_right _ _
      exact ⟨hwake.trans hnow, hweight.trans (weightOf_lt_cons _ _ hwake).le⟩
  | case13 error rest now n hretry htime =>
      obtain ⟨limit, rfl, hlate⟩ := exists_of_not_inTime htime
      have hlimit := hdeadline limit rfl
      exact ⟨hlimit, (weightOf_lt_cons _ _ hlimit).le⟩
  | case14 error rest now n error' hretry =>
      exact ⟨Nat.le_refl _, (weightOf_lt_cons _ _ (Nat.le_refl _)).le⟩

theorem weight_fill (i : Inbound) (backoff : Nat) {deadline : Option Nat} {now : Nat}
    (hdeadline : ∀ limit ∈ deadline, now ≤ limit) (n : Nat) :
    (i.fill backoff deadline now n).inbound.weight (i.fill backoff deadline now n).now ≤
      i.weight now :=
  (fillFrom_weight _ _ _ _ _ _ hdeadline).2

theorem fillFrom_weight_lt (a : Arrival) {staysOpen : Bool} {backoff now later deadline n : Nat}
    {rest : List Arrival} (hlater : now ≤ later) (hdeadline : later ≤ deadline) (pause : Nat) :
    let filled := fillFrom staysOpen backoff (some deadline) rest later n
    filled.inbound.weight (filled.now + pause) < weightOf now (a :: rest) := by
  intro filled
  have hweight := (fillFrom_weight staysOpen backoff (some deadline) rest later n
    (by rintro limit ⟨⟩; exact hdeadline)).2
  calc filled.inbound.weight (filled.now + pause)
    _ ≤ filled.inbound.weight filled.now := weightOf_le _ (Nat.le_add_right _ _)
    _ ≤ weightOf later rest := hweight
    _ < weightOf now (a :: rest) := weightOf_lt_cons a rest hlater

/-- A reader that gives up, and lets some time pass, is held up less the next time. Only where
nothing more will ever come it is not. -/
theorem fillFrom_expired_weight (staysOpen : Bool) (backoff : Nat) (deadline : Option Nat)
    (arrivals : List Arrival) (now n : Nat) {limit pause : Nat} (hdeadline : deadline = some limit)
    (hnow : now ≤ limit) (hpasses : now < limit + pause)
    (h : (fillFrom staysOpen backoff deadline arrivals now n).outcome = .expired) :
    let filled := fillFrom staysOpen backoff deadline arrivals now n
    (arrivals = [] ∧ staysOpen = true) ∨
      filled.inbound.weight (filled.now + pause) < weightOf now arrivals := by
  -- What the reader meets first either goes by, or it is what the reader gives up at.
  fun_induction fillFrom staysOpen backoff deadline arrivals now n with
  | case2 now n hopen => exact .inl ⟨rfl, hopen⟩
  | case6 data rest now n hsplit filled =>
      subst hdeadline
      exact .inr (fillFrom_weight_lt _ (Nat.le_refl _) hnow pause)
  | case7 duration rest now n wake htime | case9 wake rest now n htime =>
      subst hdeadline
      exact .inr (fillFrom_weight_lt _ (by omega) (le_of_inTime htime _ rfl) pause)
  | case8 duration rest now n wake htime =>
      obtain ⟨_, rfl, hlate⟩ := exists_of_not_inTime htime
      cases hdeadline
      have hrest := weightOf_le rest (hnow.trans (Nat.le_add_right limit pause))
      right
      simp only [fillFrom.expire, weight, weightOf, Arrival.weight, Option.getD_some, wake]
      omega
  | case10 wake rest now n htime =>
      obtain ⟨_, rfl, hlate⟩ := exists_of_not_inTime htime
      cases hdeadline
      have hrest := weightOf_le rest (hnow.trans (Nat.le_add_right limit pause))
      right
      simp only [fillFrom.expire, weight, weightOf, Arrival.weight, Option.getD_some]
      omega
  | case11 error rest now n hretry =>
      subst hdeadline
      exact .inr (fillFrom_weight_lt _ (Nat.le_refl _) hnow pause)
  | case12 error rest now n hretry htime =>
      subst hdeadline
      exact .inr (fillFrom_weight_lt _ (Nat.le_add_right _ _) (le_of_inTime htime _ rfl) pause)
  | case13 error rest now n hretry htime =>
      subst hdeadline
      exact .inr (weightOf_lt_cons _ _ (hnow.trans (Nat.le_add_right limit pause)))
  | _ => simp at h

theorem weight_fill_expired {i : Inbound} {backoff now n limit pause : Nat}
    (hpasses : 0 < limit + pause)
    (h : (i.fill backoff (some (now + limit)) now n).outcome = .expired) :
    let filled := i.fill backoff (some (now + limit)) now n
    (i.arrivals = [] ∧ i.staysOpen = true) ∨
      filled.inbound.weight (filled.now + pause) < i.weight now :=
  fillFrom_expired_weight _ _ _ _ _ _ rfl (Nat.le_add_right _ _) (by omega) h

end Inbound

namespace Call

variable {σ α β : Type}

/-- A measure of the scene that a call never makes larger. -/
def Lowers (size : Scene σ → Nat) (act : Call σ α) : Prop := ∀ s, size (act.run s).2 ≤ size s

namespace Lowers

variable {size : Scene σ → Nat}

theorem of_run {act : Call σ α} (h : Lowers size act) {s t : Scene σ} {ended : Except Halt α}
    (hrun : act.run s = (ended, t)) : size t ≤ size s := by
  have hs := h s
  rwa [hrun] at hs

theorem pure (a : α) : Lowers size (Pure.pure a : Call σ α) := fun _ => Nat.le_refl _

theorem session : Lowers size (Call.session : Call σ σ) := fun _ => Nat.le_refl _

theorem ofExcept (ended : Except ChannelError α) :
    Lowers size (Call.ofExcept ended : Call σ α) := by
  cases ended <;> exact fun _ => Nat.le_refl _

theorem bind {act : Call σ α} {next : α → Call σ β} (hact : Lowers size act)
    (hnext : ∀ a, Lowers size (next a)) : Lowers size (act >>= next) := by
  intro s
  rw [run_bind]
  cases hrun : act.run s with
  | mk ended t =>
      cases ended with
      | ok a => exact (hnext a t).trans (hact.of_run hrun)
      | error halt => exact hact.of_run hrun

end Lowers

end Call

namespace StreamSession

/-- How often at most the reader of a session may still be held up. -/
def weight (s : Scene (StreamSession μ)) : Nat :=
  (s.session.transport.map fun t => t.inbound.weight s.now).getD 0

theorem weight_congr {s t : Scene (StreamSession μ)}
    (htransport : t.session.transport = s.session.transport) (hnow : t.now = s.now) :
    weight t = weight s := by
  rw [weight, weight, htransport, hnow]

theorem weight_later_le (s : Scene (StreamSession μ)) (pause : Nat) :
    weight { s with now := s.now + pause } ≤ weight s := by
  cases htransport : s.session.transport with
  | none => simp [weight, htransport]
  | some transport =>
      have hlater := Inbound.weightOf_le transport.inbound.arrivals (Nat.le_add_right s.now pause)
      simpa [weight, htransport, Inbound.weight] using hlater

theorem weight_pullExactly {n : Nat} {deadline : Option Nat} (s : Scene (StreamSession μ))
    (hdeadline : ∀ limit ∈ deadline, s.now ≤ limit) :
    weight ((pullExactly n deadline).run s).2 ≤ weight s := by
  cases htransport : s.session.transport with
  | none => rw [pullExactly, Call.run_bind, run_pull_closed htransport]
  | some transport =>
      rw [run_pullExactly htransport]
      simpa [weight, htransport] using transport.inbound.weight_fill _ hdeadline n

theorem lowers_pullExactly (n : Nat) : Call.Lowers weight (pullExactly (μ := μ) n none) :=
  fun s => weight_pullExactly s (by simp)

theorem lowers_readHeader : Call.Lowers weight (readHeader (μ := μ)) := by
  intro s
  rw [run_readHeader]
  split
  · next limit hlimit =>
      rw [readHeaderBy_eq, Call.run_bind]
      have hfirst : weight ((pullExactly 1 (some (s.now + limit))).run s).2 ≤ weight s :=
        weight_pullExactly s (by rintro limit' ⟨⟩; exact Nat.le_add_right _ _)
      cases hrun : (pullExactly 1 (some (s.now + limit))).run s with
      | mk first u =>
          rw [hrun] at hfirst
          cases first with
          | ok front =>
              have hrest : Call.Lowers weight (do
                  let rest ← pullExactly (headerSize - 1) none
                  return front ++ rest : Call (StreamSession μ) (List UInt8)) :=
                .bind (lowers_pullExactly _) fun _ => .pure _
              exact (hrest u).trans hfirst
          | error halt => exact hfirst
  · exact lowers_pullExactly _ s

theorem lowers_readBody (range : SliceRange) : Call.Lowers weight (readBody (μ := μ) range) := by
  intro s
  cases htransport : s.session.transport with
  | none => rw [readBody, Call.run_bind, run_pull_closed htransport]
  | some transport =>
      rw [run_readBody htransport]
      have hdeadline : ∀ limit ∈ (none : Option Nat), s.now ≤ limit := by simp
      simpa [weight, htransport] using transport.inbound.weight_fill _ hdeadline range.length

theorem lowers_onReceiver {α : Type} {act : Call (Receiver μ) α} (hact : Call.Timeless act) :
    Call.Lowers weight (onReceiver act) := by
  intro s
  obtain ⟨log, hrun⟩ := hact.run_within (fun s : StreamSession μ => s.receiver)
    (fun r s => { s with receiver := r }) s
  rw [onReceiver, hrun]
  exact (weight_congr rfl rfl).le

/-- A header that is not waited for has come closer, unless there is none. -/
theorem readHeader_timeout_weight {s t : Scene (StreamSession μ)} {limit pause : Nat}
    (hlimit : s.session.config.recvTimeout = some limit) (hpasses : 0 < limit + pause)
    (hrun : readHeader.run s = (.error (.failed .timeout), t)) :
    t.session.course = some ⟨[], true⟩ ∨ weight { t with now := t.now + pause } < weight s := by
  have hcourse := congrArg Gist.course (readHeader_timeout_gist hrun)
  obtain ⟨limit', transport, hlimit', htransport, hexpired, rfl⟩ := readHeader_expired hrun
  obtain rfl := Option.some.inj ((recvTimeout_of_idleLimit hlimit').symm.trans hlimit)
  rcases Inbound.weight_fill_expired hpasses hexpired with ⟨hnothing, hopen⟩ | hlt
  · refine .inl (hcourse.trans ?_)
    simp only [gist, course, htransport, Option.map_some, Inbound.course, hnothing, hopen]
    rfl
  · refine .inr ?_
    simpa [weight, htransport] using hlt

variable [Message μ]

theorem lowers_receiveFrame (flags : Flags) :
    Call.Lowers weight (receiveFrame (μ := μ) flags) := by
  rw [receiveFrame_eq]
  refine .bind lowers_readHeader fun bytes => .bind (.ofExcept _) fun h => .bind .session fun s =>
    .bind (lowers_onReceiver (Receiver.timeless_onHeader _ _)) fun demand => ?_
  cases demand with
  | frame | delivery => exact lowers_onReceiver (Receiver.timeless_conclude flags _)
  | body range =>
      exact .bind (lowers_readBody range) fun _ =>
        lowers_onReceiver (Receiver.timeless_afterBody _ _ _)

theorem lowers_receiveMessage (flags : Flags) :
    Call.Lowers weight (⟨receiveMessage flags⟩ : Call (StreamSession μ) μ) := by
  intro s
  dsimp only
  fun_induction receiveMessage flags s with
  | case1 s t hframe ih => exact ih.trans ((lowers_receiveFrame flags).of_run hframe)
  | case2 s m t hframe => exact (lowers_receiveFrame flags).of_run hframe
  | case3 s halt t hframe => exact (lowers_receiveFrame flags).of_run hframe

theorem lowers_receive (flags : Flags) : Call.Lowers weight (receive (μ := μ) flags) := by
  intro s
  cases hrun : (receive flags).run s with
  | mk ended t =>
      obtain ⟨log, u, hmessage, rfl⟩ := receive_settled hrun
      have hweight := (lowers_receiveMessage flags).of_run (s := { s with log }) hmessage
      exact hweight

variable {flags : Flags} {s t : Scene (StreamSession μ)} {limit pause : Nat}

theorem receiveMessage_timeout_weight (hlimit : s.session.config.recvTimeout = some limit)
    (hpasses : 0 < limit + pause)
    (hrun : receiveMessage flags s = (.error (.failed .timeout), t)) :
    t.session.course = some ⟨[], true⟩ ∨ weight { t with now := t.now + pause } < weight s := by
  fun_induction receiveMessage flags s with
  | case1 s u hframe ih =>
      have hown := (keeps_receiveFrame flags).of_run hframe
      simp only [own, Prod.mk.injEq] at hown
      obtain hsilent | hlt := ih (by rw [hown.2.1, hlimit]) hrun
      · exact .inl hsilent
      · exact .inr (hlt.trans_le ((lowers_receiveFrame flags).of_run hframe))
  | case2 s m u hframe => simp at hrun
  | case3 s halt u hframe =>
      obtain ⟨hhalt, rfl⟩ := Prod.mk.inj hrun
      rw [Except.error.inj hhalt] at hframe
      exact readHeader_timeout_weight hlimit hpasses (readHeader_of_receiveFrame hframe)

/-- A call that is given up has come closer to the next message, unless there is none. -/
theorem receive_timeout_weight (hlimit : s.session.config.recvTimeout = some limit)
    (hpasses : 0 < limit + pause)
    (hrun : (receive flags).run s = (.error (.failed .timeout), t)) :
    t.session.course = some ⟨[], true⟩ ∨ weight { t with now := t.now + pause } < weight s := by
  obtain ⟨log, u, hmessage, rfl⟩ := receive_settled hrun
  have hweight := receiveMessage_timeout_weight (s := { s with log }) hlimit hpasses hmessage
  exact hweight

/-- Where nothing more will ever come, who waits for ever does so. -/
theorem receive_of_silent {ended : Except Halt μ} (hs : s.session.Unhurried)
    (hcourse : s.session.course = some ⟨[], true⟩) (hrun : (receive flags).run s = (ended, t)) :
    ended = .error .stalled := by
  obtain ⟨log, u, hmessage, rfl⟩ := receive_settled hrun
  cases hread : readHeader.run { s with log } with
  | mk header v =>
      have hquiet := (safe_readHeader (s := { s with log }) hs hread).1
      have hgist := readHeader_gist hread hquiet
      rw [Gist.pull_of_course (c := ⟨[], true⟩) hcourse] at hgist
      obtain rfl : header = .error .stalled := (Prod.mk.inj hgist).1
      rw [receiveMessage_eq, receiveFrame, Call.run_bind, hread] at hmessage
      exact (Prod.mk.inj hmessage).1.symm

end StreamSession

end MessageChannel
