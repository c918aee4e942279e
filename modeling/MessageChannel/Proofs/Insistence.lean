import MessageChannel.Proofs.History
import MessageChannel.Proofs.Progress

namespace MessageChannel.StreamSession

variable {μ : Type} [Message μ]

/-- A call to receive that is made again whenever it is given up, each time after a pause, as long
as there are pauses to be made. -/
def insist (flags : Flags) : List Nat → Scene (StreamSession μ) →
    Except Halt μ × Scene (StreamSession μ)
  | [], s => (receive flags).run s
  | pause :: pauses, s =>
      match (receive flags).run s with
      | (.error (.failed .timeout), t) => insist flags pauses { t with now := t.now + pause }
      | done => done

/-- What calls return that are made one after the other, each until it is not given up. One that
still is, or that waits for ever, is the last and returns nothing. -/
def insistAll : List (Flags × List Nat) → Scene (StreamSession μ) → List (Flags × Except Halt μ)
  | [], _ => []
  | (flags, pauses) :: plan, s =>
      match insist flags pauses s with
      | (.error (.failed .timeout), _) | (.error .stalled, _) => []
      | (ended, t) => (flags, ended) :: insistAll plan t

section

variable {flags : Flags} {pauses : List Nat} {pause : Nat} {plan : List (Flags × List Nat)}
  {s t u : Scene (StreamSession μ)} {ended : Except Halt μ}

theorem insist_cons_of_timeout (hrun : (receive flags).run s = (.error (.failed .timeout), t)) :
    insist flags (pause :: pauses) s = insist flags pauses { t with now := t.now + pause } := by
  rw [insist, hrun]

theorem insist_of_run (hrun : (receive flags).run s = (ended, t))
    (hquiet : ended ≠ .error (.failed .timeout)) : insist flags pauses s = (ended, t) := by
  cases pauses with
  | nil => exact hrun
  | cons pause pauses =>
      rw [insist, hrun]
      split
      · next hended =>
          obtain ⟨rfl, -⟩ := Prod.mk.inj hended
          exact absurd rfl hquiet
      · rfl

theorem insistAll_cons_of_end (hrun : insist flags pauses s = (ended, t))
    (hended : ended = .error (.failed .timeout) ∨ ended = .error .stalled) :
    insistAll ((flags, pauses) :: plan) s = [] := by
  rcases hended with rfl | rfl <;> rw [insistAll, hrun]

theorem insistAll_cons (hrun : insist flags pauses s = (ended, t))
    (hquiet : ended ≠ .error (.failed .timeout)) (hstalled : ended ≠ .error .stalled) :
    insistAll ((flags, pauses) :: plan) s = (flags, ended) :: insistAll plan t := by
  rw [insistAll, hrun]
  split
  · next hended => exact absurd (Prod.mk.inj hended).1 hquiet
  · next hended => exact absurd (Prod.mk.inj hended).1 hstalled
  · next hended =>
      obtain ⟨rfl, rfl⟩ := Prod.mk.inj hended
      rfl

end

omit [Message μ] in
theorem Blank.tidy {registry : Registry μ} {config : Config} {s : StreamSession μ}
    (h : Blank registry config s) : s.receiver.Tidy := ⟨by rw [h.assembly]; rfl, h.message⟩

section

variable {registry : Registry μ} {config : Config} {flags : Flags} {pauses : List Nat}
  {s t s' t' : Scene (StreamSession μ)} {ended ended' : Except Halt μ}

/-- Insistence leaves nothing of a message behind. -/
theorem Blank.insist (hs : Blank registry config s.session)
    (hrun : StreamSession.insist flags pauses s = (ended, t)) (hback : ended ≠ .error .stalled) :
    Blank registry config t.session := by
  induction pauses generalizing s with
  | nil => exact hs.receive hrun hback
  | cons pause pauses ih =>
      cases hfirst : (StreamSession.receive flags).run s with
      | mk first u =>
          by_cases htimeout : first = .error (.failed .timeout)
          · subst htimeout
            rw [insist_cons_of_timeout hfirst] at hrun
            have hu := hs.receive hfirst (by simp)
            exact ih (s := { u with now := u.now + pause }) hu hrun
          · rw [insist_of_run hfirst htimeout] at hrun
            obtain ⟨rfl, rfl⟩ := Prod.mk.inj hrun
            exact hs.receive hfirst hback

theorem weight_insist_le (hrun : insist flags pauses s = (ended, t)) : weight t ≤ weight s := by
  induction pauses generalizing s with
  | nil => exact (lowers_receive flags).of_run hrun
  | cons pause pauses ih =>
      cases hfirst : (receive flags).run s with
      | mk first u =>
          have hu := (lowers_receive flags).of_run hfirst
          by_cases htimeout : first = .error (.failed .timeout)
          · subst htimeout
            rw [insist_cons_of_timeout hfirst] at hrun
            exact (ih hrun).trans ((weight_later_le u pause).trans hu)
          · rw [insist_of_run hfirst htimeout] at hrun
            obtain ⟨rfl, rfl⟩ := Prod.mk.inj hrun
            exact hu

/-- What a session receives that waits for ever, another one that does so receives from behind a
call that was given up. -/
theorem exists_resumed (hs : Blank registry config s.session)
    (hess : s'.session.essence = s.session.essence) (hs' : s'.session.Unhurried)
    (hrun : (receive flags).run s = (.error (.failed .timeout), t))
    (hrun' : (receive flags).run s' = (ended', t')) :
    ∃ v, (receive flags).run { t with session := t.session.patient } = (ended', v) ∧
      t'.session.essence = v.session.essence := by
  generalize hpatient : (receive flags).run { t with session := t.session.patient } = answer
  obtain ⟨answer, v⟩ := answer
  have hresumed : ended' = answer ∧ t'.session.essence = v.session.essence := by
    refine receive_resumed hs.tidy hrun hess ?_ hs' ?_ hrun' hpatient
    exacts [rfl, unhurried_patient _]
  exact ⟨v, by rw [hresumed.1], hresumed.2⟩

/-- Who insists until there is an answer has the answer that who waits for ever has. -/
theorem insist_agrees (hs : Blank registry config s.session)
    (hess : s'.session.essence = s.session.essence) (hs' : s'.session.Unhurried)
    (hrun : insist flags pauses s = (ended, t)) (hquiet : ended ≠ .error (.failed .timeout))
    (hrun' : (receive flags).run s' = (ended', t')) :
    ended' = ended ∧ t'.session.essence = t.session.essence := by
  induction pauses generalizing s s' t' with
  | nil =>
      exact goesBy_receive_essence flags hess hrun' hrun (safe_receive flags hs' hrun').1 hquiet
  | cons pause pauses ih =>
      cases hfirst : (receive flags).run s with
      | mk first u =>
          by_cases htimeout : first = .error (.failed .timeout)
          · subst htimeout
            rw [insist_cons_of_timeout hfirst] at hrun
            obtain ⟨v, hpatient, hv⟩ := exists_resumed hs hess hs' hfirst hrun'
            have hu := hs.receive hfirst (by simp)
            have hlater : ended' = ended ∧ v.session.essence = t.session.essence := by
              refine ih (s := { u with now := u.now + pause }) hu ?_ ?_ hrun hpatient
              exacts [rfl, unhurried_patient _]
            exact ⟨hlater.1, hv.trans hlater.2⟩
          · rw [insist_of_run hfirst htimeout] at hrun
            obtain ⟨rfl, rfl⟩ := Prod.mk.inj hrun
            exact goesBy_receive_essence flags hess hrun' hfirst (safe_receive flags hs' hrun').1
              hquiet

/-- Between two calls some time passes, if there is a limit and it is zero. -/
def TimePasses (config : Config) (pauses : List Nat) : Prop :=
  ∀ limit, config.recvTimeout = some limit → ∀ pause ∈ pauses, 0 < limit + pause

theorem TimePasses.tail {pause : Nat} (h : TimePasses config (pause :: pauses)) :
    TimePasses config pauses :=
  fun limit hlimit p hp => h limit hlimit p (List.mem_cons_of_mem _ hp)

/-- A call that is given up shows that there is a limit. -/
theorem exists_limit (hs : Blank registry config s.session)
    (hrun : (receive flags).run s = (.error (.failed .timeout), t)) :
    ∃ limit, config.recvTimeout = some limit := by
  cases hlimit : config.recvTimeout with
  | some limit => exact ⟨limit, rfl⟩
  | none =>
      have hpatient : s.session.Unhurried := .of_patient (by rw [hs.config, hlimit])
      exact absurd rfl (safe_receive flags hpatient hrun).1

/-- Who has insisted often enough, and has no answer, waits for something that will not come. -/
theorem insist_timeout (hs : Blank registry config s.session)
    (hess : s'.session.essence = s.session.essence) (hs' : s'.session.Unhurried)
    (henough : weight s ≤ pauses.length) (hpasses : TimePasses config pauses)
    (hrun : insist flags pauses s = (.error (.failed .timeout), t))
    (hrun' : (receive flags).run s' = (ended', t')) : ended' = .error .stalled := by
  induction pauses generalizing s s' t' with
  | nil =>
      obtain ⟨limit, hlimit⟩ := exists_limit hs hrun
      obtain ⟨v, hpatient, -⟩ := exists_resumed hs hess hs' hrun hrun'
      have hpositive : 0 < limit + 1 := Nat.succ_pos _
      rcases receive_timeout_weight (hs.config ▸ hlimit) hpositive hrun with hsilent | hlt
      · exact receive_of_silent (s := { t with session := t.session.patient })
          (unhurried_patient _) hsilent hpatient
      · exact absurd (hlt.trans_le henough) (Nat.not_lt_zero _)
  | cons pause pauses ih =>
      cases hfirst : (receive flags).run s with
      | mk first u =>
          by_cases htimeout : first = .error (.failed .timeout)
          · subst htimeout
            rw [insist_cons_of_timeout hfirst] at hrun
            obtain ⟨limit, hlimit⟩ := exists_limit hs hfirst
            obtain ⟨v, hpatient, -⟩ := exists_resumed hs hess hs' hfirst hrun'
            rcases receive_timeout_weight (hs.config ▸ hlimit)
              (hpasses limit hlimit pause List.mem_cons_self) hfirst with hsilent | hlt
            · exact receive_of_silent (s := { u with session := u.session.patient })
                (unhurried_patient _) hsilent hpatient
            · have hu := hs.receive hfirst (by simp)
              have hless := Nat.le_of_lt_succ (hlt.trans_le henough)
              refine ih (s := { u with now := u.now + pause }) hu ?_ ?_ hless hpasses.tail hrun
                hpatient
              exacts [rfl, unhurried_patient _]
          · rw [insist_of_run hfirst htimeout] at hrun
            exact absurd (Prod.mk.inj hrun).1 htimeout

/-- Whoever insists receives what who waits for ever receives, as far as it is insisted on. -/
theorem insistAll_prefix (hs : Blank registry config s.session)
    (hess : s'.session.essence = s.session.essence) (hs' : s'.session.Unhurried)
    (plan : List (Flags × List Nat)) :
    insistAll plan s <+: (receiveAll (plan.map Prod.fst) s').1 := by
  induction plan generalizing s s' with
  | nil => exact List.nil_prefix
  | cons call plan ih =>
      obtain ⟨flags, pauses⟩ := call
      cases hrun : insist flags pauses s with
      | mk ended t =>
          by_cases hend : ended = .error (.failed .timeout) ∨ ended = .error .stalled
          · rw [insistAll_cons_of_end hrun hend]
            exact List.nil_prefix
          · obtain ⟨hquiet, hstalled⟩ := not_or.1 hend
            cases hrun' : (receive flags).run s' with
            | mk ended' t' =>
                obtain ⟨rfl, hlast⟩ := insist_agrees hs hess hs' hrun hquiet hrun'
                rw [insistAll_cons hrun hquiet hstalled, List.map_cons,
                  receiveAll_cons_of_run hrun' hstalled]
                exact List.cons_prefix_cons.2 ⟨rfl, ih (hs.insist hrun hstalled) hlast
                  (safe_receive flags hs' hrun').2⟩

/-- Whoever insists often enough receives all that who waits for ever receives. -/
theorem insistAll_eq (hs : Blank registry config s.session)
    (hess : s'.session.essence = s.session.essence) (hs' : s'.session.Unhurried)
    {plan : List (Flags × List Nat)}
    (henough : ∀ call ∈ plan, weight s ≤ call.2.length ∧ TimePasses config call.2) :
    insistAll plan s = (receiveAll (plan.map Prod.fst) s').1 := by
  induction plan generalizing s s' with
  | nil => rfl
  | cons call plan ih =>
      obtain ⟨flags, pauses⟩ := call
      obtain ⟨hlength, hpasses⟩ := henough _ List.mem_cons_self
      cases hrun : insist flags pauses s with
      | mk ended t =>
          cases hrun' : (receive flags).run s' with
          | mk ended' t' =>
              by_cases htimeout : ended = .error (.failed .timeout)
              · subst htimeout
                obtain rfl := insist_timeout hs hess hs' hlength hpasses hrun hrun'
                rw [insistAll_cons_of_end hrun (.inl rfl), List.map_cons,
                  receiveAll_cons_of_stalled hrun']
              · obtain ⟨rfl, hlast⟩ := insist_agrees hs hess hs' hrun htimeout hrun'
                by_cases hstalled : ended' = .error .stalled
                · subst hstalled
                  rw [insistAll_cons_of_end hrun (.inr rfl), List.map_cons,
                    receiveAll_cons_of_stalled hrun']
                · rw [insistAll_cons hrun htimeout hstalled, List.map_cons,
                    receiveAll_cons_of_run hrun' hstalled]
                  refine congrArg _ (ih (hs.insist hrun hstalled) hlast
                    (safe_receive flags hs' hrun').2 fun call hcall => ?_)
                  obtain ⟨hcall, hcallPasses⟩ := henough call (List.mem_cons_of_mem _ hcall)
                  exact ⟨(weight_insist_le hrun).trans hcall, hcallPasses⟩

end

/-- A call that is given up loses nothing. It is so only between two messages and before the first
byte of a frame, and has taken in tables at most, of which the last is in force. Who calls again
each time receives what a session receives that waits for ever: never anything else, and all of it
if the calls are enough. -/
theorem receive_again {registry : Registry μ} {config : Config} {s : Scene (StreamSession μ)}
    (hs : Reachable registry config s.session) :
    (∀ flags t, (receive flags).run s = (.error (.failed .timeout), t) →
      s.session.receiver.assembly.inFlight = none ∧ t.session.receiver.assembly.inFlight = none ∧
      ∃ fs told, Tables config.maxPayload s.session.receiver.peerTable fs told ∧
        s.session.Hears (wire fs) t.session ∧ t.session.receiver.peerTable = told) ∧
    (∀ flags log fs demand u v, Passes { s with log } fs demand u →
      Ends flags u demand (.error (.failed .timeout)) v →
      demand = .frame ∧ u.session.receiver.assembly.inFlight = none ∧
        u.session.Hears [] v.session ∧ v.session.receiver = u.session.receiver) ∧
    (∀ flags (t u : Scene (StreamSession μ)) announced ended,
      t.session.receiver.assembly.inFlight = some announced → (receive flags).run t = (ended, u) →
      ended ≠ .error (.failed .timeout)) ∧
    (∀ plan, insistAll plan s <+:
      (receiveAll (plan.map Prod.fst) { s with session := s.session.patient }).1) ∧
    ∃ attempts, ∀ plan,
      (∀ call ∈ plan, attempts ≤ call.2.length ∧ TimePasses config call.2) →
      insistAll plan s =
        (receiveAll (plan.map Prod.fst) { s with session := s.session.patient }).1 := by
  have hblank := hs.blank
  refine ⟨fun flags t hrun => ?_, fun flags log fs demand u v _ hends => hends.of_timeout,
    fun flags t u announced ended hflight hrun => receive_ne_timeout hflight hrun,
    fun plan => ?_, weight s, fun plan henough => ?_⟩
  · have hrests : s.session.receiver.Rests config.maxPayload s.session.receiver.peerTable :=
      ⟨hblank.tidy.inFlight, by rw [hblank.assembly, hblank.config], rfl⟩
    obtain ⟨fs, told, htables, hears, hleft⟩ := receive_timeout hrests hrun
    exact ⟨hrests.inFlight, hleft.inFlight, fs, told, htables, hears, hleft.peerTable⟩
  · refine insistAll_prefix hblank ?_ ?_ plan
    exacts [rfl, unhurried_patient _]
  · refine insistAll_eq hblank ?_ ?_ henough
    exacts [rfl, unhurried_patient _]

/-- A session whose peer is silent for longer than the limit, then sends a table, and is silent
again before the message that follows. -/
def hesitant : Scene (StreamSession AnyMessage) where
  session := .new (.ofVersion 1) { recvTimeout := some 30 } { inbound :=
    { arrivals := [.pause 50, .bytes (tableFrame (.ofVersion (μ := AnyMessage) 2)).encode,
        .pause 40, .bytes letter.encode] } }

theorem reachable_hesitant :
    Reachable (.ofVersion 1) { recvTimeout := some 30 } hesitant.session := .new _

theorem receive_again_hesitant :
    ((receive .none).run hesitant).1 = .error (.failed .timeout) ∧
    ((insistAll [(.none, [5, 0, 0])] hesitant).map fun call => call.2.isOk) = [true] ∧
    insistAll [(.none, [5, 0, 0])] hesitant <+:
      (receiveAll [.none] { hesitant with session := hesitant.session.patient }).1 :=
  ⟨by decide +kernel, by decide +kernel, (receive_again reachable_hesitant).2.2.2.1 _⟩

end MessageChannel.StreamSession
