import MessageChannel.Proofs.Remnants

namespace MessageChannel

variable {μ : Type}

namespace Receiver

/-- A receiver between two messages, with nothing kept of the last one but its memory. -/
structure Tidy (r : Receiver μ) : Prop where
  finished : r.assembly.finish = r.assembly
  message : r.message = none

namespace Tidy

variable {r r' : Receiver μ}

theorem inFlight (hr : r.Tidy) : r.assembly.inFlight = none := by
  rw [← hr.finished]
  rfl

/-- To reset such a receiver is to forget what is of no use to it. -/
theorem reset_eq (hr : r.Tidy) : r.reset = r.essence := by
  rw [essence_of_idle hr.inFlight, reset, Assembly.clear, ← hr.message]
  have hfinish : r.assembly.recycle.finish = r.assembly.finish.recycle := rfl
  rw [hfinish, hr.finished]

theorem passedTo (hr : r.Tidy) (h : r.PassedTo r') :
    r'.Tidy ∨ ∃ announced, r'.assembly.inFlight = some announced := by
  cases h with
  | table hidle hdone hmessage => exact .inl ⟨hdone, hmessage.trans hr.message⟩
  | announcement hidle hleft | slice hflight hleft => exact .inr ⟨_, hleft⟩

end Tidy

end Receiver

namespace StreamSession

/-- The session, but it waits for ever. -/
def patient (s : StreamSession μ) : StreamSession μ :=
  { s with config := { s.config with recvTimeout := none } }

theorem unhurried_patient (s : StreamSession μ) : s.patient.Unhurried := .of_patient rfl

section

variable {s t : Scene (StreamSession μ)}

/-- The wait for a header is given up only while its first byte is waited for. -/
theorem readHeader_expired (hrun : readHeader.run s = (.error (.failed .timeout), t)) :
    ∃ limit transport, s.session.idleLimit = some limit ∧
      s.session.transport = some transport ∧
      let filled :=
        transport.inbound.fill s.session.config.retryBackoff (some (s.now + limit)) s.now 1
      filled.outcome = .expired ∧ t = ⟨{ s.session with
        transport := some { transport with inbound := filled.inbound } }, filled.now, s.log⟩ := by
  rw [run_readHeader] at hrun
  cases hlimit : s.session.idleLimit with
  | none =>
      rw [hlimit] at hrun
      exact absurd rfl (pullExactly_ne_timeout (by decide) hrun)
  | some limit =>
      simp only [hlimit] at hrun
      rw [readHeaderBy_eq, Call.run_bind] at hrun
      cases hfirst : (pullExactly 1 (some (s.now + limit))).run s with
      | mk first u =>
          rw [hfirst] at hrun
          cases first with
          | ok front =>
              dsimp only at hrun
              rw [Call.run_bind] at hrun
              cases hsecond : (pullExactly (headerSize - 1) none).run u with
              | mk second v =>
                  rw [hsecond] at hrun
                  cases second with
                  | ok back => cases (Prod.mk.inj hrun).1
                  | error halt =>
                      have hquiet := pullExactly_ne_timeout (by decide) hsecond
                      exact absurd (Except.error.inj (Prod.mk.inj hrun).1 ▸ rfl) hquiet
          | error halt =>
              obtain ⟨hhalt, rfl⟩ := Prod.mk.inj hrun
              obtain rfl := Except.error.inj hhalt
              cases htransport : s.session.transport with
              | none =>
                  rw [pullExactly, Call.run_bind, run_pull_closed htransport] at hfirst
                  simp [closedError] at hfirst
              | some transport =>
                  rw [run_pullExactly htransport] at hfirst
                  obtain ⟨hended, rfl⟩ := Prod.mk.inj hfirst
                  exact ⟨limit, transport, rfl, rfl, FillEnd.expired_of_ended hended
                    (Inbound.outcome_fill_ne_timeout _ _ _ _ _), rfl⟩

/-- A wait for a header that is given up takes nothing off the stream. -/
theorem readHeader_timeout_gist (hrun : readHeader.run s = (.error (.failed .timeout), t)) :
    t.session.gist = s.session.gist := by
  obtain ⟨limit, transport, -, htransport, hexpired, rfl⟩ := readHeader_expired hrun
  have hcourse := Inbound.fillFrom_expired_course _ _ _ _ _ _ hexpired
  have hshort := (Inbound.fillFrom_expired _ _ _ _ _ _ hexpired).2
  rw [List.length_eq_zero_iff.1 (Nat.lt_one_iff.1 hshort)] at hcourse
  simp only [gist, course, htransport, Option.map_some, Gist.mk.injEq, Option.some.injEq, true_and]
  exact hcourse.symm

end

variable [Message μ] {flags : Flags} {s t u : Scene (StreamSession μ)}

/-- A call is given up between two messages, and before anything of the next frame is read. -/
theorem Ends.of_timeout {v : Scene (StreamSession μ)} {demand : Demand}
    (h : Ends flags u demand (.error (.failed .timeout)) v) :
    demand = .frame ∧ u.session.receiver.assembly.inFlight = none ∧ u.session.Hears [] v.session ∧
      v.session.receiver = u.session.receiver := by
  cases h with
  | noHeader hread => exact ⟨rfl, readHeader_timeout hread⟩
  | badHeader hread hheader =>
      exact absurd (congrArg Prod.fst hheader)
        (spares_onReceiver (Receiver.spares_onHeader _ _) _)
  | noBody hread => exact absurd (congrArg Prod.fst hread) (spares_readBody _ _)
  | badBody hread hbody =>
      exact absurd (congrArg Prod.fst hbody) (spares_onReceiver (Receiver.spares_onBody _ _) _)
  | handsOut hdeliver =>
      exact absurd (congrArg Prod.fst hdeliver)
        (spares_onReceiver (Receiver.spares_deliver _ _ _) _)

theorem receive_ne_timeout {announced : Announced} {ended : Except Halt μ}
    (hflight : s.session.receiver.assembly.inFlight = some announced)
    (hrun : (receive flags).run s = (ended, t)) : ended ≠ .error (.failed .timeout) := by
  obtain ⟨log, u, hmessage, -⟩ := receive_settled hrun
  have hquiet : (receiveMessage flags { s with log }).1 ≠ .error (.failed .timeout) :=
    receiveMessage_ne_timeout hflight
  rwa [hmessage] at hquiet

/-- A wait for a message that is given up leaves the receiver between two messages. -/
theorem receiveMessage_timeout_tidy (hs : s.session.receiver.Tidy)
    (hrun : receiveMessage flags s = (.error (.failed .timeout), t)) :
    t.session.receiver.Tidy := by
  fun_induction receiveMessage flags s with
  | case1 s u hframe ih =>
      obtain ⟨htaken, -⟩ := (receiveFrame_intake hframe (by simp)).taken
      rcases hs.passedTo (Receiver.passedTo_of_intake? htaken) with hu | ⟨announced, hflight⟩
      · exact ih hu hrun
      · exact absurd (congrArg Prod.fst hrun) (receiveMessage_ne_timeout hflight)
  | case2 s m u hframe => simp at hrun
  | case3 s halt u hframe =>
      obtain ⟨hhalt, rfl⟩ := Prod.mk.inj hrun
      rw [Except.error.inj hhalt] at hframe
      rw [(receiveFrame_timeout hframe).2.2]
      exact hs

/-- A run that waits for ever goes on from where another one was given up as from where that
began. -/
theorem receiveMessage_resumed {s' t' x y : Scene (StreamSession μ)} {ended ended' : Except Halt μ}
    (hrun : receiveMessage flags s = (.error (.failed .timeout), t))
    (hs : s'.session.gist = s.session.gist) (ht : t'.session.gist = t.session.gist)
    (hs' : s'.session.Unhurried) (ht' : t'.session.Unhurried)
    (hfirst : receiveMessage flags s' = (ended, x))
    (hsecond : receiveMessage flags t' = (ended', y)) :
    ended = ended' ∧ x.session.gist = y.session.gist := by
  have hquiet := (safe_receiveMessage flags hs' hfirst).1
  fun_induction receiveMessage flags s generalizing s' with
  | case1 s u hframe ih =>
      cases hframe' : (receiveFrame flags).run s' with
      | mk frame u' =>
          obtain ⟨rfl, hmid⟩ := goesBy_receiveFrame flags hs hframe' hframe
            (receiveFrame_ne_timeout hframe' hfirst hquiet) (by simp)
          rw [receiveMessage_eq, hframe'] at hfirst
          exact ih hrun hmid (safe_receiveFrame flags hs' hframe').2 hfirst
  | case2 s m u hframe => simp at hrun
  | case3 s halt u hframe =>
      obtain ⟨hhalt, rfl⟩ := Prod.mk.inj hrun
      rw [Except.error.inj hhalt] at hframe
      have hgist := readHeader_timeout_gist (readHeader_of_receiveFrame hframe)
      exact goesBy_receiveMessage (goesBy_receiveFrame flags) (hs.trans (ht.trans hgist).symm)
        hfirst hsecond hquiet (safe_receiveMessage flags ht' hsecond).1

/-- A call that was given up has lost nothing: sessions that wait for ever receive the same from
before it and from behind it. -/
theorem receive_resumed {s' t' x y : Scene (StreamSession μ)} {ended ended' : Except Halt μ}
    (hs : s.session.receiver.Tidy) (hrun : (receive flags).run s = (.error (.failed .timeout), t))
    (hess : s'.session.essence = s.session.essence) (hess' : t'.session.essence = t.session.essence)
    (hs' : s'.session.Unhurried) (ht' : t'.session.Unhurried)
    (hfirst : (receive flags).run s' = (ended, x))
    (hsecond : (receive flags).run t' = (ended', y)) :
    ended = ended' ∧ x.session.essence = y.session.essence := by
  obtain ⟨log, u, hmessage, rfl⟩ := receive_settled hrun
  have hreset : u.session.receiver.reset.essence = u.session.receiver.essence := by
    rw [Receiver.essence_reset,
      (receiveMessage_timeout_tidy (s := { s with log }) hs hmessage).reset_eq]
  have hu : u.session.essence = t'.session.essence :=
    (congrArg (Gist.mk u.session.registry · u.session.course) hreset.symm).trans hess'.symm
  -- The two runs in the middle go on from the scenes of the call that was given up.
  generalize hp : (receive flags).run { s with session := s.session.patient } = p
  generalize hq : (receive flags).run { u with session := u.session.patient } = q
  obtain ⟨endedP, v⟩ := p
  obtain ⟨endedQ, w⟩ := q
  have hquietP := (safe_receive flags (unhurried_patient _) hp).1
  have hquietQ := (safe_receive flags (unhurried_patient _) hq).1
  obtain ⟨hxp, hxv⟩ := goesBy_receive_essence flags
    (t := { s with session := s.session.patient }) hess hfirst hp (safe_receive flags hs' hfirst).1
    hquietP
  obtain ⟨hyq, hyw⟩ := goesBy_receive_essence flags
    (t := { u with session := u.session.patient }) hu.symm hsecond hq
    (safe_receive flags ht' hsecond).1 hquietQ
  have hvw : endedP = endedQ ∧ v.session.gist = w.session.gist := by
    refine receive_agrees (fun _ _ => gist_reset_congr) (fun hleft hright _ _ => ?_) hp hq
      hquietP hquietQ
    refine receiveMessage_resumed hmessage ?_ ?_ ?_ ?_ hleft hright
    exacts [rfl, rfl, unhurried_patient _, unhurried_patient _]
  exact ⟨hxp.trans (hvw.1.trans hyq.symm), hxv.trans ((congrArg Gist.essence hvw.2).trans hyw.symm)⟩

end StreamSession

end MessageChannel
