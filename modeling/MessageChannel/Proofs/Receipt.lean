import MessageChannel.Proofs.CallFrame
import MessageChannel.Proofs.Hears
import MessageChannel.Proofs.Intake

namespace MessageChannel.StreamSession

variable {μ : Type}

/-- All that a call of the receiver does is done to the receiver. -/
theorem effect_of_onReceiver {α : Type} {act : Call (Receiver μ) α} (hact : Call.Timeless act)
    {s t : Scene (StreamSession μ)} {ended : Except Halt α}
    (hrun : (onReceiver act).run s = (ended, t)) :
    act.effect s.session.receiver = (ended, t.session.receiver) ∧
      t.session = { s.session with receiver := t.session.receiver } := by
  obtain ⟨log, hwithin⟩ := hact.run_within (fun s : StreamSession μ => s.receiver)
    (fun r s => { s with receiver := r }) s
  obtain ⟨rfl, rfl⟩ := Prod.mk.inj (hrun.symm.trans hwithin)
  exact ⟨rfl, rfl⟩

/-- The receiver does its part; the transport is as it was. -/
theorem run_onReceiver {α : Type} {act : Call (Receiver μ) α} (hact : Call.Timeless act)
    {s : StreamSession μ} {t : Scene (StreamSession μ)} {bytes : List UInt8}
    (hhears : s.Hears bytes t.session) :
    ∃ u, (onReceiver act).run t = ((act.effect t.session.receiver).1, u) ∧
      u.session.receiver = (act.effect t.session.receiver).2 ∧ s.Hears bytes u.session := by
  obtain ⟨log, hrun⟩ := hact.run_within (fun s : StreamSession μ => s.receiver)
    (fun r s => { s with receiver := r }) t
  exact ⟨_, hrun, rfl, hhears.withReceiver _⟩

theorem onReceiver_bind {α β : Type} (act : Call (Receiver μ) α) (next : α → Call (Receiver μ) β) :
    onReceiver (act >>= next) = onReceiver act >>= fun a => onReceiver (next a) := by
  apply Call.ext_run
  intro s
  cases hact : act.run ⟨s.session.receiver, s.now, s.log⟩ with
  | mk ended t =>
      have hfirst : (onReceiver act).run s =
          (ended, ⟨{ s.session with receiver := t.session }, t.now, t.log⟩) := by
        simp only [onReceiver, Call.within, hact]
      rw [Call.run_bind, hfirst]
      cases ended with
      | ok a => simp only [onReceiver, Call.within, Call.run_bind, hact]
      | error h => simp only [onReceiver, Call.within, Call.run_bind, hact]

/-- How a call goes on a session when this is what its receiver makes of the available bytes. -/
def Follows {α : Type} (s : StreamSession μ) (taken? : Option (Receiver.Intake μ α))
    (ended : Except Halt α) (t : StreamSession μ) : Prop :=
  match taken? with
  | none => ended = .error s.shortage
  | some taken => ended = taken.ended ∧ t.receiver = taken.receiver ∧ t.available = taken.rest ∧
      ∃ bytes, s.Hears bytes t

theorem Hears.follows {α : Type} {s t u : StreamSession μ} {bytes : List UInt8}
    {taken? : Option (Receiver.Intake μ α)} {ended : Except Halt α} (hears : s.Hears bytes t)
    (h : t.Follows taken? ended u) : s.Follows taken? ended u := by
  cases taken? with
  | none =>
      have hended : ended = .error t.shortage := h
      rwa [hears.shortage] at hended
  | some taken =>
      obtain ⟨hended, hreceiver, havailable, bytes', hears'⟩ := h
      exact ⟨hended, hreceiver, havailable, _, hears.trans hears'⟩

theorem Follows.taken {α : Type} {s t : StreamSession μ} {a : α}
    {taken? : Option (Receiver.Intake μ α)} (h : s.Follows taken? (.ok a) t) :
    taken? = some ⟨.ok a, t.receiver, t.available⟩ ∧ ∃ bytes, s.Hears bytes t := by
  cases taken? with
  | none => cases h
  | some taken =>
      obtain ⟨ended, r, rest⟩ := taken
      obtain ⟨rfl, rfl, rfl, hears⟩ := h
      exact ⟨rfl, hears⟩

variable [Message μ]

theorem meet_eq (flags : Flags) (demand : Demand) :
    meet flags demand = onReceiver (Receiver.conclude (μ := μ) flags demand) := by
  cases demand with
  | frame | body range => rfl
  | delivery typeId sliced => exact (Call.within_map _ _ _ _).symm

/-- What is left of the receipt of a frame once it is clear what its header asks for. -/
def receiveDemanded (registry : Registry μ) (flags : Flags) (h : Header) :
    Demand → Call (StreamSession μ) (Option μ)
  | .body range => do
      readBody range
      onReceiver (Receiver.afterBody registry flags h)
  | demand => onReceiver (Receiver.conclude flags demand)

def receiveRest (registry : Registry μ) (flags : Flags) (h : Header) :
    Call (StreamSession μ) (Option μ) := do
  receiveDemanded registry flags h (← onReceiver (Receiver.onHeader registry h))

theorem receiveFrame_eq (flags : Flags) :
    receiveFrame flags = (do
      let h ← Call.ofExcept (Header.parse (← readHeader))
      receiveRest (← Call.session).registry flags h : Call (StreamSession μ) (Option μ)) := by
  simp only [receiveFrame, receiveRest]
  congr 1
  funext bytes
  congr 1
  funext h
  congr 1
  funext s
  congr 1
  funext demand
  cases demand with
  | frame => exact meet_eq _ _
  | delivery typeId sliced => exact meet_eq _ _
  | body range => simp only [receiveDemanded, Receiver.afterBody, onReceiver_bind, meet_eq]

theorem receiveBody_follows {registry : Registry μ} {flags : Flags} {h : Header}
    {range : SliceRange} {s t : Scene (StreamSession μ)} {ended : Except Halt (Option μ)}
    {transport : ByteStream} (htransport : s.session.transport = some transport)
    (hrun : (receiveDemanded registry flags h (.body range)).run s = (ended, t)) :
    s.session.Follows ((splitExactly? range.length s.session.available).map fun (payload, rest) =>
      let (ended, r) :=
        (Receiver.afterBody registry flags h).effect (s.session.receiver.fill range payload)
      ⟨ended, r, rest⟩) ended t.session := by
  cases hbody : (readBody range).run s with
  | mk endedBody u =>
      simp only [receiveDemanded, Call.run_bind, hbody] at hrun
      rcases readBody_cases htransport hbody with
        ⟨bytes, rfl, hlength, hears, hreceiver⟩ | ⟨rfl, hshort⟩
      · obtain ⟨v, hv, hvreceiver, hears'⟩ :=
          run_onReceiver (Receiver.timeless_afterBody registry flags h) hears
        obtain ⟨rfl, rfl⟩ := Prod.mk.inj (hrun.symm.trans hv)
        have hleft := hears'.available
        rw [hears.available] at hleft
        rw [hears.available, ← hlength, splitExactly?_append, Option.map_some]
        dsimp only
        rw [← hreceiver]
        exact ⟨rfl, hvreceiver, (List.append_cancel_left hleft).symm, _, hears'⟩
      · obtain ⟨rfl, rfl⟩ := Prod.mk.inj hrun
        rw [splitExactly?_eq_none_iff.2 hshort]
        rfl

theorem receiveRest_intakeOf {flags : Flags} {h : Header} {s t : Scene (StreamSession μ)}
    {ended : Except Halt (Option μ)} {transport : ByteStream}
    (htransport : s.session.transport = some transport)
    (hrun : (receiveRest s.session.registry flags h).run s = (ended, t)) :
    s.session.Follows
      (s.session.receiver.intakeOf? s.session.registry flags h s.session.available)
      ended t.session := by
  obtain ⟨u, hu, hreceiver, hears⟩ :=
    run_onReceiver (Receiver.timeless_onHeader s.session.registry h) (.refl htransport)
  have hsame : s.session.available = u.session.available := hears.available
  rw [receiveRest, Call.run_bind, hu] at hrun
  rw [Receiver.intakeOf?]
  cases heffect : (Receiver.onHeader s.session.registry h).effect s.session.receiver with
  | mk demanded r =>
      rw [heffect] at hrun hreceiver
      cases demanded with
      | error halt =>
          obtain ⟨rfl, rfl⟩ := Prod.mk.inj hrun
          exact ⟨rfl, hreceiver, hsame.symm, _, hears⟩
      | ok demand =>
          dsimp only at hreceiver
          cases demand with
          | frame | delivery typeId sliced =>
              obtain ⟨v, hv, hvreceiver, hears'⟩ :=
                run_onReceiver (Receiver.timeless_conclude flags _) hears
              obtain ⟨rfl, rfl⟩ := Prod.mk.inj (hrun.symm.trans hv)
              rw [hreceiver] at hvreceiver ⊢
              exact ⟨rfl, hvreceiver, hears'.available.symm, _, hears'⟩
          | body range =>
              obtain ⟨transport', htransport'⟩ := hears.connected
              have hfollows := receiveBody_follows htransport' hrun
              rw [hreceiver, ← hsame] at hfollows
              exact hears.follows hfollows

/-- A frame goes as the bytes that are available have it, unless the wait for it is given up. -/
theorem receiveFrame_intake {flags : Flags} {s t : Scene (StreamSession μ)}
    {ended : Except Halt (Option μ)} (hrun : (receiveFrame flags).run s = (ended, t))
    (hquiet : ended ≠ .error (.failed .timeout)) :
    s.session.Follows (s.session.receiver.intake? s.session.registry flags s.session.available)
      ended t.session := by
  cases hread : readHeader.run s with
  | mk endedRead u =>
      rcases readHeader_cases hread with
        (⟨bytes, rfl, hlength, hhears, hreceiver⟩ | ⟨rfl, hshort⟩) | ⟨rfl, -⟩
      · obtain ⟨h, rfl⟩ := Header.exists_encode_eq hlength
        have hrest : (receiveRest u.session.registry flags h).run u = (ended, t) := by
          rw [← hrun, receiveFrame_eq, Call.run_bind, hread]
          dsimp only
          rw [Header.parse_encode]
          rfl
        obtain ⟨transport, htransport⟩ := hhears.connected
        have hintake := receiveRest_intakeOf htransport hrest
        rw [hhears.available, Receiver.intake?_encode_append, ← hreceiver, ← hhears.registry]
        exact hhears.follows hintake
      · have hnone : Header.decode? s.session.available = none :=
          Header.decode?_eq_none_iff.2 hshort
        rw [receiveFrame, Call.run_bind, hread] at hrun
        obtain ⟨rfl, rfl⟩ := Prod.mk.inj hrun
        simp only [Receiver.intake?, hnone, Option.bind_none, Follows]
      · rw [receiveFrame, Call.run_bind, hread] at hrun
        exact absurd (congrArg Prod.fst hrun).symm hquiet

/-- What a call leaves of a receiver that has come to this end. -/
def settled (ended : Except Halt μ) (r : Receiver μ) : Receiver μ :=
  match ended with
  | .error (.failed _) => r.reset
  | _ => r

def settledIntake (taken : Receiver.Intake μ μ) : Receiver.Intake μ μ :=
  { taken with receiver := settled taken.ended taken.receiver }

theorem receiveMessage_message {flags : Flags} {s t : Scene (StreamSession μ)}
    {ended : Except Halt μ} (hrun : receiveMessage flags s = (ended, t))
    (hquiet : ended ≠ .error (.failed .timeout)) :
    s.session.Follows (s.session.receiver.message? s.session.registry flags s.session.available)
      ended t.session := by
  fun_induction receiveMessage flags s with
  | case1 s u hframe ih =>
      obtain ⟨htaken, bytes, hears⟩ := (receiveFrame_intake hframe (by simp)).taken
      have hmessage := ih hrun
      rw [hears.registry] at hmessage
      rw [Receiver.message?_of_frame htaken]
      exact hears.follows hmessage
  | case2 s m u hframe =>
      obtain ⟨rfl, rfl⟩ := Prod.mk.inj hrun
      obtain ⟨htaken, hears⟩ := (receiveFrame_intake hframe (by simp)).taken
      rw [Receiver.message?_eq, htaken]
      exact ⟨rfl, rfl, rfl, hears⟩
  | case3 s halt u hframe =>
      obtain ⟨rfl, rfl⟩ := Prod.mk.inj hrun
      have hintake := receiveFrame_intake hframe (by simpa using hquiet)
      rw [Receiver.message?_eq]
      cases htaken : s.session.receiver.intake? s.session.registry flags s.session.available with
      | none =>
          rw [htaken] at hintake
          exact congrArg Except.error (Except.error.inj hintake)
      | some taken =>
          obtain ⟨endedFrame, r, rest⟩ := taken
          rw [htaken] at hintake
          obtain ⟨rfl, hreceiver, havailable, hears⟩ := hintake
          exact ⟨rfl, hreceiver, havailable, hears⟩

/-- The log with what a call to receive says of the flags that only senders go by. -/
def noted (flags : Flags) (log : Array Event) : Array Event :=
  let log := if flags.sliced then log.push (.flagIgnored "SLICE_DATA") else log
  if flags.versioned then log.push (.flagIgnored "VERSION_VERIFICATION") else log

/-- The flags that only senders go by are told of, and nothing else comes of them. -/
theorem run_receive_noted (flags : Flags) (s : Scene (StreamSession μ)) :
    (receive flags).run s = (Call.onFailure ⟨receiveMessage flags⟩ fun _ => Call.update reset).run
      { s with log := noted flags s.log } := by
  rw [receive, Call.run_bind]
  cases hsliced : flags.sliced <;> cases hversioned : flags.versioned <;>
    simp [Call.run_bind, Call.tellIf, Call.tell, Call.run_pure, noted, hsliced, hversioned]

theorem run_receive_changed (flags : Flags) (s : Scene (StreamSession μ)) :
    ∃ log, ∀ change : StreamSession μ → StreamSession μ,
      (receive flags).run { s with session := change s.session } =
        (Call.onFailure ⟨receiveMessage flags⟩ fun _ => Call.update reset).run
          { s with session := change s.session, log } :=
  ⟨noted flags s.log, fun _ => run_receive_noted flags _⟩

/-- A call to receive is the receipt of a message, with nothing left behind of one that fails. -/
theorem receive_noted {flags : Flags} {s t : Scene (StreamSession μ)} {ended : Except Halt μ}
    (hrun : (receive flags).run s = (ended, t)) :
    ∃ u, receiveMessage flags { s with log := noted flags s.log } = (ended, u) ∧ t = { u with
      session := { u.session with receiver := settled ended u.session.receiver } } := by
  rw [run_receive_noted] at hrun
  cases hmessage : receiveMessage flags { s with log := noted flags s.log } with
  | mk ended' u =>
      refine ⟨u, ?_⟩
      simp only [Call.onFailure, hmessage] at hrun
      cases ended' with
      | ok m =>
          obtain ⟨rfl, rfl⟩ := Prod.mk.inj hrun
          exact ⟨rfl, rfl⟩
      | error halt =>
          cases halt with
          | failed error | stalled | crashed =>
              obtain ⟨rfl, rfl⟩ := Prod.mk.inj hrun
              exact ⟨rfl, rfl⟩

theorem receive_settled {flags : Flags} {s t : Scene (StreamSession μ)} {ended : Except Halt μ}
    (hrun : (receive flags).run s = (ended, t)) :
    ∃ log u, receiveMessage flags { s with log } = (ended, u) ∧ t = { u with
      session := { u.session with receiver := settled ended u.session.receiver } } :=
  ⟨_, receive_noted hrun⟩

/-- A call to receive goes as the bytes that are available have it, unless the wait for its first
byte is given up. -/
theorem receive_message {flags : Flags} {s t : Scene (StreamSession μ)} {ended : Except Halt μ}
    (hrun : (receive flags).run s = (ended, t)) (hquiet : ended ≠ .error (.failed .timeout)) :
    s.session.Follows ((s.session.receiver.message? s.session.registry flags
      s.session.available).map settledIntake) ended t.session := by
  obtain ⟨log, u, hmessage, rfl⟩ := receive_settled hrun
  have hfollows := receiveMessage_message hmessage hquiet
  dsimp only at hfollows
  cases htaken : s.session.receiver.message? s.session.registry flags s.session.available with
  | none =>
      rw [htaken] at hfollows
      exact hfollows
  | some taken =>
      rw [htaken] at hfollows
      obtain ⟨rfl, hreceiver, havailable, bytes, hears⟩ := hfollows
      dsimp only
      rw [hreceiver]
      exact ⟨rfl, rfl, havailable, bytes, hears.withReceiver _⟩

end MessageChannel.StreamSession
