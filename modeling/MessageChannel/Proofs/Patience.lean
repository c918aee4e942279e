import MessageChannel.Proofs.FailureCodes
import MessageChannel.Proofs.Recognition

namespace MessageChannel

variable {μ : Type}

theorem timeout_not_refused : ChannelError.timeout.code ∉ refusals := by decide

theorem Header.parse_ne_timeout (bytes : List UInt8) : Header.parse bytes ≠ .error .timeout := by
  cases hdecode : Header.decode? bytes <;> simp [Header.parse, hdecode]

namespace Receiver

theorem spares_onHeader (registry : Registry μ) (h : Header) :
    Call.Spares .timeout (onHeader registry h) := by
  refine (timeless_onHeader registry h).spares fun r hended => ?_
  rcases onHeader_refuses (Prod.ext hended rfl) with ⟨hcanceled, -⟩ | ⟨hcode, -⟩
  · cases hcanceled
  · exact timeout_not_refused hcode

theorem spares_onBody (registry : Registry μ) (h : Header) :
    Call.Spares .timeout (onBody registry h) :=
  (timeless_onBody registry h).spares fun _ hended =>
    timeout_not_refused (onBody_refuses (Prod.ext hended rfl))

variable [Message μ]

theorem Undelivered.ne_timeout {flags : Flags} {typeId : Int32} {payload : List UInt8} {sliced : Bool}
    {blank? : Option μ} {error : ChannelError}
    (h : Undelivered flags typeId payload sliced blank? error) : error ≠ .timeout := by
  cases h <;> simp

theorem spares_deliver (flags : Flags) (typeId : Int32) (sliced : Bool) :
    Call.Spares .timeout (deliver (μ := μ) flags typeId sliced) := by
  refine (timeless_deliver flags typeId sliced).spares fun r hended => ?_
  rw [effect_deliver] at hended
  exact (undelivered_of_handOut hended).ne_timeout rfl

theorem spares_conclude (flags : Flags) (demand : Demand) :
    Call.Spares .timeout (conclude (μ := μ) flags demand) := by
  cases demand with
  | delivery typeId sliced => exact .map (spares_deliver _ _ _)
  | frame | body range => exact .pure _

/-- What a frame makes of a receiver if it completes no message and does not fail. -/
inductive PassedTo (r : Receiver μ) : Receiver μ → Prop
  | table {left} (hidle : r.assembly.inFlight = none)
      (hdone : left.assembly.finish = left.assembly) (hmessage : left.message = r.message) :
      PassedTo r left
  | announcement {left announced} (hidle : r.assembly.inFlight = none)
      (hleft : left.assembly.inFlight = some announced) : PassedTo r left
  | slice {left announced} (hflight : r.assembly.inFlight = some announced)
      (hleft : left.assembly.inFlight = some announced) : PassedTo r left

theorem passedTo_of_intakeOf? {registry : Registry μ} {flags : Flags} {r r' : Receiver μ}
    {h : Header} {bytes rest : List UInt8}
    (htaken : r.intakeOf? registry flags h bytes = some ⟨.ok none, r', rest⟩) : r.PassedTo r' := by
  cases hkind : h.kind with
  | error error => simp [intakeOf?_unknown hkind] at htaken
  | ok kind =>
      cases kind with
      | cancel => simp [intakeOf?_cancel hkind] at htaken
      | complete =>
          rw [intakeOf?_complete hkind] at htaken
          rcases hprepare : r.assembly.prepare h with ⟨error | _, assembly⟩
          · simp [hprepare] at htaken
          · rw [hprepare] at htaken
            obtain ⟨parts, -, hended⟩ := Option.map_eq_some_iff.1 htaken
            obtain ⟨m, -, hnone⟩ := exists_of_map_some (congrArg Intake.ended hended)
            cases hnone
      | versionVerification =>
          rw [intakeOf?_versionVerification hkind] at htaken
          by_cases hdata : h.data = tableTypeId
          · rw [if_pos hdata] at htaken
            rcases hprepare : r.assembly.prepare h with ⟨error | _, assembly⟩
            · simp [hprepare] at htaken
            · obtain ⟨hidle, -⟩ := Assembly.prepare_eq_ok_iff.1 hprepare
              rw [hprepare] at htaken
              obtain ⟨parts, -, hended⟩ := Option.map_eq_some_iff.1 htaken
              cases hdecode : PeerTable.decode parts.1 with
              | error error => simp [hdecode] at hended
              | ok told =>
                  simp only [hdecode, Intake.mk.injEq] at hended
                  obtain ⟨-, rfl, -⟩ := hended
                  exact .table hidle rfl rfl
          · simp [if_neg hdata] at htaken
      | sliceHeader =>
          rw [intakeOf?_sliceHeader hkind] at htaken
          rcases hstart : r.assembly.start h with ⟨error | _, assembly⟩
          · simp [hstart] at htaken
          · obtain ⟨hidle, -, rfl⟩ := Assembly.start_eq_ok_iff.1 hstart
            simp only [hstart] at htaken
            by_cases hzero : h.length = 0
            · simp only [if_pos hzero, Option.some.injEq, Intake.mk.injEq] at htaken
              obtain ⟨m, -, hnone⟩ := exists_of_map_some htaken.1
              cases hnone
            · simp only [if_neg hzero, Option.some.injEq, Intake.mk.injEq] at htaken
              obtain ⟨-, rfl, -⟩ := htaken
              exact .announcement hidle rfl
      | slice =>
          rw [intakeOf?_slice hkind] at htaken
          cases hflight : r.assembly.inFlight with
          | none => simp [Assembly.slot, hflight] at htaken
          | some announced =>
              cases hslot : r.assembly.slot h with
              | error error => simp [hslot] at htaken
              | ok range =>
                  rw [hslot] at htaken
                  obtain ⟨parts, -, hended⟩ := Option.map_eq_some_iff.1 htaken
                  dsimp only at hended
                  split at hended
                  · obtain ⟨m, -, hnone⟩ := exists_of_map_some (congrArg Intake.ended hended)
                    cases hnone
                  · simp only [Intake.mk.injEq] at hended
                    obtain ⟨-, rfl, -⟩ := hended
                    exact .slice hflight hflight

theorem passedTo_of_intake? {registry : Registry μ} {flags : Flags} {r r' : Receiver μ}
    {bytes rest : List UInt8}
    (htaken : r.intake? registry flags bytes = some ⟨.ok none, r', rest⟩) : r.PassedTo r' := by
  obtain ⟨h, -, hof⟩ := Option.bind_eq_some_iff.1 htaken
  exact passedTo_of_intakeOf? hof

end Receiver

namespace StreamSession

variable [Message μ]

omit [Message μ] in
theorem spares_onReceiver {α : Type} {act : Call (Receiver μ) α} (h : Call.Spares .timeout act) :
    Call.Spares .timeout (onReceiver act) := h.within _ _

omit [Message μ] in
theorem spares_readBody (range : SliceRange) :
    Call.Spares .timeout (readBody (μ := μ) range) := by
  intro s
  cases htransport : s.session.transport with
  | none =>
      simp [readBody, pull, connected, Call.run_bind, Call.session, htransport, Call.fail,
        Call.halt, closedError]
  | some transport =>
      cases hrun : (readBody range).run s with
      | mk ended t =>
          rcases readBody_cases htransport hrun with ⟨bytes, rfl, -⟩ | ⟨rfl, -⟩
          · simp
          · intro hshortage
            exact s.session.shortage_ne_timeout (Except.error.inj hshortage)

/-- Only the wait for a header is given up. -/
theorem readHeader_of_receiveFrame {flags : Flags} {s t : Scene (StreamSession μ)}
    (hrun : (receiveFrame flags).run s = (.error (.failed .timeout), t)) :
    readHeader.run s = (.error (.failed .timeout), t) := by
  cases hread : readHeader.run s with
  | mk ended u =>
      cases ended with
      | error halt =>
          rw [receiveFrame, Call.run_bind, hread] at hrun
          obtain ⟨hhalt, rfl⟩ := Prod.mk.inj hrun
          rw [Except.error.inj hhalt]
      | ok bytes =>
          rw [receiveFrame_eq, Call.run_bind, hread] at hrun
          have hspares : Call.Spares .timeout (do
              let h ← Call.ofExcept (Header.parse bytes)
              receiveRest (← Call.session).registry flags h :
                Call (StreamSession μ) (Option μ)) := by
            refine .bind (.ofExcept (Header.parse_ne_timeout _)) fun h => .bind .session fun s =>
              .bind (spares_onReceiver (Receiver.spares_onHeader _ _)) fun demand => ?_
            cases demand with
            | frame => exact spares_onReceiver (Receiver.spares_conclude flags .frame)
            | delivery typeId sliced =>
                exact spares_onReceiver (Receiver.spares_conclude flags (.delivery typeId sliced))
            | body range =>
                exact .bind (spares_readBody _) fun _ => spares_onReceiver
                  (.bind (Receiver.spares_onBody _ _) fun _ => Receiver.spares_conclude _ _)
          exact absurd (congrArg Prod.fst hrun) (hspares u)

/-- A wait for a frame that is given up leaves the session as it was. -/
theorem receiveFrame_timeout {flags : Flags} {s t : Scene (StreamSession μ)}
    (hrun : (receiveFrame flags).run s = (.error (.failed .timeout), t)) :
    s.session.receiver.assembly.inFlight = none ∧ s.session.Hears [] t.session ∧
      t.session.receiver = s.session.receiver :=
  readHeader_timeout (readHeader_of_receiveFrame hrun)

variable {limit : UInt32} {table : PeerTable} {flags : Flags}

/-- In the midst of a message no wait is given up. -/
theorem receiveMessage_ne_timeout {s : Scene (StreamSession μ)} {announced : Announced}
    (hflight : s.session.receiver.assembly.inFlight = some announced) :
    (receiveMessage flags s).1 ≠ .error (.failed .timeout) := by
  fun_induction receiveMessage flags s generalizing announced with
  | case1 s u hframe ih =>
      obtain ⟨htaken, -⟩ := (receiveFrame_intake hframe (by simp)).taken
      cases Receiver.passedTo_of_intake? htaken with
      | table hidle | announcement hidle => simp [hflight] at hidle
      | slice hflight' hleft => exact ih hleft
  | case2 s u m hframe => simp
  | case3 s u halt hframe =>
      intro htimeout
      rw [Except.error.inj htimeout] at hframe
      have hidle := (receiveFrame_timeout hframe).1
      simp [hflight] at hidle

/-- A wait for a message that is given up has read tables at most. -/
theorem receiveMessage_timeout {s t : Scene (StreamSession μ)}
    (hr : s.session.receiver.Rests limit table)
    (hrun : receiveMessage flags s = (.error (.failed .timeout), t)) :
    ∃ fs told, Tables limit table fs told ∧ s.session.Hears (wire fs) t.session ∧
      t.session.receiver.Rests limit told := by
  fun_induction receiveMessage flags s generalizing table with
  | case1 s u hframe ih =>
      obtain ⟨htaken, bytes, hears⟩ := (receiveFrame_intake hframe (by simp)).taken
      obtain ⟨f, havailable, hopens⟩ := hr.opens htaken
      cases hopens with
      | table hf htable hfits hdecode hrests =>
          obtain ⟨fs, told, htables, hears', hrests'⟩ := ih hrests hrun
          obtain rfl := hears.bytes_eq havailable
          exact ⟨f :: fs, told, .next hf htable hfits hdecode htables, hears.trans hears',
            hrests'⟩
      | announcement hkind hempty hfits hgathers =>
          exact absurd (congrArg Prod.fst hrun) (receiveMessage_ne_timeout hgathers.inFlight)
  | case2 s u m hframe => simp at hrun
  | case3 s u halt hframe =>
      obtain ⟨hhalt, rfl⟩ := Prod.mk.inj hrun
      rw [Except.error.inj hhalt] at hframe
      obtain ⟨-, hears, hreceiver⟩ := receiveFrame_timeout hframe
      exact ⟨[], table, .none table, hears, hreceiver ▸ hr⟩

theorem receive_timeout {s t : Scene (StreamSession μ)}
    (hr : s.session.receiver.Rests limit table)
    (hrun : (receive flags).run s = (.error (.failed .timeout), t)) :
    ∃ fs told, Tables limit table fs told ∧ s.session.Hears (wire fs) t.session ∧
      t.session.receiver.Rests limit told := by
  obtain ⟨log, u, hmessage, rfl⟩ := receive_settled hrun
  obtain ⟨fs, told, htables, hears, hrests⟩ :=
    receiveMessage_timeout (s := { s with log }) hr hmessage
  exact ⟨fs, told, htables, hears.withReceiver _, rfl, hrests.limit, hrests.peerTable⟩

end StreamSession

end MessageChannel
