import MessageChannel.Proofs.Chronicle
import MessageChannel.Proofs.LastHeader

namespace MessageChannel

variable {μ : Type}

/-- A slice header that announces this. -/
def Header.Announces (h : Header) (announced : Announced) : Prop :=
  h.kind = .ok .sliceHeader ∧ announced = ⟨h.data, h.length.toNat⟩

namespace Receiver

/-- What is under way has been announced by one of these headers, and it is not complete. -/
def Underway (heard : List Header) (r : Receiver μ) : Prop :=
  ∀ announced, r.assembly.inFlight = some announced →
    r.assembly.received < announced.total ∧ ∃ h ∈ heard, h.Announces announced

variable {registry : Registry μ} {r r' : Receiver μ} {h : Header} {fs : List Frame}
  {demand : Demand} {heard more : List Header}

theorem Underway.of_idle (hidle : r.assembly.inFlight = none) : r.Underway heard := by
  intro announced hflight
  rw [hidle] at hflight
  cases hflight

theorem Underway.mono (hr : r.Underway heard) (hsame : r'.assembly.inFlight = r.assembly.inFlight)
    (hreceived : r'.assembly.received = r.assembly.received) (hsub : heard ⊆ more) :
    r'.Underway more := by
  intro announced hflight
  obtain ⟨hshort, h, hh, hannounces⟩ := hr announced (hsame ▸ hflight)
  exact ⟨hreceived ▸ hshort, h, hsub hh, hannounces⟩

theorem Heeds.underway (hheeds : Heeds registry r h demand r') (hr : r.Underway heard)
    (hdemand : ∀ typeId sliced, demand ≠ .delivery typeId sliced) :
    r'.Underway (heard ++ [h]) := by
  cases hheeds with
  | table hkind hdata hidle | whole hkind hidle => exact .of_idle hidle
  | announcement hkind hidle hfits hcomplete =>
      rintro announced ⟨⟩
      have hpos : h.length.toNat ≠ 0 := by
        intro hzero
        rw [if_pos hzero] at hcomplete
        exact hdemand _ _ hcomplete
      exact ⟨Nat.pos_of_ne_zero hpos, h, by simp, hkind, rfl⟩
  | slice => exact hr.mono rfl rfl (List.subset_append_left _ _)

theorem Absorbs.underway (habsorbs : Absorbs registry r demand r') (hr : r.Underway heard)
    (hdemand : ∀ typeId sliced, demand ≠ .delivery typeId sliced) : r'.Underway heard := by
  cases habsorbs with
  | table => exact .of_idle rfl
  | whole => exact absurd rfl (hdemand _ _)
  | slice hkind hcomplete =>
      intro announced hflight
      have hflight' : r.assembly.inFlight = some announced := hflight
      refine ⟨Nat.not_le.1 fun hdone => ?_, (hr announced hflight').2⟩
      have hfull : (r.assembly.commit r.header.length.toNat).isComplete = true := by
        simpa [Assembly.isComplete, Assembly.commit, hflight'] using hdone
      rw [if_pos hfull] at hcomplete
      exact hdemand _ _ hcomplete

/-- Until a message is complete, all that is under way has been announced. -/
theorem Takes.underway (htakes : Takes registry r fs demand r') (hr : r.Underway heard)
    (hdemand : ∀ typeId sliced, demand ≠ .delivery typeId sliced) :
    r'.Underway (heard ++ headersTaken fs demand r') := by
  induction htakes with
  | nothing => simpa [headersTaken] using hr
  | bare htakes hheeds hbare ih =>
      have hr' := hheeds.underway (ih (by simp)) hdemand
      rw [headersTaken_frame, List.append_assoc] at hr'
      rwa [headersTaken_snoc hbare]
  | opened htakes hheeds ih =>
      have hr' := hheeds.underway (ih (by simp)) hdemand
      rwa [headersTaken_frame, List.append_assoc, ← hheeds.header_eq] at hr'
  | @filled fs range bytes demand r' r'' htakes hlength habsorbs ih =>
      have hfilled : (r'.fill range bytes).Underway (heard ++ headersTaken fs (.body range) r') :=
        (ih (by simp)).mono rfl rfl (List.Subset.refl _)
      rw [headersTaken_snoc habsorbs.ne_body]
      exact habsorbs.underway hfilled hdemand

end Receiver

namespace StreamSession

variable [Message μ]

/-- The sessions that calls make of a new one, with all that was told on the way, in order. As in a
chronicle, calls that wait for ever may be given up, and the transport may change in between. -/
inductive Annals (registry : Registry μ) (config : Config) : List Event → StreamSession μ → Prop
  | new (transport : ByteStream) : Annals registry config [] (.new registry config transport)
  | call {before told} {s t : StreamSession μ} {now later op ended}
      (hs : Annals registry config before s)
      (hrun : (Operation.call op).start s now = (ended, t, later, told)) :
      Annals registry config (before ++ told) t
  | meanwhile {before} {s : StreamSession μ} (change : ByteStream → ByteStream) (requested : Bool)
      (hs : Annals registry config before s) : Annals registry config before
        { s with transport := s.transport.map change, cancelRequested := requested }

variable {registry : Registry μ} {config : Config} {before : List Event} {heard : List Header}

theorem Annals.chronicle {s : StreamSession μ} (h : Annals registry config before s) :
    ∃ past, Chronicle registry config past s := by
  induction h with
  | new transport => exact ⟨_, .new transport⟩
  | call hs hrun ih =>
      obtain ⟨past, hpast⟩ := ih
      obtain ⟨log, hcall, -⟩ := Call.run_of_start hrun
      exact ⟨_, Chronicle.call (s := ⟨_, _, #[]⟩) hpast hcall⟩
  | meanwhile change requested hs ih =>
      obtain ⟨past, hpast⟩ := ih
      exact ⟨past, hpast.meanwhile change requested⟩

section

variable {s t u v : Scene (StreamSession μ)} {flags : Flags} {demand : Demand}

/-- Nothing is left of a message under way unless the call waits for ever, and then nothing has
become of it. -/
theorem Ends.leaves {ended : Except Halt μ} (h : Ends flags u demand ended v) :
    (settled ended v.session.receiver).assembly.inFlight = none ∨
    (∀ typeId sliced, demand ≠ .delivery typeId sliced) ∧ v.headers = u.headers ∧
      (settled ended v.session.receiver).assembly.inFlight =
        u.session.receiver.assembly.inFlight ∧
      (settled ended v.session.receiver).assembly.received =
        u.session.receiver.assembly.received := by
  have hfailed : ∀ (error : ChannelError) (r : Receiver μ),
      (settled (.error (.failed error)) r).assembly.inFlight = none := fun _ _ => rfl
  rcases h.cases with ⟨typeId, sliced, -, -, hv⟩ | hshort | ⟨error, rfl⟩
  · left
    rw [hv]
    rcases ended with (_ | _ | _) | _ <;> rfl
  · rcases u.session.shortage_cases with hstalled | ⟨error, herror⟩
    · right
      rw [hstalled] at hshort
      subst hshort
      cases h with
      | noHeader hread =>
          have hsame := receiver_of_readHeader hread
          refine ⟨by simp, mute_readHeader.of_run hread, ?_, ?_⟩
          · exact congrArg (·.assembly.inFlight) hsame
          · exact congrArg (·.assembly.received) hsame
      | noBody hread =>
          have hkeeps : ∀ range, Call.Keeps (fun s : StreamSession μ =>
              (s.receiver.assembly.inFlight, s.receiver.assembly.received)) (readBody range) :=
            keeps_readBody (fun _ _ => rfl) fun _ _ _ => rfl
          obtain ⟨hflight, hreceived⟩ := Prod.mk.inj ((hkeeps _).of_run hread)
          exact ⟨by simp, (mute_readBody _).of_run hread, hflight, hreceived⟩
      | badHeader hread hheader =>
          obtain ⟨heffect, -⟩ := effect_of_onReceiver (Receiver.timeless_onHeader _ _) hheader
          obtain ⟨error, herror⟩ := Receiver.onHeader_failed heffect
          cases herror
      | badBody hread hbody =>
          obtain ⟨heffect, -⟩ := effect_of_onReceiver (Receiver.timeless_onBody _ _) hbody
          obtain ⟨⟨error, herror⟩, -⟩ := Receiver.onBody_failed heffect
          cases herror
      | handsOut hdeliver =>
          have hdelivered := (Ends.handedOut (.handsOut hdeliver)).1
          exact absurd hdelivered.symm (Receiver.handOut_ne_stalled _ _ _ _ _ _)
    · left
      rw [hshort, herror]
      exact hfailed _ _
  · exact .inl (hfailed _ _)

theorem receive_underway {ended : Except Halt μ}
    (hs : s.session.receiver.Underway (heard ++ s.headers))
    (hrun : (receive flags).run s = (ended, t)) :
    t.session.receiver.Underway (heard ++ t.headers) := by
  obtain ⟨fs, demand, u, v, hpasses, hends, rfl⟩ := receive_goes hrun
  rcases hends.leaves with hidle | ⟨hdemand, hheaders, hflight, hreceived⟩
  · exact .of_idle hidle
  · have hu := hpasses.takes.1.underway hs hdemand
    rw [List.append_assoc, ← headers_noted flags s, ← hpasses.headers, ← hheaders] at hu
    exact hu.mono hflight hreceived (List.Subset.refl _)

end

variable {s t : StreamSession μ} {now later : Nat} {told : List Event}

theorem Operation.underway {op : Operation μ} {ended : Except Halt Unit}
    (hs : s.receiver.Underway heard) (hrun : op.call.start s now = (ended, t, later, told)) :
    t.receiver.Underway (heard ++ headersIn told) := by
  obtain ⟨log, hcall, rfl⟩ := Call.run_of_start hrun
  have hkept : t.receiver = s.receiver → t.receiver.Underway (heard ++ headersIn log.toList) := by
    intro hsame
    rw [hsame]
    exact hs.mono rfl rfl (List.subset_append_left _ _)
  cases op with
  | send m flags => exact hkept (eq_of_hearing ((keeps_send m flags).of_run hcall)).2.2
  | sendVersion => exact hkept (eq_of_hearing (keeps_sendVersion.of_run hcall)).2.2
  | receive flags =>
      rw [Operation.call, Call.run_bind] at hcall
      cases hreceive : (StreamSession.receive flags).run ⟨s, now, #[]⟩ with
      | mk ended' u =>
          have hs' : s.receiver.Underway (heard ++ Scene.headers ⟨s, now, #[]⟩) := by
            simpa [Scene.headers, headersIn] using hs
          have hu := receive_underway hs' hreceive
          rw [hreceive] at hcall
          cases ended' <;> obtain ⟨-, rfl⟩ := Prod.mk.inj hcall <;> exact hu
  | setTable table =>
      obtain ⟨-, hscene⟩ := Prod.mk.inj hcall
      obtain rfl := congrArg Scene.session hscene
      exact hs.mono rfl rfl (List.subset_append_left _ _)
  | replaceTransport transport reconnect =>
      cases reconnect with
      | true | false =>
          obtain ⟨-, hscene⟩ := Prod.mk.inj hcall
          obtain rfl := congrArg Scene.session hscene
          exact .of_idle rfl
  | close =>
      have hsession : t = { s.reset with transport := none } := Operation.session_of_close hcall
      rw [hsession]
      exact .of_idle rfl

/-- What a session has under way was announced by a header that it has read, and has not been
completed since. -/
theorem Annals.underway (h : Annals registry config before s) :
    s.receiver.Underway (headersIn before) := by
  induction h with
  | new transport => exact .of_idle rfl
  | call hs hrun ih =>
      rw [headersIn_append]
      exact Operation.underway ih hrun
  | meanwhile change requested hs ih => exact ih

/-- A slice that is let in brings the count to less than two lengths of a frame, also when it is
the one that completes the message. -/
theorem Annals.received_commit_lt (h : Annals registry config before s) {fs : List Frame}
    {range place : SliceRange} {r : Receiver μ}
    (htakes : Receiver.Takes s.registry s.receiver fs (.body range) r)
    (hslot : r.assembly.slot r.header = .ok place) :
    (r.assembly.commit r.header.length.toNat).received < 2 ^ 33 := by
  obtain ⟨announced, hflight, -, -⟩ := Assembly.slot_eq_ok_iff.1 hslot
  obtain ⟨hshort, g, -, -, rfl⟩ := htakes.underway h.underway (by simp) announced hflight
  have hcount : r.assembly.received < g.length.toNat := hshort
  have htotal := g.length.toNat_lt
  have hlength := r.header.length.toNat_lt
  simp only [Assembly.commit]
  omega

end StreamSession

end MessageChannel
