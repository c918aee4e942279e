import MessageChannel.Proofs.FrameSteps
import MessageChannel.Proofs.Receipt

namespace MessageChannel

variable {μ : Type}

namespace StreamSession

open Receiver (taken)

/-- How far a call to receive gets: the frames that it has taken whole, what it asks for next, and
the scene as it is then. -/
inductive Passes (s : Scene (StreamSession μ)) :
    List Frame → Demand → Scene (StreamSession μ) → Prop
  | begins : Passes s [] .frame s
  | bare {fs h demand t u v} (hpasses : Passes s fs .frame t)
      (hread : readHeader.run t = (.ok h.encode, u))
      (hheader : (onReceiver (Receiver.onHeader u.session.registry h)).run u = (.ok demand, v))
      (hbare : ∀ range, demand ≠ .body range) : Passes s (fs ++ [⟨h, []⟩]) demand v
  | opened {fs h range t u v} (hpasses : Passes s fs .frame t)
      (hread : readHeader.run t = (.ok h.encode, u))
      (hheader : (onReceiver (Receiver.onHeader u.session.registry h)).run u =
        (.ok (.body range), v)) : Passes s fs (.body range) v
  | filled {fs range bytes demand t u v} (hpasses : Passes s fs (.body range) t)
      (hread : (readBody range).run t = (.ok (), u)) (hears : t.session.Hears bytes u.session)
      (hbody : (onReceiver
        (Receiver.onBody u.session.registry t.session.receiver.header)).run u = (.ok demand, v)) :
      Passes s (fs ++ [⟨t.session.receiver.header, bytes⟩]) demand v

variable {s t u : Scene (StreamSession μ)} {fs gs : List Frame} {demand : Demand}

theorem Passes.trans (hst : Passes s fs .frame t) (htu : Passes t gs demand u) :
    Passes s (fs ++ gs) demand u := by
  induction htu with
  | begins => rwa [List.append_nil]
  | bare hpasses hread hheader hbare ih =>
      rw [← List.append_assoc]
      exact .bare ih hread hheader hbare
  | opened hpasses hread hheader ih => exact .opened ih hread hheader
  | filled hpasses hread hears hbody ih =>
      rw [← List.append_assoc]
      exact .filled ih hread hears hbody

/-- As `Hears`, but a session without a transport may stay as it is. -/
def Reads (s : StreamSession μ) (bytes : List UInt8) (t : StreamSession μ) : Prop :=
  bytes = [] ∧ t = s ∨ s.Hears bytes t

namespace Reads

variable {s t u : StreamSession μ} {bytes more : List UInt8}

theorem hears (h : s.Reads bytes t) (hmore : t.Hears more u) : s.Hears (bytes ++ more) u := by
  rcases h with ⟨rfl, rfl⟩ | h
  · exact hmore
  · exact h.trans hmore

theorem available (h : s.Reads bytes t) : s.available = bytes ++ t.available := by
  rcases h with ⟨rfl, rfl⟩ | h
  · rfl
  · exact h.available

theorem shortage (h : s.Reads bytes t) : t.shortage = s.shortage := by
  rcases h with ⟨rfl, rfl⟩ | h
  · rfl
  · exact h.shortage

theorem registry (h : s.Reads bytes t) : t.registry = s.registry := by
  rcases h with ⟨rfl, rfl⟩ | h
  · rfl
  · exact h.registry

theorem config (h : s.Reads bytes t) : t.config = s.config := by
  rcases h with ⟨rfl, rfl⟩ | h
  · rfl
  · exact h.config

end Reads

theorem hears_of_readHeader {t u : Scene (StreamSession μ)} {bytes : List UInt8}
    (hread : readHeader.run t = (.ok bytes, u)) :
    t.session.Hears bytes u.session ∧ u.session.receiver = t.session.receiver := by
  rcases readHeader_cases hread with (⟨bytes', hbytes, -, hears, hreceiver⟩ | ⟨hend, -⟩) | ⟨hend, -⟩
  · obtain rfl := Except.ok.inj hbytes
    exact ⟨hears, hreceiver⟩
  · cases hend
  · cases hend

theorem Hears.readBody {s : StreamSession μ} {front : List UInt8} {t u : Scene (StreamSession μ)}
    {range : SliceRange} (hst : s.Hears front t.session)
    (hread : (readBody range).run t = (.ok (), u)) : ∃ bytes, t.session.Hears bytes u.session := by
  obtain ⟨transport, htransport⟩ := hst.connected
  rcases readBody_cases htransport hread with ⟨bytes, -, -, hears, -⟩ | ⟨hend, -⟩
  · exact ⟨bytes, hears⟩
  · cases hend

/-- A header that is read, and what the receiver makes of it. -/
theorem heeds_of_run {t u v : Scene (StreamSession μ)} {h : Header} {demand : Demand}
    (hread : readHeader.run t = (.ok h.encode, u))
    (hheader : (onReceiver (Receiver.onHeader u.session.registry h)).run u = (.ok demand, v)) :
    t.session.Hears h.encode v.session ∧
      Receiver.Heeds t.session.registry t.session.receiver h demand v.session.receiver := by
  obtain ⟨hears, hreceiver⟩ := hears_of_readHeader hread
  obtain ⟨v', hv, hreceiver', hears'⟩ :=
    run_onReceiver (Receiver.timeless_onHeader u.session.registry h) hears
  obtain ⟨hended, rfl⟩ := Prod.mk.inj (hheader.symm.trans hv)
  refine ⟨hears', Receiver.heeds_of_effect ?_⟩
  rw [← hears.registry, ← hreceiver, hreceiver', hended]

/-- A body that is read, and what the receiver makes of it. -/
theorem absorbs_of_run {t u v : Scene (StreamSession μ)} {range : SliceRange} {bytes : List UInt8}
    {demand : Demand} (hread : (readBody range).run t = (.ok (), u))
    (hears : t.session.Hears bytes u.session)
    (hbody : (onReceiver (Receiver.onBody u.session.registry t.session.receiver.header)).run u =
      (.ok demand, v)) :
    bytes.length = range.length ∧ t.session.Hears bytes v.session ∧
      Receiver.Absorbs t.session.registry (t.session.receiver.fill range bytes) demand
        v.session.receiver := by
  obtain ⟨transport, inbound, htransport, -⟩ := id hears
  rcases readBody_cases htransport hread with ⟨bytes', -, hlength, hears', hreceiver⟩ | ⟨hend, -⟩
  · obtain rfl := hears.bytes_eq hears'.available
    have hheader : t.session.receiver.header = u.session.receiver.header := by
      rw [hreceiver]
      rfl
    rw [hheader] at hbody
    obtain ⟨v', hv, hreceiver', hears''⟩ :=
      run_onReceiver (Receiver.timeless_onBody u.session.registry u.session.receiver.header) hears
    obtain ⟨hended, rfl⟩ := Prod.mk.inj (hbody.symm.trans hv)
    refine ⟨hlength, hears'', Receiver.absorbs_of_effect ?_⟩
    rw [← hreceiver, hreceiver', ← hears.registry, hended]
  · cases hend

/-- The receiver takes the frames, and their bytes are read. -/
theorem Passes.takes (h : Passes s fs demand u) :
    Receiver.Takes s.session.registry s.session.receiver fs demand u.session.receiver ∧
      s.session.Reads (taken fs demand u.session.receiver) u.session := by
  induction h with
  | begins => exact ⟨.nothing, .inl ⟨rfl, rfl⟩⟩
  | @bare fs h demand t u v hpasses hread hheader hbare ih =>
      obtain ⟨htakes, hreads⟩ := ih
      obtain ⟨hears, hheeds⟩ := heeds_of_run hread hheader
      rw [hreads.registry] at hheeds
      refine ⟨.bare htakes hheeds hbare, .inr ?_⟩
      have hboth := hreads.hears hears
      cases demand with
      | body range => exact absurd rfl (hbare range)
      | frame | delivery => simpa [wire_append, Frame.encode] using hboth
  | @opened fs h range t u v hpasses hread hheader ih =>
      obtain ⟨htakes, hreads⟩ := ih
      obtain ⟨hears, hheeds⟩ := heeds_of_run hread hheader
      rw [hreads.registry] at hheeds
      refine ⟨.opened htakes hheeds, .inr ?_⟩
      have hboth := hreads.hears hears
      simpa [taken, hheeds.header_eq] using hboth
  | @filled fs range bytes demand t u v hpasses hread hears hbody ih =>
      obtain ⟨htakes, hreads⟩ := ih
      obtain ⟨hlength, hears', habsorbs⟩ := absorbs_of_run hread hears hbody
      rw [hreads.registry] at habsorbs
      refine ⟨.filled htakes hlength habsorbs, .inr ?_⟩
      have hboth := hreads.hears hears'
      cases demand with
      | body range => exact absurd rfl (habsorbs.ne_body range)
      | frame | delivery => simpa [taken, wire_append, Frame.encode] using hboth

/-- The stream begins with the first frame that is taken. -/
theorem Passes.available_eq {f : Frame} (h : Passes s (f :: fs) demand u) :
    ∃ behind, s.session.available = f.encode ++ behind := by
  have hread := h.takes.2.available
  unfold taken at hread
  rw [wire_cons, List.append_assoc, List.append_assoc] at hread
  exact ⟨_, hread⟩

variable [Message μ]

/-- Where a call to receive ends: it reads no header or no body, or refuses it, or it hands out a
message. -/
inductive Ends (flags : Flags) (u : Scene (StreamSession μ)) :
    Demand → Except Halt μ → Scene (StreamSession μ) → Prop
  | noHeader {halt t} (hread : readHeader.run u = (.error halt, t)) :
      Ends flags u .frame (.error halt) t
  | badHeader {h halt v t} (hread : readHeader.run u = (.ok (Header.encode h), v))
      (hheader : (onReceiver (Receiver.onHeader v.session.registry h)).run v = (.error halt, t)) :
      Ends flags u .frame (.error halt) t
  | noBody {range halt t} (hread : (readBody range).run u = (.error halt, t)) :
      Ends flags u (.body range) (.error halt) t
  | badBody {range halt v t} (hread : (readBody range).run u = (.ok (), v))
      (hbody : (onReceiver
        (Receiver.onBody v.session.registry u.session.receiver.header)).run v = (.error halt, t)) :
      Ends flags u (.body range) (.error halt) t
  | handsOut {typeId sliced ended t}
      (hdeliver : (onReceiver (Receiver.deliver flags typeId sliced)).run u = (ended, t)) :
      Ends flags u (.delivery typeId sliced) ended t

/-- The receipt of a frame passes on to the next one, or it is where the call ends. -/
def PassesOn (flags : Flags) (s : Scene (StreamSession μ)) (ended : Except Halt (Option μ))
    (t : Scene (StreamSession μ)) : Prop :=
  (ended = .ok none ∧ ∃ f, Passes s [f] .frame t) ∨
    ∃ fs demand u ended', Passes s fs demand u ∧ Ends flags u demand ended' t ∧
      ended = ended'.map some

theorem Passes.passesOn {flags : Flags} {f : Frame} {ended : Except Halt (Option μ)}
    (hpasses : Passes s [f] demand u) (hbare : ∀ range, demand ≠ .body range)
    (hrun : (meet flags demand).run u = (ended, t)) : PassesOn flags s ended t := by
  cases demand with
  | frame =>
      obtain ⟨rfl, rfl⟩ := Prod.mk.inj hrun
      exact .inl ⟨rfl, f, hpasses⟩
  | body range => exact absurd rfl (hbare range)
  | delivery typeId sliced =>
      cases hdeliver : (onReceiver (Receiver.deliver flags typeId sliced)).run u with
      | mk ended' v =>
          have hmeet : (meet flags (.delivery typeId sliced)).run u = (ended'.map some, v) := by
            rw [meet, map_eq_pure_bind, Call.run_bind, hdeliver]
            cases ended' <;> rfl
          obtain ⟨rfl, rfl⟩ := Prod.mk.inj (hmeet.symm.trans hrun)
          exact .inr ⟨_, _, u, ended', hpasses, .handsOut hdeliver, rfl⟩

theorem receiveBody_passes {flags : Flags} {ended : Except Halt (Option μ)} {h : Header}
    {range : SliceRange} {v : Scene (StreamSession μ)}
    (hread : readHeader.run s = (.ok h.encode, u))
    (hheader : (onReceiver (Receiver.onHeader u.session.registry h)).run u = (.ok (.body range), v))
    (hrun : (do
      readBody range
      meet flags (← onReceiver (Receiver.onBody u.session.registry h))).run v = (ended, t)) :
    PassesOn flags s ended t := by
  have hopened : Passes s [] (.body range) v := .opened .begins hread hheader
  obtain ⟨hears, hheeds⟩ := heeds_of_run hread hheader
  cases hbody : (readBody range).run v with
  | mk endedBody w =>
      rw [Call.run_bind, hbody] at hrun
      cases endedBody with
      | error halt =>
          obtain ⟨rfl, rfl⟩ := Prod.mk.inj hrun
          exact .inr ⟨[], _, v, .error halt, hopened, .noBody hbody, rfl⟩
      | ok _ =>
          obtain ⟨bytes, hears'⟩ := hears.readBody hbody
          have hregistry : u.session.registry = w.session.registry := by
            rw [(hears_of_readHeader hread).1.registry, hears'.registry, hears.registry]
          rw [hregistry, ← hheeds.header_eq] at hrun
          dsimp only at hrun
          rw [Call.run_bind] at hrun
          cases habsorb : (onReceiver
              (Receiver.onBody w.session.registry v.session.receiver.header)).run w with
          | mk demanded x =>
              rw [habsorb] at hrun
              cases demanded with
              | error halt =>
                  obtain ⟨rfl, rfl⟩ := Prod.mk.inj hrun
                  exact .inr ⟨[], _, v, .error halt, hopened, .badBody hbody habsorb, rfl⟩
              | ok demand =>
                  have hdemand := (absorbs_of_run hbody hears' habsorb).2.2.ne_body
                  exact (hopened.filled hbody hears' habsorb).passesOn hdemand hrun

theorem receiveFrame_passes {flags : Flags} {ended : Except Halt (Option μ)}
    (hrun : (receiveFrame flags).run s = (ended, t)) : PassesOn flags s ended t := by
  cases hread : readHeader.run s with
  | mk endedRead u =>
      rw [receiveFrame, Call.run_bind, hread] at hrun
      cases endedRead with
      | error halt =>
          obtain ⟨rfl, rfl⟩ := Prod.mk.inj hrun
          exact .inr ⟨[], .frame, s, .error halt, .begins, .noHeader hread, rfl⟩
      | ok bytes =>
          obtain ⟨h, rfl⟩ := Header.exists_encode_eq (unread_readHeader hread).2
          simp only [Header.parse_encode, Call.ofExcept, pure_bind, Call.run_bind,
            Call.session] at hrun
          cases hheader : (onReceiver (Receiver.onHeader u.session.registry h)).run u with
          | mk demanded v =>
              rw [hheader] at hrun
              cases demanded with
              | error halt =>
                  obtain ⟨rfl, rfl⟩ := Prod.mk.inj hrun
                  exact .inr ⟨[], .frame, s, .error halt, .begins, .badHeader hread hheader, rfl⟩
              | ok demand =>
                  cases demand with
                  | frame | delivery =>
                      exact (Passes.begins.bare hread hheader (by simp)).passesOn (by simp) hrun
                  | body range => exact receiveBody_passes hread hheader hrun

theorem receiveMessage_ends {flags : Flags} {ended : Except Halt μ}
    (hrun : receiveMessage flags s = (ended, t)) :
    ∃ fs demand u, Passes s fs demand u ∧ Ends flags u demand ended t := by
  fun_induction receiveMessage flags s with
  | case1 s v hframe ih =>
      rcases receiveFrame_passes hframe with ⟨-, f, hpasses⟩ | ⟨_, _, _, ended', -, -, hended⟩
      · obtain ⟨fs, demand, u, hpasses', hends⟩ := ih hrun
        exact ⟨_, demand, u, hpasses.trans hpasses', hends⟩
      · cases ended' <;> cases hended
  | case2 s m v hframe =>
      obtain ⟨rfl, rfl⟩ := Prod.mk.inj hrun
      rcases receiveFrame_passes hframe with
        ⟨hnone, -⟩ | ⟨fs, demand, u, ended', hpasses, hends, hended⟩
      · cases hnone
      · cases ended' with
        | error halt => cases hended
        | ok m' =>
            obtain rfl : m = m' := Option.some.inj (Except.ok.inj hended)
            exact ⟨fs, demand, u, hpasses, hends⟩
  | case3 s halt v hframe =>
      obtain ⟨rfl, rfl⟩ := Prod.mk.inj hrun
      rcases receiveFrame_passes hframe with
        ⟨hnone, -⟩ | ⟨fs, demand, u, ended', hpasses, hends, hended⟩
      · cases hnone
      · cases ended' with
        | ok m => cases hended
        | error halt' =>
            obtain rfl : halt = halt' := Except.error.inj hended
            exact ⟨fs, demand, u, hpasses, hends⟩

theorem Ends.handedOut {flags : Flags} {ended : Except Halt μ} {typeId : Int32} {sliced : Bool}
    (h : Ends flags u (.delivery typeId sliced) ended t) :
    ended = u.session.receiver.delivered flags typeId sliced ∧
      t.session = { u.session with receiver := u.session.receiver.reset } := by
  cases h with
  | handsOut hdeliver =>
      obtain ⟨heffect, ht⟩ := effect_of_onReceiver (Receiver.timeless_deliver _ _ _) hdeliver
      rw [Receiver.effect_deliver] at heffect
      obtain ⟨rfl, hreceiver⟩ := Prod.mk.inj heffect
      exact ⟨rfl, by rw [ht, ← hreceiver]⟩

/-- A call that ends without a message to hand out fails, or it waits for ever. -/
theorem Ends.cases {flags : Flags} {ended : Except Halt μ} (h : Ends flags u demand ended t) :
    (∃ typeId sliced, demand = .delivery typeId sliced ∧
      ended = u.session.receiver.delivered flags typeId sliced ∧
      t.session = { u.session with receiver := u.session.receiver.reset }) ∨
    ended = .error u.session.shortage ∨ ∃ error, ended = .error (.failed error) := by
  cases h with
  | noHeader hread =>
      rcases readHeader_cases hread with (⟨bytes, hend, -⟩ | ⟨hend, -⟩) | ⟨hend, -⟩
      · cases hend
      · obtain rfl := Except.error.inj hend
        exact .inr (.inl rfl)
      · obtain rfl := Except.error.inj hend
        exact .inr (.inr ⟨_, rfl⟩)
  | badHeader hread hheader =>
      obtain ⟨heffect, -⟩ := effect_of_onReceiver (Receiver.timeless_onHeader _ _) hheader
      obtain ⟨error, rfl⟩ := Receiver.onHeader_failed heffect
      exact .inr (.inr ⟨error, rfl⟩)
  | @noBody range halt t hread =>
      cases htransport : u.session.transport with
      | none =>
          refine .inr (.inr ⟨closedError, ?_⟩)
          simp only [readBody, pull, connected, Call.run_bind, Call.session, htransport, Call.fail,
            Call.halt, Prod.mk.injEq, Except.error.injEq] at hread
          rw [hread.1]
      | some transport =>
          rcases readBody_cases htransport hread with ⟨bytes, hend, -⟩ | ⟨hend, -⟩
          · cases hend
          · obtain rfl := Except.error.inj hend
            exact .inr (.inl rfl)
  | badBody hread hbody =>
      obtain ⟨heffect, -⟩ := effect_of_onReceiver (Receiver.timeless_onBody _ _) hbody
      obtain ⟨⟨error, rfl⟩, -⟩ := Receiver.onBody_failed heffect
      exact .inr (.inr ⟨error, rfl⟩)
  | handsOut hdeliver =>
      obtain ⟨hended, ht⟩ := Ends.handedOut (.handsOut hdeliver)
      exact .inl ⟨_, _, rfl, hended, ht⟩

/-- Every call to receive passes from frame to frame and ends somewhere. -/
theorem receive_goes {flags : Flags} {ended : Except Halt μ}
    (hrun : (receive flags).run s = (ended, t)) :
    ∃ fs demand u v, Passes { s with log := noted flags s.log } fs demand u ∧
      Ends flags u demand ended v ∧ t = { v with
        session := { v.session with receiver := settled ended v.session.receiver } } := by
  obtain ⟨v, hmessage, rfl⟩ := receive_noted hrun
  obtain ⟨fs, demand, u, hpasses, hends⟩ := receiveMessage_ends hmessage
  exact ⟨fs, demand, u, v, hpasses, hends, rfl⟩

/-- What was told before a call does not matter to it. -/
theorem receive_ends {flags : Flags} {ended : Except Halt μ}
    (hrun : (receive flags).run s = (ended, t)) :
    ∃ log fs demand u v, Passes { s with log } fs demand u ∧ Ends flags u demand ended v ∧
      t.session = { v.session with receiver := settled ended v.session.receiver } := by
  obtain ⟨fs, demand, u, v, hpasses, hends, rfl⟩ := receive_goes hrun
  exact ⟨_, fs, demand, u, v, hpasses, hends, rfl⟩

end StreamSession

end MessageChannel
