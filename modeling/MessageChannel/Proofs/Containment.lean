import MessageChannel.Proofs.Conversation
import MessageChannel.Proofs.History

namespace MessageChannel

variable {μ : Type}

/-- The payload under way has room within the limit, and it has the size that was announced. -/
structure Assembly.Contained (a : Assembly) (limit : UInt32) : Prop where
  limit_eq : a.limit = limit
  fits : a.size ≤ limit.toNat
  announced : ∀ announced, a.inFlight = some announced → a.size = announced.total

/-- The header says how large a payload is. -/
def Header.Declares (h : Header) : Prop :=
  h.kind = .ok .complete ∨ h.kind = .ok .versionVerification ∨ h.kind = .ok .sliceHeader

theorem Inbound.staysOpen_of_ending {i : Inbound} (h : i.ending = .stalled) :
    i.staysOpen = true := by
  obtain ⟨arrivals, staysOpen⟩ := i
  simp only [ending] at h
  fun_induction endOf staysOpen arrivals <;> simp_all

namespace Receiver

variable {registry : Registry μ} {r r' : Receiver μ} {h : Header} {fs : List Frame}
  {demand : Demand} {limit : UInt32}

theorem Heeds.contained (hheeds : Heeds registry r h demand r') (hr : r.assembly.Contained limit) :
    r'.assembly.Contained limit ∧
      ∀ range, demand = .body range → range.stop ≤ r'.assembly.size := by
  obtain ⟨hlimit, hfits, hannounced⟩ := hr
  cases hheeds with
  | table hkind hdata hidle hroom | whole hkind hidle hroom =>
      rw [hlimit] at hroom
      refine ⟨⟨hlimit, UInt32.le_iff_toNat_le.1 hroom, by simp [hidle]⟩, ?_⟩
      rintro range ⟨⟩
      simp [SliceRange.stop]
  | announcement hkind hidle hroom hdemand =>
      rw [hlimit] at hroom
      refine ⟨⟨hlimit, UInt32.le_iff_toNat_le.1 hroom, ?_⟩, ?_⟩
      · rintro announced ⟨⟩
        rfl
      · rintro range rfl
        split at hdemand <;> cases hdemand
  | @slice announced hkind hflight hwithin =>
      refine ⟨⟨hlimit, hfits, hannounced⟩, ?_⟩
      rintro range ⟨⟩
      rw [hannounced announced hflight]
      exact hwithin

theorem Absorbs.contained (habsorbs : Absorbs registry r demand r')
    (hr : r.assembly.Contained limit) : r'.assembly.Contained limit := by
  cases habsorbs with
  | table hkind hdecode => exact ⟨hr.limit_eq, hr.fits, by simp [Assembly.finish]⟩
  | whole htable hslice => exact hr
  | slice hkind hdemand => exact ⟨hr.limit_eq, hr.fits, hr.announced⟩

/-- Whatever frames come, the payload is contained, and a body that is asked for has its place. -/
theorem Takes.contained (htakes : Takes registry r fs demand r')
    (hr : r.assembly.Contained limit) :
    r'.assembly.Contained limit ∧
      ∀ range, demand = .body range → range.stop ≤ r'.assembly.size := by
  induction htakes with
  | nothing => exact ⟨hr, by simp⟩
  | bare htakes hheeds hbare ih | opened htakes hheeds ih => exact hheeds.contained ih.1
  | filled htakes hlength habsorbs ih =>
      refine ⟨habsorbs.contained ?_, fun range hrange => absurd hrange (habsorbs.ne_body range)⟩
      exact ⟨ih.1.limit_eq, ih.1.fits, ih.1.announced⟩

/-- A header that declares too much is refused before anything is made of it. -/
theorem effect_onHeader_oversize (registry : Registry μ) (hdeclares : h.Declares)
    (hlarge : r.assembly.limit < h.length) :
    ∃ error, (onHeader registry h).effect r = (.error (.failed error), { r with header := h }) := by
  obtain ⟨refusal, _, hprepare⟩ := Assembly.prepare_error_iff.2 (.inr hlarge)
  obtain ⟨refusal', _, hstart⟩ := Assembly.start_error_iff.2 (.inr hlarge)
  rw [effect_onHeader]
  rcases hdeclares with hkind | hkind | hkind
  · simp only [hkind, hprepare]
    exact ⟨_, rfl⟩
  · by_cases hdata : h.data = tableTypeId
    · simp only [hkind, if_pos hdata, hprepare]
      exact ⟨_, rfl⟩
    · simp only [hkind, if_neg hdata]
      exact ⟨_, rfl⟩
  · simp only [hkind, hstart]
    exact ⟨_, rfl⟩

end Receiver

namespace StreamSession

/-- Where a call to receive that began with `s` may be: the payload is within the limit and the
place of a body within the payload, each frame has taken its header from the stream, and a header
that declares too much is refused while the payload is as it was. -/
structure Bounded (limit : UInt32) (s : StreamSession μ) (fs : List Frame) (demand : Demand)
    (u : Scene (StreamSession μ)) : Prop where
  fits : u.session.receiver.assembly.size ≤ limit.toNat
  within : ∀ range, demand = .body range → range.stop ≤ u.session.receiver.assembly.size
  consumes : ∃ read, s.available = read ++ u.session.available ∧
    headerSize * fs.length ≤ read.length
  refuses : ∀ {h v ended w}, demand = .frame → readHeader.run u = (.ok (Header.encode h), v) →
    (onReceiver (Receiver.onHeader v.session.registry h)).run v = (ended, w) → h.Declares →
      limit < h.length → (∃ error, ended = .error (.failed error)) ∧
        w.session.receiver.assembly = u.session.receiver.assembly

theorem length_taken (fs : List Frame) (demand : Demand) (r : Receiver μ) :
    headerSize * fs.length ≤ (Receiver.taken fs demand r).length := by
  have hwire : headerSize * fs.length ≤ (wire fs).length := by
    induction fs with
    | nil => simp
    | cons f fs ih =>
        simp only [wire_cons, List.length_append, List.length_cons, Frame.length_encode,
          headerSize] at ih ⊢
        omega
  unfold Receiver.taken
  rw [List.length_append]
  omega

theorem Passes.bounded {s u : Scene (StreamSession μ)} {fs : List Frame} {demand : Demand}
    {limit : UInt32} (h : Passes s fs demand u)
    (hs : s.session.receiver.assembly.Contained limit) :
    Bounded limit s.session fs demand u := by
  obtain ⟨htakes, hreads⟩ := h.takes
  obtain ⟨hcontained, hwithin⟩ := htakes.contained hs
  refine ⟨hcontained.fits, hwithin, ⟨_, hreads.available, length_taken fs demand _⟩, ?_⟩
  intro h v ended w _ hread hheader hdeclares hlarge
  obtain ⟨hears, hreceiver⟩ := hears_of_readHeader hread
  rw [← hcontained.limit_eq, ← hreceiver] at hlarge
  obtain ⟨error, heffect⟩ :=
    Receiver.effect_onHeader_oversize v.session.registry hdeclares hlarge
  obtain ⟨w', hw, hwreceiver, -⟩ :=
    run_onReceiver (Receiver.timeless_onHeader v.session.registry h) hears
  obtain ⟨rfl, rfl⟩ := Prod.mk.inj (hheader.symm.trans hw)
  rw [hwreceiver, heffect]
  exact ⟨⟨error, rfl⟩, by rw [hreceiver]⟩

theorem staysOpen_of_shortage {s : StreamSession μ} (h : s.shortage = .stalled) :
    ∃ transport, s.transport = some transport ∧ transport.inbound.staysOpen = true := by
  cases htransport : s.transport with
  | none => simp [shortage, htransport] at h
  | some transport =>
      refine ⟨transport, rfl, Inbound.staysOpen_of_ending ?_⟩
      have hhalt : transport.inbound.ending.halt = .stalled := by
        simpa [shortage, htransport] using h
      have hfull : transport.inbound.ending ≠ .full := Inbound.endOf_ne_full _ _
      cases hending : transport.inbound.ending with
      | full => exact absurd hending hfull
      | failed error | expired => simp [hending, FillEnd.halt] at hhalt
      | stalled => rfl

variable [Message μ]

theorem Ends.of_stalled {flags : Flags} {s t u : Scene (StreamSession μ)} {fs : List Frame}
    {demand : Demand} (hpasses : Passes s fs demand u)
    (hends : Ends flags u demand (.error .stalled : Except Halt μ) t) :
    s.session.shortage = .stalled := by
  rcases hends.cases with ⟨typeId, sliced, -, hdelivered, -⟩ | hshort | ⟨error, herror⟩
  · exact absurd hdelivered.symm (Receiver.handOut_ne_stalled _ _ _ _ _ _)
  · rw [← hpasses.takes.2.shortage]
    exact (Except.error.inj hshort).symm
  · cases herror

/-- However a peer fills the stream, and whatever was called before, a call to receive stays within
its bounds from its first header to its end. It waits for ever only on a stream that stays open, and
one that fails leaves nothing of a message behind. -/
theorem receive_bounded {registry : Registry μ} {config : Config} {flags : Flags}
    {s t : Scene (StreamSession μ)} {ended : Except Halt μ}
    (hs : Reachable registry config s.session) (hrun : (receive flags).run s = (ended, t)) :
    (∀ log fs demand u, Passes { s with log } fs demand u →
      Bounded config.maxPayload s.session fs demand u) ∧
    (∃ log fs demand u v, Passes { s with log } fs demand u ∧ Ends flags u demand ended v) ∧
    (ended = .error .stalled → ∃ transport, s.session.transport = some transport ∧
      transport.inbound.staysOpen = true) ∧
    ∀ error, ended = .error (.failed error) →
      t.session.receiver.assembly = { limit := config.maxPayload } ∧
        t.session.receiver.message = none := by
  have hblank := hs.blank
  have hcontained : s.session.receiver.assembly.Contained config.maxPayload := by
    rw [hblank.assembly, hblank.config]
    exact ⟨rfl, Nat.zero_le _, by simp⟩
  obtain ⟨log, fs, demand, u, v, hpasses, hends, -⟩ := receive_ends hrun
  refine ⟨?_, ⟨log, fs, demand, u, v, hpasses, hends⟩, ?_, ?_⟩
  · intro log fs demand u hpasses
    exact hpasses.bounded hcontained
  · rintro rfl
    have hshort := hends.of_stalled hpasses
    exact staysOpen_of_shortage hshort
  · rintro error rfl
    have hafter := hblank.receive hrun (by simp)
    rw [hafter.assembly, hafter.config]
    exact ⟨rfl, hafter.message⟩

/-- A slice that leaves the payload which was announced. -/
def straySlice : List Frame := [⟨.sliceHeader 4 rawTypeId, []⟩, ⟨.slice 3 2, [7, 8, 9]⟩]

def receivingStray : Scene (StreamSession AnyMessage) where
  session := .new (.ofVersion 1) { maxPayload := 8 }
    { inbound := { arrivals := [.bytes (wire straySlice)], staysOpen := true } }

theorem receive_bounded_straySlice : ∃ t, (receive .none).run receivingStray =
    (.error (.failed (.invalidData (.sliceOutside 2 3 4))), t) ∧
      t.session.receiver.assembly = { limit := 8 } ∧ t.session.receiver.message.isNone := by
  have hended : ((receive .none).run receivingStray).1 =
      .error (.failed (.invalidData (.sliceOutside 2 3 4))) := by decide +kernel
  generalize hrun : (receive .none).run receivingStray = result at hended
  obtain ⟨ended, t⟩ := result
  obtain ⟨-, -, -, hfailed⟩ := receive_bounded (.new _) hrun
  obtain ⟨hassembly, hmessage⟩ := hfailed _ hended
  exact ⟨t, Prod.ext hended rfl, hassembly, by rw [hmessage]; rfl⟩

end StreamSession

end MessageChannel
