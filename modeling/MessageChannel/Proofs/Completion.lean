import MessageChannel.Proofs.Annals

namespace MessageChannel

variable {μ : Type}

namespace Receiver

/-- What has become of a receiver of slices that took some more of them, but not all. -/
structure Partway (r : Receiver μ) (announced : Announced) (fs : List Frame) (r' : Receiver μ) :
    Prop where
  within : ∀ f ∈ fs, f.Carries .slice ∧ f.header.offset + f.header.length.toNat ≤ announced.total
  short : r.assembly.received + sliceBytes fs < announced.total
  inFlight : r'.assembly.inFlight = some announced
  received : r'.assembly.received = r.assembly.received + sliceBytes fs
  payload : r'.assembly.payload = gather r.assembly.payload fs
  message : r'.message = r.message

/-- Where a receiver of slices has got with some frames, and what it asks for. -/
inductive Resumes (r : Receiver μ) (announced : Announced) :
    List Frame → Demand → Receiver μ → Prop
  | waits {fs r'} (hpartway : r.Partway announced fs r') : Resumes r announced fs .frame r'
  | opens {fs r'} (hpartway : r.Partway announced fs r') (hkind : r'.header.kind = .ok .slice)
      (hwithin : r'.header.offset + r'.header.length.toNat ≤ announced.total) :
      Resumes r announced fs (.body ⟨r'.header.offset, r'.header.length.toNat⟩) r'
  | delivers {fs r'} (hslices : Slices r.assembly.received announced.total fs)
      (hpayload : r'.assembly.payload = gather r.assembly.payload fs)
      (hmessage : r'.message = r.message) :
      Resumes r announced fs (.delivery announced.typeId true) r'

variable {registry : Registry μ} {r r' r'' : Receiver μ} {announced : Announced} {h : Header}
  {fs : List Frame} {demand : Demand} {range : SliceRange} {bytes : List UInt8} {f : Frame}

theorem Partway.begins (hflight : r.assembly.inFlight = some announced)
    (hshort : r.assembly.received < announced.total) : r.Partway announced [] r :=
  ⟨by simp, by simpa [sliceBytes] using hshort, hflight, rfl, rfl, rfl⟩

theorem Partway.within_snoc (hp : r.Partway announced fs r') (hf : f.Carries .slice)
    (hwithin : f.header.offset + f.header.length.toNat ≤ announced.total) :
    ∀ g ∈ fs ++ [f], g.Carries .slice ∧
      g.header.offset + g.header.length.toNat ≤ announced.total := by
  intro g hg
  rcases List.mem_append.1 hg with hg | hg
  · exact hp.within g hg
  · obtain rfl := List.mem_singleton.1 hg
    exact ⟨hf, hwithin⟩

theorem Partway.slices (hp : r.Partway announced fs r') (hf : f.Carries .slice)
    (hwithin : f.header.offset + f.header.length.toNat ≤ announced.total)
    (henough : announced.total ≤ r.assembly.received + sliceBytes fs + f.header.length.toNat) :
    Slices r.assembly.received announced.total (fs ++ [f]) := by
  refine ⟨hp.within_snoc hf hwithin, ?_, fun k hk => ?_⟩
  · rwa [sliceBytes_append, sliceBytes_singleton, ← Nat.add_assoc]
  · have hshort := hp.short
    have hle := sliceBytes_take_le fs k
    rw [List.length_append, List.length_singleton] at hk
    rw [List.take_append_of_le_length (by omega)]
    omega

/-- One more slice, be it the last or not. -/
theorem Partway.slice (hp : r.Partway announced fs r') (hf : f.Carries .slice)
    (hwithin : f.header.offset + f.header.length.toNat ≤ announced.total) :
    let assembly := (r'.assembly.fill f.header.offset f.payload).commit f.header.length.toNat
    Resumes r announced (fs ++ [f])
      (if assembly.isComplete then
        .delivery ((r'.assembly.fill f.header.offset f.payload).typeId?.getD 0) true else .frame)
      { r' with assembly } := by
  intro assembly
  have htypeId : (r'.assembly.fill f.header.offset f.payload).typeId?.getD 0 =
      announced.typeId := by simp [Assembly.typeId?, Assembly.fill, hp.inFlight]
  have hpayload : assembly.payload = gather r.assembly.payload (fs ++ [f]) := by
    rw [gather_snoc, ← hp.payload]
    rfl
  have hreceived : assembly.received =
      r.assembly.received + sliceBytes fs + f.header.length.toNat := by
    rw [← hp.received]
    rfl
  have hcomplete : assembly.isComplete = true ↔
      announced.total ≤ r.assembly.received + sliceBytes fs + f.header.length.toNat := by
    have hflight : assembly.inFlight = some announced := hp.inFlight
    simp [Assembly.isComplete, hflight, hreceived]
  rw [htypeId]
  by_cases hlast : announced.total ≤
      r.assembly.received + sliceBytes fs + f.header.length.toNat
  · rw [if_pos (hcomplete.2 hlast)]
    exact .delivers (hp.slices hf hwithin hlast) hpayload hp.message
  · rw [if_neg (mt hcomplete.1 hlast)]
    rw [Nat.add_assoc, ← sliceBytes_singleton f, ← sliceBytes_append] at hreceived hlast
    exact .waits ⟨hp.within_snoc hf hwithin, Nat.not_le.1 hlast, hp.inFlight, hreceived, hpayload,
      hp.message⟩

/-- A receiver of slices goes on with slices, until its message is complete. -/
theorem Takes.resumes (htakes : Takes registry r fs demand r')
    (hflight : r.assembly.inFlight = some announced)
    (hshort : r.assembly.received < announced.total) : Resumes r announced fs demand r' := by
  induction htakes with
  | nothing => exact .waits (.begins hflight hshort)
  | bare htakes hheeds hbare ih =>
      cases ih with
      | waits hpartway =>
          cases hheeds with
          | table hkind hdata hidle | whole hkind hidle | announcement hkind hidle =>
              rw [hpartway.inFlight] at hidle
              cases hidle
          | slice => exact absurd rfl (hbare _)
  | @opened fs h range r' r'' htakes hheeds ih =>
      cases ih with
      | waits hpartway =>
          cases hheeds with
          | table hkind hdata hidle | whole hkind hidle | announcement hkind hidle =>
              rw [hpartway.inFlight] at hidle
              cases hidle
          | slice hkind hflight' hwithin =>
              obtain rfl := Option.some.inj (hpartway.inFlight.symm.trans hflight')
              obtain ⟨hall, hless, hsame, hreceived, hpayload, hmessage⟩ := hpartway
              have hopened : r.Partway announced fs { r' with header := h } :=
                ⟨hall, hless, hsame, hreceived, hpayload, hmessage⟩
              exact .opens hopened hkind hwithin
  | @filled fs range bytes demand r' r'' htakes hlength habsorbs ih =>
      cases ih with
      | opens hpartway hkind hwithin =>
          obtain ⟨rfl, rfl⟩ := habsorbs.kind.2.2 hkind
          exact hpartway.slice (f := ⟨r'.header, bytes⟩) ⟨hkind, hlength⟩ hwithin

end Receiver

namespace StreamSession

/-- Frames with which the payload of a message is complete on a session that has read the headers
`heard`: those of a whole message behind tables of types, or the rest of the slices of one that is
under way. The blank message is the one that its type stands for, if any. -/
inductive Completes (heard : List Header) (s : StreamSession μ) :
    List Frame → Int32 → Bool → Option μ → List UInt8 → Prop
  | begun {tables body told typeId sliced payload}
      (hidle : s.receiver.assembly.inFlight = none)
      (htables : Tables s.config.maxPayload s.receiver.peerTable tables told)
      (hbody : Body s.config.maxPayload body typeId sliced payload) :
      Completes heard s (tables ++ body) typeId sliced (s.registry.resolve? typeId told) payload
  | resumed {h fs} (hheard : h ∈ heard) (hkind : h.kind = .ok .sliceHeader)
      (hflight : s.receiver.assembly.inFlight = some ⟨h.data, h.length.toNat⟩)
      (hslices : Slices s.receiver.assembly.received h.length.toNat fs) :
      Completes heard s fs h.data true s.receiver.message
        (gather s.receiver.assembly.payload fs).toList

/-- What comes next on a session that has read the headers `heard` is this payload, for this
message. -/
def Feeds (heard : List Header) (s : StreamSession μ) (m : μ) (payload : List UInt8) : Prop :=
  ∃ fs typeId sliced rest,
    Completes heard s fs typeId sliced (some m) payload ∧ s.available = wire fs ++ rest

variable {heard : List Header} {s : StreamSession μ} {r : Receiver μ} {fs : List Frame}
  {typeId : Int32} {sliced : Bool} {blank? : Option μ} {payload : List UInt8}

/-- When a receiver has a message to hand out, its frames have come and nothing behind them. -/
theorem completes_of_takes (hlimit : s.receiver.limit = s.config.maxPayload)
    (hs : s.receiver.Underway heard)
    (htakes : Receiver.Takes s.registry s.receiver fs (.delivery typeId sliced) r) :
    Completes heard s fs typeId sliced r.message r.assembly.payload.toList := by
  cases hflight : s.receiver.assembly.inFlight with
  | none =>
      have hstands := htakes.stands ⟨hflight, hlimit, rfl⟩
      cases hstands with
      | delivers htables hbody hmessage htold =>
          rw [hmessage]
          exact .begun hflight htables hbody
  | some announced =>
      obtain ⟨hshort, h, hh, hkind, rfl⟩ := hs announced hflight
      have hresumes := htakes.resumes hflight hshort
      cases hresumes with
      | delivers hslices hpayload hmessage =>
          rw [hmessage, hpayload]
          exact .resumed hh hkind hflight hslices

variable [Message μ]

/-- Such frames hand the message out, or fail with what its type or its bytes call for. -/
theorem Completes.message? (h : Completes heard s fs typeId sliced blank? payload)
    (hlimit : s.receiver.limit = s.config.maxPayload) (hs : s.receiver.Underway heard)
    (flags : Flags) (rest : List UInt8) :
    ∃ r told, s.receiver.message? s.registry flags (wire fs ++ rest) =
      some ⟨Receiver.handOut flags blank? told typeId sliced payload, r, rest⟩ := by
  cases h with
  | @begun tables body told typeId sliced payload hidle htables hbody =>
      have hrests : s.receiver.Rests s.config.maxPayload s.receiver.peerTable :=
        ⟨hidle, hlimit, rfl⟩
      obtain ⟨r, hmessage, hr⟩ :=
        hrests.message?_tables s.registry flags htables (wire body ++ rest)
      obtain ⟨r', hmessage', -⟩ := hr.message?_body s.registry flags hbody rest
      exact ⟨r', told, by rw [wire_append, List.append_assoc, hmessage, hmessage']⟩
  | @resumed h fs hheard hkind hflight hslices =>
      obtain ⟨hshort, -⟩ := hs _ hflight
      have hgathers : s.receiver.Gathers s.receiver.limit s.receiver.peerTable s.receiver.message
          ⟨h.data, h.length.toNat⟩ s.receiver.assembly.received s.receiver.assembly.payload :=
        ⟨hshort, hflight, rfl, rfl, rfl, rfl, rfl⟩
      obtain ⟨r, hmessage, -⟩ := hgathers.message?_slices s.registry flags hslices rest
      exact ⟨r, _, hmessage⟩

/-- A call to receive ends with such frames, unless its wait for the first byte is given up. -/
theorem Completes.ended {s t : Scene (StreamSession μ)} {flags : Flags} {ended : Except Halt μ}
    {rest : List UInt8} (h : Completes heard s.session fs typeId sliced blank? payload)
    (hlimit : s.session.receiver.limit = s.session.config.maxPayload)
    (hs : s.session.receiver.Underway heard) (havailable : s.session.available = wire fs ++ rest)
    (hrun : (receive flags).run s = (ended, t)) (hquiet : ended ≠ .error (.failed .timeout)) :
    ∃ told, ended = Receiver.handOut flags blank? told typeId sliced payload := by
  obtain ⟨r, told, hmessage⟩ := h.message? hlimit hs flags rest
  have hfollows := receive_message hrun hquiet
  rw [havailable, hmessage] at hfollows
  exact ⟨told, hfollows.1⟩

/-- A message that refuses its payload is invalid data, whatever error it refuses it with. -/
theorem receive_refused {registry : Registry μ} {config : Config} {before : List Event}
    {s t : Scene (StreamSession μ)} {flags : Flags} {ended : Except Halt μ} {m : μ}
    {error : ChannelError} (hs : Annals registry config before s.session)
    (hfeeds : s.session.Feeds (headersIn before) m payload)
    (hdecode : Message.decode m payload = .error (.refused error))
    (hrun : (receive flags).run s = (ended, t)) (hquiet : ended ≠ .error (.failed .timeout)) :
    ended = .error (.failed error.asInvalidData) := by
  obtain ⟨past, hpast⟩ := hs.chronicle
  obtain ⟨fs, typeId, sliced, rest, hcompletes, havailable⟩ := hfeeds
  obtain ⟨told, rfl⟩ :=
    hcompletes.ended hpast.settings.2 hs.underway havailable hrun hquiet
  exact Worker.decode_of_error hdecode

end StreamSession

end MessageChannel
