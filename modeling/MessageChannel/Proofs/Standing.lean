import MessageChannel.Proofs.Conversation
import MessageChannel.Proofs.Passage

namespace MessageChannel

variable {μ : Type}

theorem Tables.snoc {limit : UInt32} {table told last : PeerTable} {fs : List Frame} {f : Frame}
    (h : Tables limit table fs told) (hf : f.Carries .versionVerification)
    (htable : f.header.data = tableTypeId) (hfits : f.header.length ≤ limit)
    (hdecode : PeerTable.decode f.payload = .ok last) : Tables limit table (fs ++ [f]) last := by
  induction h with
  | none table => exact .next hf htable hfits hdecode (.none _)
  | next hg htable' hfits' hdecode' hrest ih => exact .next hg htable' hfits' hdecode' ih

theorem Tables.kind {limit : UInt32} {table told : PeerTable} {fs : List Frame}
    (h : Tables limit table fs told) {f : Frame} (hf : f ∈ fs) :
    f.header.kind = .ok .versionVerification := by
  induction h with
  | none table => cases hf
  | next hg htable hfits hdecode hrest ih =>
      rcases List.mem_cons.1 hf with rfl | hf
      · exact hg.kind
      · exact ih hf

theorem sliceBytes_append (fs gs : List Frame) :
    sliceBytes (fs ++ gs) = sliceBytes fs + sliceBytes gs := by
  induction fs with
  | nil => simp [sliceBytes]
  | cons f fs ih =>
      simp only [sliceBytes, List.cons_append, List.foldr_cons] at ih ⊢
      omega

theorem sliceBytes_singleton (f : Frame) : sliceBytes [f] = f.header.length.toNat := rfl

theorem gather_snoc (payload : Array UInt8) (fs : List Frame) (f : Frame) :
    gather payload (fs ++ [f]) =
      Assembly.overlay (gather payload fs) f.header.offset f.payload := by
  simp [gather]

theorem sliceBytes_take_le (fs : List Frame) (k : Nat) :
    sliceBytes (fs.take k) ≤ sliceBytes fs := by
  have hsplit := sliceBytes_append (fs.take k) (fs.drop k)
  rw [List.take_append_drop] at hsplit
  omega

namespace Unfinished

variable {total : Nat} {fs : List Frame} {f : Frame}

theorem nil (hpos : 0 < total) : Unfinished total [] := ⟨by simp, by simpa [sliceBytes] using hpos⟩

theorem within_snoc (h : Unfinished total fs) (hf : f.Carries .slice)
    (hwithin : f.header.offset + f.header.length.toNat ≤ total) :
    ∀ g ∈ fs ++ [f], g.Carries .slice ∧ g.header.offset + g.header.length.toNat ≤ total := by
  intro g hg
  rcases List.mem_append.1 hg with hg | hg
  · exact h.within g hg
  · obtain rfl := List.mem_singleton.1 hg
    exact ⟨hf, hwithin⟩

theorem snoc (h : Unfinished total fs) (hf : f.Carries .slice)
    (hwithin : f.header.offset + f.header.length.toNat ≤ total)
    (hshort : sliceBytes fs + f.header.length.toNat < total) : Unfinished total (fs ++ [f]) := by
  refine ⟨h.within_snoc hf hwithin, ?_⟩
  rwa [sliceBytes_append, sliceBytes_singleton]

theorem slices (h : Unfinished total fs) (hf : f.Carries .slice)
    (hwithin : f.header.offset + f.header.length.toNat ≤ total)
    (henough : total ≤ sliceBytes fs + f.header.length.toNat) : Slices 0 total (fs ++ [f]) := by
  refine ⟨h.within_snoc hf hwithin, ?_, fun k hk => ?_⟩
  · rwa [sliceBytes_append, sliceBytes_singleton, Nat.zero_add]
  · have hshort := h.short
    have hle := sliceBytes_take_le fs k
    rw [List.length_append, List.length_singleton] at hk
    rw [List.take_append_of_le_length (by omega)]
    omega

end Unfinished

namespace Receiver

/-- A slice header with the room that it asks for. -/
structure Announces (limit : UInt32) (f : Frame) : Prop where
  kind : f.header.kind = .ok .sliceHeader
  bare : f.payload = []
  fits : f.header.length ≤ limit

/-- What a receiver has become of the frames of a message so far, and what it asks for. It went by
the table `table` before them. -/
inductive Stands (registry : Registry μ) (limit : UInt32) (table : PeerTable) :
    List Frame → Demand → Receiver μ → Prop
  | rests {fs told r} (htables : Tables limit table fs told) (hr : r.Rests limit told) :
      Stands registry limit table fs .frame r
  | gathers {tables told f slices r} (htables : Tables limit table tables told)
      (hf : Announces limit f) (hslices : Unfinished f.header.length.toNat slices)
      (hg : r.Gathers limit told (registry.resolve? f.header.data told)
        ⟨f.header.data, f.header.length.toNat⟩ (sliceBytes slices)
        (gather (.replicate f.header.length.toNat 0) slices)) :
      Stands registry limit table (tables ++ f :: slices) .frame r
  | opensTable {fs told h r} (htables : Tables limit table fs told) (hr : r.Rests limit told)
      (hheader : r.header = h) (hkind : h.kind = .ok .versionVerification)
      (hdata : h.data = tableTypeId) (hfits : h.length ≤ limit)
      (hsize : r.assembly.size = h.length.toNat) :
      Stands registry limit table fs (.body ⟨0, h.length.toNat⟩) r
  | opensWhole {fs told h r} (htables : Tables limit table fs told) (hr : r.Rests limit told)
      (hheader : r.header = h) (hkind : h.kind = .ok .complete) (hfits : h.length ≤ limit)
      (hsize : r.assembly.size = h.length.toNat) :
      Stands registry limit table fs (.body ⟨0, h.length.toNat⟩) r
  | opensSlice {tables told f slices h r} (htables : Tables limit table tables told)
      (hf : Announces limit f) (hslices : Unfinished f.header.length.toNat slices)
      (hg : r.Gathers limit told (registry.resolve? f.header.data told)
        ⟨f.header.data, f.header.length.toNat⟩ (sliceBytes slices)
        (gather (.replicate f.header.length.toNat 0) slices))
      (hheader : r.header = h) (hkind : h.kind = .ok .slice)
      (hwithin : h.offset + h.length.toNat ≤ f.header.length.toNat) :
      Stands registry limit table (tables ++ f :: slices) (.body ⟨h.offset, h.length.toNat⟩) r
  | delivers {tables body told typeId sliced r} (htables : Tables limit table tables told)
      (hbody : Body limit body typeId sliced r.assembly.payload.toList)
      (hmessage : r.message = registry.resolve? typeId told) (htold : r.peerTable = told) :
      Stands registry limit table (tables ++ body) (.delivery typeId sliced) r

variable {registry : Registry μ} {limit : UInt32} {table : PeerTable} {fs : List Frame}
  {demand : Demand} {r r' : Receiver μ} {h : Header} {range : SliceRange} {bytes : List UInt8}

theorem Stands.rests_of_idle (hs : Stands registry limit table fs .frame r)
    (hidle : r.assembly.inFlight = none) :
    ∃ told, Tables limit table fs told ∧ r.Rests limit told := by
  cases hs with
  | rests htables hr => exact ⟨_, htables, hr⟩
  | gathers htables hf hslices hg =>
      rw [hg.inFlight] at hidle
      cases hidle

theorem Stands.opened (hs : Stands registry limit table fs .frame r)
    (hheeds : Heeds registry r h (.body range) r') :
    Stands registry limit table fs (.body range) r' := by
  cases hheeds with
  | table hkind hdata hidle hfits =>
      obtain ⟨told, htables, hr⟩ := hs.rests_of_idle hidle
      exact .opensTable htables ⟨hidle, hr.limit, hr.peerTable⟩ rfl hkind hdata
        (hr.limit ▸ hfits) rfl
  | whole hkind hidle hfits =>
      obtain ⟨told, htables, hr⟩ := hs.rests_of_idle hidle
      exact .opensWhole htables ⟨hidle, hr.limit, hr.peerTable⟩ rfl hkind
        (hr.limit ▸ hfits) rfl
  | announcement hkind hidle hfits hdemand => split at hdemand <;> cases hdemand
  | slice hkind hflight hwithin =>
      cases hs with
      | rests htables hr =>
          rw [hr.inFlight] at hflight
          cases hflight
      | gathers htables hf hslices hg =>
          rw [hg.inFlight] at hflight
          obtain rfl := Option.some.inj hflight
          exact .opensSlice htables hf hslices
            ⟨hg.unfinished, hg.inFlight, hg.limit, hg.peerTable, hg.message, hg.received,
              hg.payload⟩
            rfl hkind hwithin

theorem Stands.bare (hs : Stands registry limit table fs .frame r)
    (hheeds : Heeds registry r h demand r') (hbare : ∀ range, demand ≠ .body range) :
    Stands registry limit table (fs ++ [⟨h, []⟩]) demand r' := by
  cases hheeds with
  | table | whole | slice => exact absurd rfl (hbare _)
  | announcement hkind hidle hfits hdemand =>
      obtain ⟨told, htables, hr⟩ := hs.rests_of_idle hidle
      have hf : Announces limit ⟨h, []⟩ := ⟨hkind, rfl, hr.limit ▸ hfits⟩
      by_cases hzero : h.length.toNat = 0
      · rw [if_pos hzero] at hdemand
        subst hdemand
        refine .delivers htables ?_ (by rw [hr.peerTable]) hr.peerTable
        have hbody := Body.sliced hf.kind hf.bare hf.fits (.nil (by simp [hzero]))
        simpa [Assembly.payload, gather] using hbody
      · rw [if_neg hzero] at hdemand
        subst hdemand
        refine .gathers htables hf (.nil (Nat.pos_of_ne_zero hzero)) ?_
        exact ⟨Nat.pos_of_ne_zero hzero, rfl, hr.limit, hr.peerTable, by rw [hr.peerTable], rfl,
          rfl⟩

theorem payload_fill_whole {a : Assembly} (hlength : bytes.length = a.size) :
    (a.fill 0 bytes).payload.toList = bytes := by
  rw [Assembly.payload_fill]
  apply Assembly.overlay_full
  rw [Assembly.size_payload, hlength]

theorem Absorbs.kind (habsorbs : Absorbs registry r demand r') :
    (r.header.kind = .ok .versionVerification → ∃ told,
      PeerTable.decode r.assembly.payload.toList = .ok told ∧ demand = .frame ∧
        r' = { r with assembly := r.assembly.finish, peerTable := told }) ∧
    (r.header.kind = .ok .complete → demand = .delivery r.header.data false ∧
      r' = { r with message := registry.resolve? r.header.data r.peerTable }) ∧
    (r.header.kind = .ok .slice →
      demand = (if (r.assembly.commit r.header.length.toNat).isComplete
        then .delivery (r.assembly.typeId?.getD 0) true else .frame) ∧
        r' = { r with assembly := r.assembly.commit r.header.length.toNat }) := by
  cases habsorbs with
  | table hkind hdecode => simp [hkind, hdecode]
  | whole htable hslice => simp [htable, hslice]
  | slice hkind hdemand => simp [hkind, hdemand]

/-- One more slice, be it the last or not. -/
theorem Gathers.stands_slice {told : PeerTable} {tables slices : List Frame} {f : Frame}
    (hg : r.Gathers limit told (registry.resolve? f.header.data told)
      ⟨f.header.data, f.header.length.toNat⟩ (sliceBytes slices)
      (gather (.replicate f.header.length.toNat 0) slices))
    (htables : Tables limit table tables told) (hf : Announces limit f)
    (hslices : Unfinished f.header.length.toNat slices) {g : Frame} (hcarries : g.Carries .slice)
    (hwithin : g.header.offset + g.header.length.toNat ≤ f.header.length.toNat) :
    let assembly := (r.assembly.fill g.header.offset g.payload).commit g.header.length.toNat
    Stands registry limit table (tables ++ f :: slices ++ [g])
      (if assembly.isComplete then
        .delivery ((r.assembly.fill g.header.offset g.payload).typeId?.getD 0) true else .frame)
      { r with assembly } := by
  intro assembly
  have hcomplete := hg.isComplete_iff g.header.offset g.header.length.toNat g.payload
  have htypeId : (r.assembly.fill g.header.offset g.payload).typeId?.getD 0 = f.header.data := by
    simp [Assembly.typeId?, Assembly.fill, hg.inFlight]
  have hpayload : assembly.payload =
      gather (.replicate f.header.length.toNat 0) (slices ++ [g]) := by
    rw [gather_snoc, ← hg.payload]
    rfl
  have hreceived : assembly.received = sliceBytes (slices ++ [g]) := by
    rw [sliceBytes_append, sliceBytes_singleton, ← hg.received]
    rfl
  rw [List.append_assoc, List.cons_append, htypeId]
  by_cases hlast : f.header.length.toNat ≤ sliceBytes slices + g.header.length.toNat
  · rw [if_pos (hcomplete.2 hlast)]
    refine .delivers htables ?_ hg.message hg.peerTable
    rw [hpayload]
    exact .sliced hf.kind hf.bare hf.fits (hslices.slices hcarries hwithin hlast)
  · rw [if_neg (mt hcomplete.1 hlast)]
    have hmore := hslices.snoc hcarries hwithin (Nat.not_le.1 hlast)
    exact .gathers htables hf hmore
      ⟨hmore.short, hg.inFlight, hg.limit, hg.peerTable, hg.message, hreceived, hpayload⟩

theorem Stands.filled (hs : Stands registry limit table fs (.body range) r)
    (hlength : bytes.length = range.length)
    (habsorbs : Absorbs registry (r.fill range bytes) demand r') :
    Stands registry limit table (fs ++ [⟨r.header, bytes⟩]) demand r' := by
  obtain ⟨htable, hwhole, hslice⟩ := habsorbs.kind
  cases hs with
  | opensTable htables hr hheader hkind hdata hfits hsize =>
      subst hheader
      obtain ⟨told, hdecode, rfl, rfl⟩ := htable hkind
      have hpayload : (r.assembly.fill 0 bytes).payload.toList = bytes :=
        payload_fill_whole (hlength.trans hsize.symm)
      have hdecode' : PeerTable.decode bytes = .ok told := hpayload ▸ hdecode
      exact .rests (htables.snoc ⟨hkind, hlength⟩ hdata hfits hdecode') ⟨rfl, hr.limit, rfl⟩
  | opensWhole htables hr hheader hkind hfits hsize =>
      subst hheader
      obtain ⟨rfl, rfl⟩ := hwhole hkind
      have hpayload : (r.assembly.fill 0 bytes).payload.toList = bytes :=
        payload_fill_whole (hlength.trans hsize.symm)
      refine .delivers htables ?_ (by rw [← hr.peerTable]; rfl) hr.peerTable
      have hf : Frame.Carries .complete ⟨r.header, bytes⟩ := ⟨hkind, hlength⟩
      have hbody := Body.whole hf hfits
      change Body limit _ _ _ (r.assembly.fill 0 bytes).payload.toList
      rw [hpayload]
      exact hbody
  | opensSlice htables hf hslices hg hheader hkind hwithin =>
      subst hheader
      obtain ⟨rfl, rfl⟩ := hslice hkind
      exact hg.stands_slice htables hf hslices ⟨hkind, hlength⟩ hwithin

/-- A payload that comes whole begins with no slice header, nor does a table before it. -/
theorem Stands.head_of_whole {typeId : Int32}
    (hs : Stands registry limit table fs (.delivery typeId false) r) :
    ∃ f gs, fs = f :: gs ∧ f.header.kind ≠ .ok .sliceHeader := by
  cases hs with
  | @delivers tables body told _ _ _ htables hbody hmessage htold =>
      generalize r.assembly.payload.toList = payload at hbody
      cases hbody with
      | whole hf hfits =>
          cases tables with
          | nil => exact ⟨_, [], rfl, by simp [hf.kind]⟩
          | cons g tables =>
              exact ⟨g, _, rfl, by simp [htables.kind List.mem_cons_self]⟩

/-- Frame by frame, the receiver stands where the grammar has it. -/
theorem Takes.stands (htakes : Takes registry r fs demand r') (hr : r.Rests limit table) :
    Stands registry limit table fs demand r' := by
  induction htakes with
  | nothing => exact .rests (.none table) hr
  | bare htakes hheeds hbare ih => exact ih.bare hheeds hbare
  | opened htakes hheeds ih => exact ih.opened hheeds
  | filled htakes hlength habsorbs ih => exact ih.filled hlength habsorbs

end Receiver

end MessageChannel
