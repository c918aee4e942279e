import MessageChannel.Proofs.FrameIntake

namespace MessageChannel

variable {μ : Type}

namespace Frame

/-- A frame of this kind with as many bytes behind its header as that declares. -/
structure Carries (kind : FrameKind) (f : Frame) : Prop where
  kind : f.header.kind = .ok kind
  length : f.payload.length = f.header.length.toNat

variable {f g : Frame} {kind kind' : FrameKind} {front back : List UInt8}

theorem header_of_encode_append (h : f.encode ++ front = g.encode ++ back) :
    f.header = g.header ∧ f.payload ++ front = g.payload ++ back := by
  rw [encode, encode, List.append_assoc, List.append_assoc] at h
  exact Header.encode_append_inj h

/-- The header tells where a frame ends. -/
theorem Carries.encode_append_inj (hf : f.Carries kind) (hg : g.Carries kind')
    (h : f.encode ++ front = g.encode ++ back) : f = g ∧ front = back := by
  obtain ⟨hheader, hbehind⟩ := header_of_encode_append h
  have hlength : f.payload.length = g.payload.length := by
    rw [hf.length, hg.length, hheader]
  obtain ⟨hpayload, hbehind⟩ := List.append_inj hbehind hlength
  refine ⟨?_, hbehind⟩
  cases f
  cases g
  rw [mk.injEq]
  exact ⟨hheader, hpayload⟩

end Frame

def sliceBytes (fs : List Frame) : Nat :=
  fs.foldr (fun f n => f.header.length.toNat + n) 0

/-- Tables of types that a peer sends of itself. The last of them counts. -/
inductive Tables (limit : UInt32) : PeerTable → List Frame → PeerTable → Prop
  | none (table) : Tables limit table [] table
  | next {f fs table told last} (hf : Frame.Carries .versionVerification f)
      (htable : f.header.data = tableTypeId) (hfits : f.header.length ≤ limit)
      (hdecode : PeerTable.decode f.payload = .ok told) (hrest : Tables limit told fs last) :
      Tables limit table (f :: fs) last

/-- The table in force behind tables is the one that the frames say. -/
theorem Tables.last_unique {limit : UInt32} {table last last' : PeerTable} {fs : List Frame}
    (h : Tables limit table fs last) (h' : Tables limit table fs last') : last = last' := by
  induction h with
  | none table => cases h' with | none => rfl
  | next hf hdata hfits hdecode hrest ih =>
      cases h' with
      | next hf' hdata' hfits' hdecode' hrest' =>
          obtain rfl := Except.ok.inj (hdecode.symm.trans hdecode')
          exact ih hrest'

/-- Slices within a payload of some size, up to the first with which enough bytes have come. -/
structure Slices (received total : Nat) (fs : List Frame) : Prop where
  within : ∀ f ∈ fs, f.Carries .slice ∧ f.header.offset + f.header.length.toNat ≤ total
  enough : total ≤ received + sliceBytes fs
  needed : ∀ k < fs.length, received + sliceBytes (fs.take k) < total

/-- The slices put where they belong. -/
def gather (payload : Array UInt8) (fs : List Frame) : Array UInt8 :=
  fs.foldl (fun payload f => Assembly.overlay payload f.header.offset f.payload) payload

/-- The frames of one payload, with the id of its type and whether it comes in slices. -/
inductive Body (limit : UInt32) : List Frame → Int32 → Bool → List UInt8 → Prop
  | whole {f} (hf : Frame.Carries .complete f) (hfits : f.header.length ≤ limit) :
      Body limit [f] f.header.data false f.payload
  | sliced {f fs} (hkind : f.header.kind = .ok .sliceHeader) (hempty : f.payload = [])
      (hfits : f.header.length ≤ limit) (hslices : Slices 0 f.header.length.toNat fs) :
      Body limit (f :: fs) f.header.data true
        (gather (.replicate f.header.length.toNat 0) fs).toList

/-- No body begins with a table. -/
theorem Body.head {limit : UInt32} {fs : List Frame} {typeId : Int32} {sliced : Bool}
    {payload : List UInt8} (h : Body limit fs typeId sliced payload) :
    ∃ f gs, fs = f :: gs ∧ f.header.kind ≠ .ok .versionVerification := by
  cases h with
  | whole hf hfits => exact ⟨_, _, rfl, by simp [hf.kind]⟩
  | sliced hkind hempty hfits hslices => exact ⟨_, _, rfl, by simp [hkind]⟩

namespace Slices

theorem eq_nil {received total : Nat} {fs : List Frame} (h : Slices received total fs)
    (hdone : total ≤ received) : fs = [] := by
  cases fs with
  | nil => rfl
  | cons f fs =>
      have hneeded := h.needed 0 (by simp)
      simp [sliceBytes] at hneeded
      omega

theorem nil {received total : Nat} (hdone : total ≤ received) : Slices received total [] :=
  ⟨by simp, by simpa [sliceBytes] using hdone, by simp⟩

theorem cons_iff {received total : Nat} {f : Frame} {fs : List Frame} :
    Slices received total (f :: fs) ↔ received < total ∧
      (f.Carries .slice ∧ f.header.offset + f.header.length.toNat ≤ total) ∧
        Slices (received + f.header.length.toNat) total fs := by
  constructor
  · intro h
    have hfirst := h.needed 0 (by simp)
    refine ⟨by simpa [sliceBytes] using hfirst, h.within f (by simp),
      fun g hg => h.within g (by simp [hg]), ?_, fun k hk => ?_⟩
    · simpa [sliceBytes, Nat.add_assoc] using h.enough
    · simpa [sliceBytes, Nat.add_assoc] using h.needed (k + 1) (by simpa using hk)
  · rintro ⟨hlt, hf, h⟩
    refine ⟨?_, ?_, fun k hk => ?_⟩
    · intro g hg
      rcases List.mem_cons.1 hg with rfl | hg
      · exact hf
      · exact h.within g hg
    · simpa [sliceBytes, Nat.add_assoc] using h.enough
    · cases k with
      | zero => simpa [sliceBytes] using hlt
      | succ k => simpa [sliceBytes, Nat.add_assoc] using h.needed k (by simpa using hk)

end Slices

namespace Receiver

/-- The receiver waits for the first frame of a message. -/
structure Rests (r : Receiver μ) (limit : UInt32) (table : PeerTable) : Prop where
  inFlight : r.assembly.inFlight = none
  limit : r.assembly.limit = limit
  peerTable : r.peerTable = table

/-- The receiver waits for slices of a payload that is for this blank message, if any. -/
structure Gathers (r : Receiver μ) (limit : UInt32) (table : PeerTable) (blank? : Option μ)
    (announced : Announced) (received : Nat) (payload : Array UInt8) : Prop where
  unfinished : received < announced.total
  inFlight : r.assembly.inFlight = some announced
  limit : r.assembly.limit = limit
  peerTable : r.peerTable = table
  message : r.message = blank?
  received : r.assembly.received = received
  payload : r.assembly.payload = payload

variable {r : Receiver μ} {limit : UInt32} {table told : PeerTable} {f : Frame} {blank? : Option μ}
  {announced : Announced} {received : Nat} {payload : Array UInt8}

variable [Message μ] (registry : Registry μ) (flags : Flags)

theorem intake?_frame (r : Receiver μ) (f : Frame) (rest : List UInt8) :
    r.intake? registry flags (f.encode ++ rest) =
      r.intakeOf? registry flags f.header (f.payload ++ rest) := by
  rw [Frame.encode, List.append_assoc, intake?_encode_append]

theorem splitExactly?_payload {kind : FrameKind} (hf : f.Carries kind) (rest : List UInt8) :
    splitExactly? f.header.length.toNat (f.payload ++ rest) = some (f.payload, rest) := by
  rw [← hf.length]
  exact splitExactly?_append _ _

theorem intake_cancel (hkind : f.header.kind = .ok .cancel) (hempty : f.payload = [])
    (hlimit : r.assembly.limit = limit) (htable : r.peerTable = table) (rest : List UInt8) :
    ∃ r', r.intake? registry flags (f.encode ++ rest) =
      some ⟨.error (.failed .canceled), r', rest⟩ ∧ r'.Rests limit table := by
  rw [intake?_frame, intakeOf?_cancel hkind, hempty]
  exact ⟨_, rfl, rfl, hlimit, htable⟩

namespace Rests

theorem intake_table (hr : r.Rests limit table) (hf : f.Carries .versionVerification)
    (htable : f.header.data = tableTypeId) (hfits : f.header.length ≤ limit)
    (hdecode : PeerTable.decode f.payload = .ok told) (rest : List UInt8) :
    ∃ r', r.intake? registry flags (f.encode ++ rest) = some ⟨.ok none, r', rest⟩ ∧
      r'.Rests limit told := by
  have hprepare := Assembly.prepare_eq_ok_iff.2 ⟨hr.inFlight, hr.limit ▸ hfits, rfl⟩
  rw [intake?_frame, intakeOf?_versionVerification hf.kind, if_pos htable, hprepare]
  simp only [splitExactly?_payload hf, Option.map_some, hdecode]
  exact ⟨_, rfl, rfl, hr.limit, rfl⟩

theorem intake_whole (hr : r.Rests limit table) (hf : f.Carries .complete)
    (hfits : f.header.length ≤ limit) (rest : List UInt8) :
    ∃ r', r.intake? registry flags (f.encode ++ rest) =
      some ⟨(handOut flags (registry.resolve? f.header.data table) table f.header.data false
        f.payload).map some, r', rest⟩ ∧ r'.Rests limit table := by
  have hprepare := Assembly.prepare_eq_ok_iff.2 ⟨hr.inFlight, hr.limit ▸ hfits, rfl⟩
  rw [intake?_frame, intakeOf?_complete hf.kind, hprepare]
  simp only [splitExactly?_payload hf, Option.map_some, hr.peerTable]
  exact ⟨_, rfl, rfl, hr.limit, rfl⟩

theorem intake_emptyAnnouncement (hr : r.Rests limit table)
    (hkind : f.header.kind = .ok .sliceHeader) (hempty : f.payload = [])
    (hzero : f.header.length = 0) (rest : List UInt8) :
    ∃ r', r.intake? registry flags (f.encode ++ rest) =
      some ⟨(handOut flags (registry.resolve? f.header.data table) table f.header.data true
        []).map some, r', rest⟩ ∧ r'.Rests limit table := by
  have hfits : f.header.length ≤ r.assembly.limit := by simp [hzero]
  have hstart := Assembly.start_eq_ok_iff.2 ⟨hr.inFlight, hfits, rfl⟩
  rw [intake?_frame, intakeOf?_sliceHeader hkind, hstart, hempty]
  simp only [if_pos hzero, hr.peerTable]
  exact ⟨_, rfl, rfl, hr.limit, rfl⟩

theorem intake_announcement (hr : r.Rests limit table)
    (hkind : f.header.kind = .ok .sliceHeader) (hempty : f.payload = [])
    (hfits : f.header.length ≤ limit) (hpos : f.header.length ≠ 0) (rest : List UInt8) :
    ∃ r', r.intake? registry flags (f.encode ++ rest) = some ⟨.ok none, r', rest⟩ ∧
      r'.Gathers limit table (registry.resolve? f.header.data table)
        ⟨f.header.data, f.header.length.toNat⟩ 0 (.replicate f.header.length.toNat 0) := by
  have hstart := Assembly.start_eq_ok_iff.2 ⟨hr.inFlight, hr.limit ▸ hfits, rfl⟩
  have hlt : 0 < f.header.length.toNat := by
    apply Nat.pos_of_ne_zero
    exact fun hzero => hpos (UInt32.toNat_inj.1 hzero)
  rw [intake?_frame, intakeOf?_sliceHeader hkind, hstart, hempty]
  simp only [if_neg hpos, hr.peerTable]
  exact ⟨_, rfl, hlt, rfl, hr.limit, rfl, rfl, rfl, rfl⟩

end Rests

namespace Gathers

omit [Message μ] in
theorem slot_eq (hg : r.Gathers limit table blank? announced received payload) (h : Header) :
    r.assembly.slot h = if h.offset + h.length.toNat ≤ announced.total
      then .ok ⟨h.offset, h.length.toNat⟩
      else .error (.invalidData (.sliceOutside h.offset h.length.toNat announced.total)) := by
  rw [Assembly.slot, hg.inFlight]

omit [Message μ] in
theorem isComplete_iff (hg : r.Gathers limit table blank? announced received payload)
    (offset length : Nat) (bytes : List UInt8) :
    ((r.assembly.fill offset bytes).commit length).isComplete = true ↔
      announced.total ≤ received + length := by
  rw [← hg.received]
  simp [Assembly.isComplete, Assembly.commit, Assembly.fill, hg.inFlight]

theorem intake_slice (hg : r.Gathers limit table blank? announced received payload)
    (hf : f.Carries .slice) (hwithin : f.header.offset + f.header.length.toNat ≤ announced.total)
    (hmore : received + f.header.length.toNat < announced.total) (rest : List UInt8) :
    ∃ r', r.intake? registry flags (f.encode ++ rest) = some ⟨.ok none, r', rest⟩ ∧
      r'.Gathers limit table blank? announced (received + f.header.length.toNat)
        (Assembly.overlay payload f.header.offset f.payload) := by
  have hincomplete := mt (hg.isComplete_iff f.header.offset f.header.length.toNat f.payload).1
    (Nat.not_le.2 hmore)
  rw [intake?_frame, intakeOf?_slice hf.kind, hg.slot_eq, if_pos hwithin]
  simp only [splitExactly?_payload hf, Option.map_some, if_neg hincomplete]
  refine ⟨_, rfl, hmore, hg.inFlight, hg.limit, hg.peerTable, hg.message, ?_, ?_⟩
  · rw [← hg.received]
    rfl
  · rw [← hg.payload]
    rfl

theorem intake_lastSlice (hg : r.Gathers limit table blank? announced received payload)
    (hf : f.Carries .slice) (hwithin : f.header.offset + f.header.length.toNat ≤ announced.total)
    (hlast : announced.total ≤ received + f.header.length.toNat) (rest : List UInt8) :
    ∃ r', r.intake? registry flags (f.encode ++ rest) =
      some ⟨(handOut flags blank? table announced.typeId true
        (Assembly.overlay payload f.header.offset f.payload).toList).map some, r', rest⟩ ∧
      r'.Rests limit table := by
  have hcomplete := (hg.isComplete_iff f.header.offset f.header.length.toNat f.payload).2 hlast
  have htypeId : ((r.assembly.fill f.header.offset f.payload).commit
      f.header.length.toNat).typeId?.getD 0 = announced.typeId := by
    simp [Assembly.typeId?, Assembly.commit, Assembly.fill, hg.inFlight]
  have hpayload : ((r.assembly.fill f.header.offset f.payload).commit
      f.header.length.toNat).payload = Assembly.overlay payload f.header.offset f.payload := by
    rw [← hg.payload]
    rfl
  rw [intake?_frame, intakeOf?_slice hf.kind, hg.slot_eq, if_pos hwithin]
  simp only [splitExactly?_payload hf, Option.map_some, if_pos hcomplete, htypeId, hpayload,
    hg.message, hg.peerTable]
  exact ⟨_, rfl, rfl, hg.limit, rfl⟩

end Gathers

end Receiver

end MessageChannel
