import MessageChannel.Proofs.Coverage
import MessageChannel.Proofs.LatestSlice
import MessageChannel.Proofs.Reassembly

namespace MessageChannel

variable {μ : Type} {payload : List UInt8} {cut order : List SliceRange} {total : Nat}
  {fs : List Frame}

namespace SliceRange

def positions (r : SliceRange) : Finset Nat := Finset.Ico r.offset r.stop

/-- Ranges, some of them perhaps empty, that cut a payload of so many bytes up. -/
structure Cuts (total : Nat) (ranges : List SliceRange) : Prop where
  within : ∀ r ∈ ranges, r.stop ≤ total
  covers : ∀ i < total, ∃ r ∈ ranges, i ∈ r.positions
  apart : ranges.Pairwise fun r r' => Disjoint r.positions r'.positions

theorem Cuts.perm (h : Cuts total cut) (horder : order.Perm cut) : Cuts total order where
  within r hr := h.within r (horder.mem_iff.1 hr)
  covers i hi := by
    obtain ⟨r, hr, hcovers⟩ := h.covers i hi
    exact ⟨r, horder.mem_iff.2 hr, hcovers⟩
  apart := (horder.pairwise_iff fun h => h.symm).2 h.apart

end SliceRange

open SliceRange (Cuts)

theorem length_le_sliceBytes {f : Frame} (hf : f ∈ fs) : f.header.length.toNat ≤ sliceBytes fs := by
  induction hf with
  | head fs => exact Nat.le_add_right _ _
  | tail g hf ih => exact Nat.le_trans ih (Nat.le_add_left _ _)

theorem positions_sliceFrame {r : SliceRange} (hstop : r.stop ≤ payload.length)
    (hlength : payload.length < 2 ^ 32) : (sliceFrame payload r).positions = r.positions := by
  obtain ⟨-, hoffset, hframe⟩ := sliceFrame_carries hstop hlength
  rw [Frame.positions, hoffset, hframe]
  rfl

namespace SliceRange.Cuts

theorem carries (h : Cuts payload.length order) (hlength : payload.length < 2 ^ 32) :
    ∀ f ∈ order.map (sliceFrame payload), f.Carries .slice ∧
      f.header.offset + f.header.length.toNat ≤ payload.length := by
  intro f hf
  obtain ⟨r, hr, rfl⟩ := List.mem_map.1 hf
  have hstop := h.within r hr
  obtain ⟨hcarries, hoffset, hframe⟩ := sliceFrame_carries hstop hlength
  refine ⟨hcarries, ?_⟩
  rw [hoffset, hframe]
  exact hstop

theorem apart_sliceFrames (h : Cuts payload.length order) (hlength : payload.length < 2 ^ 32) :
    (order.map (sliceFrame payload)).Pairwise Apart := by
  refine List.pairwise_map.2 (h.apart.imp_of_mem fun hr hr' hdisjoint => ?_)
  rw [Apart, positions_sliceFrame (h.within _ hr) hlength,
    positions_sliceFrame (h.within _ hr') hlength]
  exact hdisjoint

theorem covered_sliceFrames (h : Cuts payload.length order) (hlength : payload.length < 2 ^ 32) :
    covered (order.map (sliceFrame payload)) = Finset.range payload.length := by
  apply Finset.Subset.antisymm
  · exact covered_subset fun f hf => (h.carries hlength f hf).2
  · intro i hi
    obtain ⟨r, hr, hmem⟩ := h.covers i (Finset.mem_range.1 hi)
    rw [← positions_sliceFrame (h.within r hr) hlength] at hmem
    exact mem_covered.2 ⟨_, List.mem_map_of_mem hr, hmem⟩

theorem sliceBytes_eq (h : Cuts payload.length order) (hlength : payload.length < 2 ^ 32) :
    sliceBytes (order.map (sliceFrame payload)) = payload.length := by
  rw [← (card_covered_eq_iff _).2 (h.apart_sliceFrames hlength), h.covered_sliceFrames hlength,
    Finset.card_range]

/-- When the last slice is not empty, no earlier one completes the payload. -/
theorem slices (h : Cuts payload.length order) (hlength : payload.length < 2 ^ 32)
    (hlast : ∀ r ∈ order.getLast?, r.length ≠ 0) :
    Slices 0 payload.length (order.map (sliceFrame payload)) := by
  refine ⟨h.carries hlength, ?_, fun k hk => ?_⟩
  · rw [h.sliceBytes_eq hlength, Nat.zero_add]
  -- The last slice is among those that are still to come, with some byte.
  · rw [List.length_map] at hk
    have hne := List.ne_nil_of_length_pos (Nat.zero_lt_of_lt hk)
    have hr := List.getLast?_eq_some_getLast hne
    generalize order.getLast hne = r at hr
    have hmem : r ∈ order.drop k := by
      apply List.mem_of_getLast?
      rw [List.getLast?_drop, if_neg (Nat.not_le_of_lt hk), hr]
    have hbehind := length_le_sliceBytes (List.mem_map_of_mem (f := sliceFrame payload) hmem)
    have hsome := hlast r hr
    have hframe := (sliceFrame_carries (h.within r (List.mem_of_mem_drop hmem)) hlength).2.2
    have hsplit := sliceBytes_append ((order.map (sliceFrame payload)).take k)
      ((order.map (sliceFrame payload)).drop k)
    rw [List.take_append_drop, ← List.map_drop, h.sliceBytes_eq hlength] at hsplit
    omega

theorem gather_eq (h : Cuts payload.length order) (hlength : payload.length < 2 ^ 32) :
    (gather (.replicate payload.length 0) (order.map (sliceFrame payload))).toList = payload :=
  gather_of_covers hlength h.within fun i hi => by
    simpa [positions] using h.covers i hi

end SliceRange.Cuts

/-- The slices of a plan follow one another, and none of them is empty. -/
theorem SlicePlan.cuts_ranges {p : SlicePlan} (hwhole : p.offset = 0) : Cuts p.total p.ranges where
  within r hr := (of_mem_ranges hr).2.2
  covers i hi := by
    obtain ⟨r, hr, hcovers⟩ := covers_ranges (hwhole ▸ Nat.zero_le i) hi
    exact ⟨r, hr, Finset.mem_Ico.2 hcovers⟩
  apart := by
    clear hwhole
    fun_induction ranges p with
    | case1 p hlt length ih =>
        refine List.pairwise_cons.2 ⟨fun r hr => ?_, ih⟩
        have hbehind : p.offset + length ≤ r.offset := (of_mem_ranges hr).1
        exact Finset.disjoint_left.2 fun i hi hi' => Nat.not_lt_of_le
          (Nat.le_trans hbehind (Finset.mem_Ico.1 hi').1) (Finset.mem_Ico.1 hi).2
    | case2 p hge => exact .nil

namespace Assembly

def sliceCalls (f : Frame) : List Operation :=
  [.slot f.header f.payload, .commit f.header.length.toNat]

variable {a : Assembly}

theorem Awaits.isComplete_iff (ha : a.Awaits total) : a.isComplete = true ↔ total ≤ a.received := by
  obtain ⟨typeId, hflight⟩ := ha.inFlight
  simp [isComplete, hflight]

theorem Awaits.runAll?_sliceCalls (ha : a.Awaits total)
    (hfs : ∀ f ∈ fs, f.Carries .slice ∧ f.header.offset + f.header.length.toNat ≤ total) :
    ∃ b, a.runAll? (fs.flatMap sliceCalls) = some b ∧ b.Awaits total ∧
      b.received = a.received + sliceBytes fs ∧ b.payload = gather a.payload fs := by
  induction fs generalizing a with
  | nil => exact ⟨a, rfl, ha, rfl, rfl⟩
  | cons f fs ih =>
      obtain ⟨hf, hwithin⟩ := hfs f List.mem_cons_self
      have hslot : (Operation.slot f.header f.payload).run? a =
          some (a.fill f.header.offset f.payload) := by
        rw [ha.run?_slot hf.length, if_pos hwithin]
      have hfilled : ((a.fill f.header.offset f.payload).commit f.header.length.toNat).Awaits
          total := ⟨ha.inFlight, ha.size⟩
      obtain ⟨b, hrun, hb, hreceived, hpayload⟩ :=
        ih hfilled fun g hg => hfs g (List.mem_cons_of_mem _ hg)
      refine ⟨b, ?_, hb, ?_, hpayload⟩
      · rw [List.flatMap_cons, sliceCalls, runAll?_append, Assembly.runAll?, hslot]
        exact hrun
      · rw [hreceived]
        exact Nat.add_assoc ..

/-- These slices, one after the other, put a payload together: each of them is let in, and the
payload is complete with the last of them and not before. -/
def PutsTogether (a : Assembly) (fs : List Frame) (payload : List UInt8) : Prop :=
  ∀ k ≤ fs.length, ∃ b, a.runAll? ((fs.take k).flatMap sliceCalls) = some b ∧
    (∀ f ∈ fs, b.slot f.header = .ok ⟨f.header.offset, f.header.length.toNat⟩) ∧
    (b.isComplete = true ↔ k = fs.length) ∧ (k = fs.length → b.payload.toList = payload)

theorem Awaits.putsTogether (ha : a.Awaits total) (hblank : a.payload = .replicate total 0)
    (hnone : a.received = 0) (hslices : Slices 0 total fs) :
    a.PutsTogether fs (gather (.replicate total 0) fs).toList := by
  intro k hk
  obtain ⟨b, hrun, hb, hreceived, hpayload⟩ := ha.runAll?_sliceCalls fun f hf =>
    hslices.within f (List.mem_of_mem_take (i := k) hf)
  refine ⟨b, hrun, fun f hf => ?_, ?_, ?_⟩
  · rw [hb.slot, if_pos (hslices.within f hf).2]
  · rw [hb.isComplete_iff, hreceived, hnone]
    constructor
    · intro henough
      refine Nat.le_antisymm hk (Nat.le_of_not_lt fun hlt => ?_)
      exact Nat.not_lt_of_le henough (hslices.needed k hlt)
    · rintro rfl
      rw [List.take_length]
      exact hslices.enough
  · rintro rfl
    rw [hpayload, hblank, List.take_length]

theorem run?_prepare {b : Assembly} {h : Header} (hprepare : a.prepare h = (.ok (), b))
    (hfull : payload.length = h.length.toNat) :
    (Operation.prepare h payload).run? a = some (b.fill 0 payload) := by
  have hsize : b.size = payload.length := by
    obtain ⟨-, -, rfl⟩ := prepare_eq_ok_iff.1 hprepare
    exact hfull.symm
  have hstop : SliceRange.stop ⟨0, b.size⟩ ≤ b.size := Nat.le_of_eq (Nat.zero_add _)
  rw [Operation.run?, hprepare]
  dsimp only
  rw [write?_of_within hstop, List.take_of_length_le (Nat.le_of_eq hsize.symm)]

end Assembly

namespace StreamSession

variable [Message μ]

/-- Just these frames bring a payload to a session that has room for it, between two messages: a
call to receive hands it out when it has taken all of them, and nothing behind them. -/
def Bring (frames : List Frame) (typeId : Int32) (sliced : Bool) (payload : List UInt8) : Prop :=
  ∀ (s t : Scene (StreamSession μ)) flags ended, s.session.Idle →
    payload.length ≤ s.session.config.maxPayload.toNat →
    (receive flags).run s = (ended, t) → ended ≠ .error (.failed .timeout) →
      (∀ rest, s.session.available = wire frames ++ rest →
        ended = Receiver.handOut flags
          (s.session.registry.resolve? typeId s.session.receiver.peerTable)
          s.session.receiver.peerTable typeId sliced payload ∧ t.session.available = rest) ∧
      ∀ rest, wire frames = s.session.available ++ rest → rest ≠ [] →
        ended = .error s.session.shortage

theorem bring_of_body {frames : List Frame} {typeId : Int32} {sliced : Bool}
    (hbody : ∀ limit : UInt32, payload.length ≤ limit.toNat →
      Body limit frames typeId sliced payload) :
    Bring (μ := μ) frames typeId sliced payload := by
  intro s t flags ended hidle hfits hrun hquiet
  have hmessage := receive_message hrun hquiet
  have hbody := hbody _ hfits
  refine ⟨fun rest havailable => ?_, fun rest havailable hrest => ?_⟩
  · obtain ⟨r', htaken, -⟩ := hidle.rests.message?_body s.session.registry flags hbody rest
    rw [havailable, htaken] at hmessage
    exact ⟨hmessage.1, hmessage.2.2.1⟩
  · obtain ⟨r', htaken, -⟩ := hidle.rests.message?_body s.session.registry flags hbody []
    rw [List.append_nil, havailable] at htaken
    rw [Receiver.message?_none_of_short htaken (List.length_pos_iff.2 hrest)] at hmessage
    exact hmessage

end StreamSession

open Assembly (PutsTogether Operation)
open StreamSession (Bring)

/-- However a payload is cut into slices, and in whatever order they come, they put it together, as
long as the last of them is not empty. So do the slices that a sender makes of it, and the payload
is the one that comes whole. -/
theorem reassembles_anyOrder [Message μ] {a : Assembly} {payload : List UInt8} (typeId : Int32)
    (hidle : a.inFlight = none) (hfits : payload.length ≤ a.limit.toNat) :
    ∃ b c, a.start (announcement typeId payload).header = (.ok (), b) ∧
      (∀ cut order : List SliceRange, Cuts payload.length cut → order.Perm cut →
        (∀ r ∈ order.getLast?, r.length ≠ 0) →
          let slices := order.map (sliceFrame payload)
          b.PutsTogether slices payload ∧
            Bring (μ := μ) (announcement typeId payload :: slices) typeId true payload) ∧
      (∀ sliceSize, b.PutsTogether (sliceFrames sliceSize payload) payload ∧
        Bring (μ := μ) (bodyFrames sliceSize true typeId payload) typeId true payload) ∧
      (Operation.prepare (.complete payload.length.toUInt32 typeId) payload).run? a = some c ∧
        c.payload.toList = payload ∧
        ∀ sliceSize, Bring (μ := μ) (bodyFrames sliceSize false typeId payload) typeId false
          payload := by
  have hlength := Nat.lt_of_le_of_lt hfits a.limit.toNat_lt
  have hsize := toNat_length_of_le hfits
  have hroom := length_le_of_le hfits
  obtain ⟨b, hstart⟩ : ∃ b, a.start (announcement typeId payload).header = (.ok (), b) :=
    ⟨_, Assembly.start_eq_ok_iff.2 ⟨hidle, hroom, rfl⟩⟩
  obtain ⟨c, hprepare⟩ : ∃ c,
      a.prepare (.complete payload.length.toUInt32 typeId) = (.ok (), c) :=
    ⟨_, Assembly.prepare_eq_ok_iff.2 ⟨hidle, hroom, rfl⟩⟩
  obtain ⟨hawaits, hblank, hnone⟩ := Assembly.awaits_start hstart
  rw [show (announcement typeId payload).header.length.toNat = payload.length from hsize]
    at hawaits hblank
  have hany : ∀ order : List SliceRange, Cuts payload.length order →
      (∀ r ∈ order.getLast?, r.length ≠ 0) →
        b.PutsTogether (order.map (sliceFrame payload)) payload ∧
          Bring (μ := μ) (announcement typeId payload :: order.map (sliceFrame payload)) typeId true
            payload := by
    intro order hcut hlast
    have hslices := hcut.slices hlength hlast
    have hgather := hcut.gather_eq hlength
    have htogether := hawaits.putsTogether hblank hnone hslices
    rw [hgather] at htogether
    exact ⟨htogether, StreamSession.bring_of_body fun limit hroom =>
      body_of_slices hroom hslices hgather typeId⟩
  refine ⟨b, _, hstart, fun cut order hcut horder hlast => hany order (hcut.perm horder) hlast,
    fun sliceSize => ?_, Assembly.run?_prepare hprepare hsize.symm,
    Assembly.payload_prepare hprepare hsize.symm, fun sliceSize => ?_⟩
  · have hcut := @SlicePlan.cuts_ranges (.ofSizes payload.length sliceSize) rfl
    refine hany _ hcut fun r hr => ?_
    exact (SlicePlan.of_mem_ranges (List.mem_of_getLast? hr)).2.1
  · exact StreamSession.bring_of_body fun limit hroom =>
      body_bodyFrames sliceSize hroom false typeId

/-- The end of a payload comes first, and then an empty slice. -/
def endFirst : List SliceRange := [⟨1, 3⟩, ⟨1, 0⟩, ⟨0, 1⟩]

theorem reassembles_anyOrder_endFirst : ∃ b,
    ({ limit := 8 } : Assembly).start (.sliceHeader 4 16) = (.ok (), b) ∧
      b.PutsTogether (endFirst.map (sliceFrame [1, 2, 3, 4])) [1, 2, 3, 4] ∧
      ∃ c, b.runAll? ((endFirst.map (sliceFrame [1, 2, 3, 4])).flatMap Assembly.sliceCalls) =
        some c ∧ c.isComplete = true ∧ c.payload.toList = [1, 2, 3, 4] := by
  obtain ⟨b, -, hstart, hcuts, -⟩ :=
    @reassembles_anyOrder AnyMessage _ { limit := 8 } [1, 2, 3, 4] 16 rfl (by decide)
  have hcut : Cuts 4 endFirst.reverse := ⟨by decide, by decide, by decide⟩
  obtain ⟨htogether, -⟩ := hcuts _ endFirst hcut (List.reverse_perm _).symm (by decide)
  obtain ⟨c, hrun, -, hcomplete, hpayload⟩ := htogether 3 (Nat.le_refl _)
  exact ⟨b, hstart, htogether, c, hrun, hcomplete.2 rfl, hpayload rfl⟩

end MessageChannel
