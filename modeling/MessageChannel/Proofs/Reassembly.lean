import MessageChannel.Proofs.Conversation
import MessageChannel.Proofs.SendWire

namespace MessageChannel

variable {payload : List UInt8}

namespace SliceRange

theorem length_of {r : SliceRange} (h : r.stop ≤ payload.length) :
    (r.of payload).length = r.length := by
  rw [stop] at h
  rw [of, List.length_take, List.length_drop]
  omega

theorem getElem?_of {r : SliceRange} {i : Nat} (h : i < r.length) :
    (r.of payload)[i]? = payload[r.offset + i]? := by
  rw [of, List.getElem?_take_of_lt h, List.getElem?_drop]

end SliceRange

theorem sliceFrame_carries {r : SliceRange} (hstop : r.stop ≤ payload.length)
    (hlength : payload.length < 2 ^ 32) :
    (sliceFrame payload r).Carries .slice ∧ (sliceFrame payload r).header.offset = r.offset ∧
      (sliceFrame payload r).header.length.toNat = r.length := by
  have hle := hstop
  rw [SliceRange.stop] at hle
  have hr : (sliceFrame payload r).header.length.toNat = r.length := by
    have hlt : r.length < 2 ^ 32 := by omega
    exact UInt32.toNat_ofNat_of_lt' hlt
  refine ⟨⟨Header.kind_ofKind .., ?_⟩, Header.offset_slice _ (by omega), hr⟩
  rw [hr]
  exact SliceRange.length_of hstop

/-- Whatever the order of slices, each puts the bytes of the payload where they belong. -/
theorem getElem?_gather_sliceFrames {ranges : List SliceRange} {buffer : Array UInt8} {i : Nat}
    (hlength : payload.length < 2 ^ 32) (hwithin : ∀ r ∈ ranges, r.stop ≤ payload.length)
    (hsize : buffer.size = payload.length)
    (hi : (∃ r ∈ ranges, r.offset ≤ i ∧ i < r.stop) ∨ buffer[i]? = payload[i]?) :
    (gather buffer (ranges.map (sliceFrame payload)))[i]? = payload[i]? := by
  -- A byte that is in place stays so: a slice that comes there again brings the same one.
  induction ranges generalizing buffer with
  | nil => exact hi.resolve_left (by simp)
  | cons r ranges ih =>
      have hstop := hwithin r List.mem_cons_self
      obtain ⟨hcarries, hoffset, hframe⟩ := sliceFrame_carries hstop hlength
      rw [List.map_cons, gather, List.foldl_cons, ← gather]
      refine ih (fun r hr => hwithin r (List.mem_cons_of_mem _ hr)) ?_ ?_
      · rw [Assembly.size_overlay, hsize]
      · rw [Assembly.getElem?_overlay, hoffset, hcarries.length, hframe, hsize]
        by_cases hhere : r.offset ≤ i ∧ i < r.stop
        · obtain ⟨hfrom, hto⟩ := hhere
          rw [SliceRange.stop] at hto hstop
          rw [if_pos ⟨hfrom, hto, by omega⟩, sliceFrame, SliceRange.getElem?_of (by omega)]
          rw [Nat.add_sub_cancel' hfrom]
          exact .inr rfl
        · rw [if_neg fun h => hhere ⟨h.1, h.2.1⟩]
          refine hi.imp_left fun ⟨r', hr', hcovers⟩ => ?_
          rcases List.mem_cons.1 hr' with rfl | hr'
          · exact absurd hcovers hhere
          · exact ⟨r', hr', hcovers⟩

/-- Slices that cover a payload put it together. -/
theorem gather_of_covers {ranges : List SliceRange} (hlength : payload.length < 2 ^ 32)
    (hwithin : ∀ r ∈ ranges, r.stop ≤ payload.length)
    (hcovers : ∀ i < payload.length, ∃ r ∈ ranges, r.offset ≤ i ∧ i < r.stop) :
    (gather (.replicate payload.length 0) (ranges.map (sliceFrame payload))).toList = payload := by
  apply List.ext_getElem?
  intro i
  rw [Array.getElem?_toList]
  apply getElem?_gather_sliceFrames hlength hwithin Array.size_replicate
  by_cases hi : i < payload.length
  · exact .inl (hcovers i hi)
  · right
    rw [Array.getElem?_eq_none (by simpa using hi), List.getElem?_eq_none (Nat.le_of_not_lt hi)]

namespace SlicePlan

/-- What a plan still has to cut is cut into slices that follow one another. -/
theorem slices_ranges (hlength : payload.length < 2 ^ 32) (p : SlicePlan)
    (htotal : p.total = payload.length) :
    Slices p.offset payload.length (p.ranges.map (sliceFrame payload)) := by
  fun_induction ranges p with
  | case1 p hlt length ih =>
      have hle : p.offset + length ≤ payload.length := by omega
      have hpos := p.chunk_pos
      obtain ⟨hcarries, hoffset, hsize⟩ :=
        @sliceFrame_carries payload ⟨p.offset, length⟩ hle hlength
      rw [List.map_cons]
      refine Slices.cons_iff.2 ⟨by omega, ⟨hcarries, ?_⟩, ?_⟩
      · rw [hoffset, hsize]
        exact hle
      · rw [hsize]
        exact ih htotal
  | case2 p hge => exact .nil (by omega)

theorem of_mem_ranges {p : SlicePlan} {r : SliceRange} (hr : r ∈ p.ranges) :
    p.offset ≤ r.offset ∧ r.length ≠ 0 ∧ r.stop ≤ p.total := by
  fun_induction ranges p with
  | case1 p hlt length ih =>
      have hpos := p.chunk_pos
      rcases List.mem_cons.1 hr with rfl | hr
      · have hle : p.offset + length ≤ p.total := by omega
        exact ⟨Nat.le_refl _, by dsimp only; omega, hle⟩
      · obtain ⟨hfrom, hsome, hto⟩ := ih hr
        exact ⟨Nat.le_trans (Nat.le_add_right _ _) hfrom, hsome, hto⟩
  | case2 p hge => cases hr

theorem covers_ranges {p : SlicePlan} {i : Nat} (hfrom : p.offset ≤ i) (hto : i < p.total) :
    ∃ r ∈ p.ranges, r.offset ≤ i ∧ i < r.stop := by
  fun_induction ranges p with
  | case1 p hlt length ih =>
      by_cases hfirst : i < p.offset + length
      · exact ⟨_, List.mem_cons_self, hfrom, hfirst⟩
      · obtain ⟨r, hr, hcovers⟩ := ih (Nat.le_of_not_lt hfirst) hto
        exact ⟨r, List.mem_cons_of_mem _ hr, hcovers⟩
  | case2 p hge => exact absurd (Nat.lt_of_le_of_lt hfrom hto) hge

end SlicePlan

variable (sliceSize : Nat)

theorem slices_sliceFrames (hlength : payload.length < 2 ^ 32) :
    Slices 0 payload.length (sliceFrames sliceSize payload) :=
  SlicePlan.slices_ranges hlength (.ofSizes payload.length sliceSize) rfl

theorem gather_sliceFrames (hlength : payload.length < 2 ^ 32) :
    (gather (.replicate payload.length 0) (sliceFrames sliceSize payload)).toList = payload :=
  gather_of_covers hlength (fun _ hr => (SlicePlan.of_mem_ranges hr).2.2) fun _ hi =>
    SlicePlan.covers_ranges (Nat.zero_le _) hi

theorem unfinished_take (hlength : payload.length < 2 ^ 32) {k : Nat}
    (hk : k < (sliceFrames sliceSize payload).length) :
    Unfinished payload.length ((sliceFrames sliceSize payload).take k) := by
  have hslices := slices_sliceFrames sliceSize hlength
  refine ⟨fun f hf => hslices.within f (List.mem_of_mem_take hf), ?_⟩
  have hneeded := hslices.needed k hk
  rwa [Nat.zero_add] at hneeded

theorem toNat_length_of_le {limit : UInt32} (h : payload.length ≤ limit.toNat) :
    payload.length.toUInt32.toNat = payload.length :=
  UInt32.toNat_ofNat_of_lt' (Nat.lt_of_le_of_lt h limit.toNat_lt)

theorem length_le_of_le {limit : UInt32} (h : payload.length ≤ limit.toNat) :
    payload.length.toUInt32 ≤ limit := by
  rw [UInt32.le_iff_toNat_le, toNat_length_of_le h]
  exact h

theorem body_of_slices {limit : UInt32} {fs : List Frame} (hfits : payload.length ≤ limit.toNat)
    (hslices : Slices 0 payload.length fs)
    (hgather : (gather (.replicate payload.length 0) fs).toList = payload) (typeId : Int32) :
    Body limit (announcement typeId payload :: fs) typeId true payload := by
  have hsize : (announcement typeId payload).header.length.toNat = payload.length :=
    toNat_length_of_le hfits
  have hbody := @Body.sliced limit (announcement typeId payload) fs (Header.kind_ofKind ..) rfl
    (length_le_of_le hfits) (hsize.symm ▸ hslices)
  rw [hsize, hgather] at hbody
  exact hbody

/-- The frames of a payload are frames of that payload to a receiver that has room for it. -/
theorem body_bodyFrames {limit : UInt32} (hfits : payload.length ≤ limit.toNat) (sliced : Bool)
    (typeId : Int32) :
    Body limit (bodyFrames sliceSize sliced typeId payload) typeId sliced payload := by
  have hlength := Nat.lt_of_le_of_lt hfits limit.toNat_lt
  cases sliced with
  | false =>
      exact .whole ⟨Header.kind_ofKind .., (toNat_length_of_le hfits).symm⟩ (length_le_of_le hfits)
  | true =>
      exact body_of_slices hfits (slices_sliceFrames sliceSize hlength)
        (gather_sliceFrames sliceSize hlength) typeId

end MessageChannel
