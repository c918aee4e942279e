import MessageChannel.Proofs.Emission
import Mathlib.Algebra.Order.Floor.Div
import Mathlib.Data.List.Chain
import Mathlib.Logic.Function.Iterate

namespace MessageChannel

namespace SliceRange

/-- Ranges that follow one another from `start` to `stop`, none of them empty and all but the last
of the same length. -/
structure Partition (start stop chunk : Nat) (ranges : List SliceRange) : Prop where
  first : ∀ r ∈ ranges.head?, r.offset = start
  contiguous : ranges.IsChain fun r next => next.offset = r.stop
  last : (ranges.getLast?.map SliceRange.stop).getD start = stop
  sized : ∀ r ∈ ranges, 1 ≤ r.length ∧ r.length ≤ chunk
  full : ∀ r ∈ ranges.dropLast, r.length = chunk

variable {start stop chunk : Nat} {r : SliceRange} {ranges : List SliceRange}

theorem Partition.nil : Partition stop stop chunk [] := by
  constructor <;> simp

theorem Partition.cons_iff : Partition start stop chunk (r :: ranges) ↔
    r.offset = start ∧ 1 ≤ r.length ∧ r.length ≤ chunk ∧ (ranges ≠ [] → r.length = chunk) ∧
      Partition r.stop stop chunk ranges := by
  have hlast : ((r :: ranges).getLast?.map SliceRange.stop).getD start =
      (ranges.getLast?.map SliceRange.stop).getD r.stop := by
    rw [List.getLast?_cons]
    cases ranges.getLast? <;> rfl
  constructor
  · rintro ⟨hfirst, hcontiguous, hend, hsized, hfull⟩
    obtain ⟨hnext, hcontiguous⟩ := List.isChain_cons.1 hcontiguous
    obtain ⟨hr, hsized⟩ := List.forall_mem_cons.1 hsized
    refine ⟨hfirst r rfl, hr.1, hr.2, fun hne => ?_, hnext, hcontiguous, hlast ▸ hend, hsized,
      fun s hs => ?_⟩
    · exact hfull r (by rw [List.dropLast_cons_of_ne_nil hne]; exact List.mem_cons_self)
    · refine hfull s ?_
      cases ranges with
      | nil => cases hs
      | cons head ranges => exact List.mem_cons_of_mem r hs
  · rintro ⟨hr, hsome, hfits, hall, hnext, hcontiguous, hend, hsized, hfull⟩
    refine ⟨fun s hs => ?_, List.isChain_cons.2 ⟨hnext, hcontiguous⟩, hlast ▸ hend,
      List.forall_mem_cons.2 ⟨⟨hsome, hfits⟩, hsized⟩, fun s hs => ?_⟩
    · obtain rfl := Option.some.inj hs
      exact hr
    · cases ranges with
      | nil => cases hs
      | cons head ranges =>
          rcases List.mem_cons.1 hs with rfl | hs
          · exact hall (List.cons_ne_nil _ _)
          · exact hfull s hs

/-- What the ranges cut out of a payload is the payload. -/
theorem Partition.flatMap_of {payload : List UInt8}
    (h : Partition start payload.length chunk ranges) :
    ranges.flatMap (·.of payload) = payload.drop start := by
  induction ranges generalizing start with
  | nil =>
      have hstart : start = payload.length := h.last
      rw [hstart, List.drop_length, List.flatMap_nil]
  | cons r ranges ih =>
      obtain ⟨rfl, -, -, -, hrest⟩ := Partition.cons_iff.1 h
      rw [List.flatMap_cons, ih hrest, SliceRange.of, SliceRange.stop, ← List.drop_drop,
        List.take_append_drop]

end SliceRange

namespace SlicePlan

open SliceRange (Partition)

theorem remaining_eq_ceilDiv (p : SlicePlan) :
    p.remaining = (p.total - p.offset) ⌈/⌉ p.chunk := by
  rw [remaining, Nat.ceilDiv_eq_add_pred_div]

theorem remaining_eq_length (p : SlicePlan) : p.remaining = p.ranges.length := by
  fun_induction ranges p with
  | case1 p hlt length ih =>
      have hpos := p.chunk_pos
      have hstep : p.total - p.offset + p.chunk - 1 = p.total - p.offset - 1 + p.chunk := by omega
      have hrest : (p.total - (p.offset + length) + p.chunk - 1) / p.chunk =
          (p.total - p.offset - 1) / p.chunk := by
        by_cases hfull : p.chunk ≤ p.total - p.offset
        · congr 1
          omega
        · -- One range that is not full takes all that is left.
          rw [Nat.div_eq_of_lt (by omega), Nat.div_eq_of_lt (by omega)]
      rw [List.length_cons, ← ih]
      simp only [remaining]
      rw [hstep, Nat.add_div_right _ hpos, hrest]
  | case2 p hge =>
      rw [remaining, Nat.sub_eq_zero_of_le (Nat.le_of_not_lt hge), List.length_nil]
      exact Nat.div_eq_of_lt (by have := p.chunk_pos; omega)

theorem partition_ranges {p : SlicePlan} (h : p.offset ≤ p.total) :
    Partition p.offset p.total p.chunk p.ranges := by
  fun_induction ranges p with
  | case1 p hlt length ih =>
      have hpos := p.chunk_pos
      have hle : p.offset + length ≤ p.total := by omega
      refine Partition.cons_iff.2 ⟨rfl, ?_, Nat.min_le_right _ _, fun hne => ?_, ih hle⟩
      · dsimp only
        omega
      · -- Behind a range that is not full nothing is left.
        by_contra hshort
        refine hne ?_
        rw [ranges, dif_neg]
        dsimp only at hshort ⊢
        omega
  | case2 p hge =>
      obtain heq : p.offset = p.total := Nat.le_antisymm h (Nat.le_of_not_lt hge)
      rw [heq]
      exact .nil

/-- What a call for the next range leaves. A call that gets none changes nothing. -/
def following (p : SlicePlan) : SlicePlan := (p.next?.map Prod.snd).getD p

theorem fst_next? (p : SlicePlan) : p.next?.map Prod.fst = p.ranges.head? := by
  cases hnext : p.next? with
  | none => rw [ranges_of_next?_eq_none hnext]; rfl
  | some head => rw [ranges_of_next?_eq_some hnext]; rfl

theorem ranges_following (p : SlicePlan) : p.following.ranges = p.ranges.tail := by
  rw [following]
  cases hnext : p.next? with
  | none =>
      rw [Option.map_none, Option.getD_none, ranges_of_next?_eq_none hnext, List.tail_nil]
  | some head =>
      rw [Option.map_some, Option.getD_some, ranges_of_next?_eq_some hnext, List.tail_cons]

/-- The plan cuts the same payload into stretches of the same size, and has not gone past its
end. -/
structure Within (total chunk : Nat) (p : SlicePlan) : Prop where
  total_eq : p.total = total
  chunk_eq : p.chunk = chunk
  offset_le : p.offset ≤ p.total

/-- After `k` calls the plan gives the range that is due, and it knows how many are to come. -/
structure Foresees (ranges : List SliceRange) (k : Nat) (p : SlicePlan) : Prop where
  next : p.next?.map Prod.fst = ranges[k]?
  remaining : p.remaining = ranges.length - k
  sizeHint : p.sizeHint = (ranges.length - k, some (ranges.length - k))

variable {total chunk : Nat} {p : SlicePlan} {r : SliceRange}

theorem Within.following (h : p.Within total chunk) : p.following.Within total chunk := by
  obtain ⟨htotal, hchunk, hle⟩ := h
  rw [SlicePlan.following, next?]
  split
  · refine ⟨htotal, hchunk, ?_⟩
    dsimp only [Option.map_some, Option.getD_some]
    omega
  · exact ⟨htotal, hchunk, hle⟩

theorem Within.iterate (h : p.Within total chunk) (k : Nat) :
    (SlicePlan.following^[k] p).Within total chunk := by
  induction k generalizing p with
  | zero => exact h
  | succ k ih => exact ih h.following

theorem ranges_iterate (p : SlicePlan) (k : Nat) :
    (SlicePlan.following^[k] p).ranges = p.ranges.drop k := by
  induction k generalizing p with
  | zero => rfl
  | succ k ih => rw [Function.iterate_succ_apply, ih, ranges_following, List.drop_tail]

theorem foresees_iterate (p : SlicePlan) (k : Nat) :
    (SlicePlan.following^[k] p).Foresees p.ranges k := by
  have hremaining : (SlicePlan.following^[k] p).remaining = p.ranges.length - k := by
    rw [remaining_eq_length, ranges_iterate, List.length_drop]
  refine ⟨?_, hremaining, ?_⟩
  · rw [fst_next?, ranges_iterate, List.head?_drop]
  · rw [sizeHint, hremaining]

theorem length_sliceFrame_le {payload : List UInt8} {sliceSize : Nat}
    (hroom : headerSize < sliceSize) (hr : r ∈ (ofSizes payload.length sliceSize).ranges) :
    (sliceFrame payload r).encode.length ≤ sliceSize := by
  have hsized := ((partition_ranges (Nat.zero_le _)).sized r hr).2
  have hchunk : (ofSizes payload.length sliceSize).chunk = max (sliceSize - headerSize) 1 := rfl
  have hcut : (sliceFrame payload r).payload.length ≤ r.length := List.length_take_le _ _
  rw [Frame.length_encode]
  omega

/-- The ranges of a plan are a partition of the payload, and at each call for the next of them the
plan knows how many are to come. -/
theorem ranges_ofSizes (total sliceSize : Nat) :
    Partition 0 total (max (sliceSize - headerSize) 1) (ofSizes total sliceSize).ranges ∧
      (ofSizes total sliceSize).ranges.length = total ⌈/⌉ max (sliceSize - headerSize) 1 ∧
      (∀ payload : List UInt8, payload.length = total →
        (ofSizes total sliceSize).ranges.flatMap (·.of payload) = payload ∧
          (headerSize < sliceSize →
            ∀ f ∈ sliceFrames sliceSize payload, f.encode.length ≤ sliceSize)) ∧
      ∀ k, (following^[k] (ofSizes total sliceSize)).Within total (max (sliceSize - headerSize) 1) ∧
        (following^[k] (ofSizes total sliceSize)).Foresees (ofSizes total sliceSize).ranges k := by
  have hwithin : (ofSizes total sliceSize).Within total (max (sliceSize - headerSize) 1) :=
    ⟨rfl, rfl, Nat.zero_le _⟩
  have hpartition := partition_ranges hwithin.offset_le
  refine ⟨hpartition, ?_, ?_, fun k => ⟨hwithin.iterate k, foresees_iterate _ k⟩⟩
  · rw [← remaining_eq_length, remaining_eq_ceilDiv]
    rfl
  · rintro payload rfl
    refine ⟨Partition.flatMap_of hpartition, fun hroom f hf => ?_⟩
    obtain ⟨r, hr, rfl⟩ := List.mem_map.1 hf
    exact length_sliceFrame_le hroom hr

/-- Five bytes in frames with room for two, seen before the last of them. -/
theorem ranges_ofSizes_lastShort :
    headerSize < 12 ∧ (ofSizes 5 12).ranges.length = 3 ∧
      (ofSizes 5 12).ranges.flatMap (·.of [1, 2, 3, 4, 5]) = [1, 2, 3, 4, 5] ∧
      (∀ f ∈ sliceFrames 12 [1, 2, 3, 4, 5], f.encode.length ≤ 12) ∧
      (ofSizes 5 12).ranges[2]? = some ⟨4, 1⟩ ∧
      (following^[2] (ofSizes 5 12)).sizeHint = (1, some 1) := by
  obtain ⟨-, hcount, hpayload, hcalls⟩ := ranges_ofSizes 5 12
  have hthree : (ofSizes 5 12).ranges.length = 3 := hcount
  obtain ⟨hwhole, hframes⟩ := hpayload [1, 2, 3, 4, 5] rfl
  obtain ⟨-, hlast⟩ := hcalls 2
  have hhint := hlast.sizeHint
  rw [hthree] at hhint
  exact ⟨by decide, hthree, hwhole, hframes (by decide), hlast.next.symm, hhint⟩

end SlicePlan

end MessageChannel
