import Mathlib.Data.Finset.Card
import Mathlib.Order.Interval.Finset.Nat
import MessageChannel.Message.Any
import MessageChannel.Proofs.Standing

namespace MessageChannel

variable {μ : Type}

/-- The positions in the payload that a slice is for. -/
def Frame.positions (f : Frame) : Finset Nat :=
  Finset.Ico f.header.offset (f.header.offset + f.header.length.toNat)

theorem Frame.card_positions (f : Frame) : f.positions.card = f.header.length.toNat := by
  rw [positions, Nat.card_Ico, Nat.add_sub_cancel_left]

def covered : List Frame → Finset Nat
  | [] => ∅
  | f :: fs => f.positions ∪ covered fs

theorem mem_covered {fs : List Frame} {i : Nat} : i ∈ covered fs ↔ ∃ f ∈ fs, i ∈ f.positions := by
  induction fs with
  | nil => simp [covered]
  | cons f fs ih => simp [covered, ih]

def Apart (f g : Frame) : Prop := Disjoint f.positions g.positions

theorem disjoint_covered_iff {f : Frame} {fs : List Frame} :
    Disjoint f.positions (covered fs) ↔ ∀ g ∈ fs, Apart f g := by
  induction fs with
  | nil => simp [covered]
  | cons g fs ih => simp [covered, Finset.disjoint_union_right, ih, Apart]

theorem card_covered_le (fs : List Frame) : (covered fs).card ≤ sliceBytes fs := by
  induction fs with
  | nil => simp [covered]
  | cons f fs ih =>
      have hunion := Finset.card_union_le f.positions (covered fs)
      rw [f.card_positions] at hunion
      simp only [covered, sliceBytes, List.foldr_cons] at ih ⊢
      omega

/-- Slices cover as many positions as they have bytes when no two of them overlap. -/
theorem card_covered_eq_iff (fs : List Frame) :
    (covered fs).card = sliceBytes fs ↔ fs.Pairwise Apart := by
  induction fs with
  | nil => simp [covered, sliceBytes]
  | cons f fs ih =>
      have hle := card_covered_le fs
      have hsum := Finset.card_union_add_card_inter f.positions (covered fs)
      have hbytes : sliceBytes (f :: fs) = f.header.length.toNat + sliceBytes fs := rfl
      rw [f.card_positions] at hsum
      rw [List.pairwise_cons, ← ih, ← disjoint_covered_iff, Finset.disjoint_iff_inter_eq_empty,
        ← Finset.card_eq_zero, covered, hbytes]
      omega

theorem covered_subset {total : Nat} {fs : List Frame}
    (hwithin : ∀ f ∈ fs, f.header.offset + f.header.length.toNat ≤ total) :
    covered fs ⊆ Finset.range total := by
  intro i hi
  obtain ⟨f, hf, hi⟩ := mem_covered.1 hi
  have hle := hwithin f hf
  rw [Frame.positions, Finset.mem_Ico] at hi
  rw [Finset.mem_range]
  omega

/-- As soon as enough bytes of slices have come, the slices cover the payload exactly when no two
of them overlap. -/
theorem Slices.whole_iff {total : Nat} {fs : List Frame} (h : Slices 0 total fs) :
    ((∀ i < total, ∃ f ∈ fs, i ∈ f.positions) ∧ sliceBytes fs = total) ↔ fs.Pairwise Apart := by
  have hsubset := covered_subset fun f hf => (h.within f hf).2
  have hcard := Finset.card_le_card hsubset
  have hle := card_covered_le fs
  have henough := h.enough
  rw [Finset.card_range] at hcard
  rw [Nat.zero_add] at henough
  rw [← card_covered_eq_iff]
  constructor
  · rintro ⟨hcovers, hexact⟩
    have hrange : Finset.range total ⊆ covered fs := by
      intro i hi
      exact mem_covered.2 (hcovers i (Finset.mem_range.1 hi))
    have hback := Finset.card_le_card hrange
    rw [Finset.card_range] at hback
    omega
  · intro hdistinct
    have hrange : covered fs = Finset.range total := by
      apply Finset.eq_of_subset_of_card_le hsubset
      rw [Finset.card_range]
      omega
    refine ⟨fun i hi => ?_, by omega⟩
    rw [← mem_covered, hrange]
    exact Finset.mem_range.2 hi

/-- What no slice is for stays as it was. -/
theorem getElem?_gather {payload : Array UInt8} {fs : List Frame} {i : Nat}
    (hcarries : ∀ f ∈ fs, f.Carries .slice) (hnone : ∀ f ∈ fs, i ∉ f.positions) :
    (gather payload fs)[i]? = payload[i]? := by
  induction fs generalizing payload with
  | nil => rfl
  | cons f fs ih =>
      have hf := hnone f List.mem_cons_self
      rw [Frame.positions, Finset.mem_Ico, ← (hcarries f List.mem_cons_self).length] at hf
      have hgather : gather payload (f :: fs) =
          gather (Assembly.overlay payload f.header.offset f.payload) fs := rfl
      rw [hgather, ih (fun g hg => hcarries g (List.mem_cons_of_mem _ hg))
        fun g hg => hnone g (List.mem_cons_of_mem _ hg), Assembly.getElem?_overlay, if_neg]
      rintro ⟨hfrom, hto, -⟩
      exact hf ⟨hfrom, hto⟩

namespace StreamSession

open Receiver (Announces handOut)

variable [Message μ]

/-- A payload in slices is handed out when as many bytes of slices as were announced have come. It
is whole, with no byte too many, just when no two of the slices overlap; a byte that no slice was
for is zero. -/
theorem receive_sliced {flags : Flags} {s t : Scene (StreamSession μ)} {ended : Except Halt μ}
    (hidle : s.session.Idle) (hrun : (receive flags).run s = (ended, t)) :
    ∃ log fs demand u v, Passes { s with log } fs demand u ∧ Ends flags u demand ended v ∧
      ∀ typeId, demand = .delivery typeId true → ∃ tables told f slices,
        let payload := gather (.replicate f.header.length.toNat 0) slices
        fs = tables ++ f :: slices ∧ f.header.data = typeId ∧
        Tables s.session.config.maxPayload s.session.receiver.peerTable tables told ∧
        Announces s.session.config.maxPayload f ∧ Slices 0 f.header.length.toNat slices ∧
        ended = handOut flags (s.session.registry.resolve? typeId told) told typeId true
          payload.toList ∧
        ((∀ i < f.header.length.toNat, ∃ g ∈ slices, i ∈ g.positions) ∧
          sliceBytes slices = f.header.length.toNat ↔ slices.Pairwise Apart) ∧
        ∀ i < f.header.length.toNat, (∀ g ∈ slices, i ∉ g.positions) → payload[i]? = some 0 := by
  obtain ⟨log, fs, demand, u, v, hpasses, hends, -⟩ := receive_ends hrun
  refine ⟨log, fs, demand, u, v, hpasses, hends, ?_⟩
  rintro typeId rfl
  cases hpasses.takes.1.stands hidle.rests with
  | @delivers tables body told _ _ _ htables hbody hmessage htold =>
      obtain ⟨hended, -⟩ := hends.handedOut
      rw [Receiver.delivered, hmessage, htold] at hended
      generalize hpayload : u.session.receiver.assembly.payload.toList = payload at hbody hended
      cases hbody with
      | @sliced f slices hkind hbare hfits hslices =>
          refine ⟨tables, told, f, slices, rfl, rfl, htables, ⟨hkind, hbare, hfits⟩, hslices,
            hended, hslices.whole_iff, fun i hi hnone => ?_⟩
          rw [getElem?_gather (fun g hg => (hslices.within g hg).1) hnone]
          simp [hi]

def rawData? : Except Halt AnyMessage → Option (List UInt8)
  | .ok (.raw m) => some m.data
  | _ => none

/-- Four bytes are announced, and the first three of them come twice. -/
def overlapping : List Frame :=
  [⟨.sliceHeader 4 rawTypeId, []⟩, ⟨.slice 3 0, [97, 98, 99]⟩, ⟨.slice 3 0, [97, 98, 99]⟩]

def receivingOverlap : Scene (StreamSession AnyMessage) where
  session := .new (.ofVersion 1) {} { inbound := { arrivals := [.bytes (wire overlapping)] } }

theorem receive_sliced_overlapping : ∃ log fs typeId u v ended tables f slices,
    Passes { receivingOverlap with log } fs (.delivery typeId true) u ∧
      Ends .none u (.delivery typeId true) ended v ∧ ended.isOk = true ∧
      fs = tables ++ f :: slices ∧ Slices 0 f.header.length.toNat slices := by
  have hok : ((receive .none).run receivingOverlap).1.isOk = true := by decide +kernel
  generalize hrun : (receive .none).run receivingOverlap = result at hok
  obtain ⟨ended, t⟩ := result
  have hidle : receivingOverlap.session.Idle := ⟨rfl, rfl⟩
  obtain ⟨log, fs, demand, u, v, hpasses, hends, hdelivers⟩ := receive_sliced hidle hrun
  obtain ⟨typeId, sliced, rfl⟩ : ∃ typeId sliced, demand = .delivery typeId sliced := by
    rcases hends.cases with ⟨typeId, sliced, hdemand, -⟩ | rfl | ⟨error, rfl⟩
    · exact ⟨typeId, sliced, hdemand⟩
    · cases hok
    · cases hok
  cases sliced with
  | true =>
      obtain ⟨tables, told, f, slices, hfs, -, -, -, hslices, -⟩ := hdelivers typeId rfl
      exact ⟨log, fs, typeId, u, v, ended, tables, f, slices, hpasses, hends, hok, hfs, hslices⟩
  | false =>
      -- The stream begins with a slice header, so what is handed out is no payload that came whole.
      obtain ⟨f, gs, rfl, hkind⟩ := (hpasses.takes.1.stands hidle.rests).head_of_whole
      obtain ⟨behind, hbehind⟩ := hpasses.available_eq
      have hwhole : receivingOverlap.session.available =
          Frame.encode ⟨.sliceHeader 4 rawTypeId, []⟩ ++ wire overlapping.tail := by decide +kernel
      obtain ⟨hheader, -⟩ := Frame.header_of_encode_append (hbehind.symm.trans hwhole)
      rw [hheader] at hkind
      exact absurd rfl hkind

/-- A payload is handed out though its last byte never came, and with two bytes too many. -/
theorem receive_overlapping :
    rawData? ((receive .none).run receivingOverlap).1 = some [97, 98, 99, 0] ∧
      (∀ f ∈ overlapping.tail, 3 ∉ f.positions) ∧ sliceBytes overlapping.tail = 6 :=
  ⟨by decide +kernel, by decide +kernel, by decide⟩

end StreamSession

end MessageChannel
