import MessageChannel.Proofs.AssemblyHistory

namespace MessageChannel

variable {μ : Type}

/-- A header that is refused changes nothing of the payload, unless it cancels the message. -/
theorem Receiver.onHeader_refused {registry : Registry μ} {h : Header} {s t : Scene (Receiver μ)}
    {halt : Halt} (hkind : h.kind ≠ .ok .cancel)
    (hrun : (onHeader registry h).run s = (.error halt, t)) :
    t.session = { s.session with header := h } := by
  obtain ⟨log, hrun'⟩ := timeless_onHeader registry h s
  rw [hrun', effect_onHeader] at hrun
  dsimp only at hrun
  repeat' split at hrun
  all_goals obtain ⟨⟨⟩, rfl⟩ := Prod.mk.inj hrun
  all_goals first | rfl | contradiction

namespace Assembly

namespace Operation

/-- A call for a slice whose bytes fill the slot that it may be given, or the account of some
bytes. -/
def Fills : Operation → Prop
  | slot h bytes => bytes.length = h.length.toNat
  | commit _ => True
  | _ => False

/-- A slice that lies within a payload of so many bytes, with this position in it. -/
def Covers (total i : Nat) : Operation → Prop
  | slot h _ => h.offset + h.length.toNat ≤ total ∧ h.offset ≤ i ∧ i < h.offset + h.length.toNat
  | _ => False

instance : (op : Operation) → Decidable op.Fills
  | slot h bytes => inferInstanceAs (Decidable (bytes.length = h.length.toNat))
  | commit _ => .isTrue trivial
  | prepare _ _ | start _ | finish | take | recycle | clear => .isFalse id

instance (total i : Nat) : (op : Operation) → Decidable (op.Covers total i)
  | slot h _ => inferInstanceAs (Decidable (h.offset + h.length.toNat ≤ total ∧ h.offset ≤ i ∧
      i < h.offset + h.length.toNat))
  | prepare _ _ | start _ | commit _ | finish | take | recycle | clear => .isFalse id

def Refused (a : Assembly) : Operation → Prop
  | prepare h _ => ∃ error b, a.prepare h = (.error error, b)
  | start h => ∃ error b, a.start h = (.error error, b)
  | slot h _ => ∃ error, a.slot h = .error error
  | _ => False

/-- A call that comes at the wrong time, or for which there is no room. -/
def Misplaced (a : Assembly) : Operation → Prop
  | prepare h _ | start h => a.inFlight ≠ none ∨ a.limit < h.length
  | slot h _ => ∀ announced, a.inFlight = some announced →
      announced.total < h.offset + h.length.toNat
  | _ => False

theorem Refused.run? {a : Assembly} {op : Operation} (h : op.Refused a) : op.run? a = some a := by
  cases op with
  | prepare h' bytes =>
      obtain ⟨error, b, hprepare⟩ := h
      rw [Operation.run?, hprepare, prepare_refused hprepare]
  | start h' =>
      obtain ⟨error, b, hstart⟩ := h
      rw [Operation.run?, hstart, start_refused hstart]
  | slot h' bytes =>
      obtain ⟨error, hslot⟩ := h
      rw [Operation.run?, hslot]
  | commit | finish | take | recycle | clear => cases h

theorem refused_iff {a : Assembly} {op : Operation} : op.Refused a ↔ op.Misplaced a := by
  cases op with
  | prepare h bytes => exact prepare_error_iff
  | start h => exact start_error_iff
  | slot h bytes =>
      rw [Refused, exists_error_iff, Misplaced]
      simp only [slot_eq_ok_iff, ← Nat.not_le]
      constructor
      · intro hrefused announced hflight hwithin
        exact hrefused ⟨_, announced, hflight, hwithin, rfl⟩
      · rintro hmisplaced ⟨_, announced, hflight, hwithin, -⟩
        exact hmisplaced announced hflight hwithin
  | commit | finish | take | recycle | clear => exact Iff.rfl

end Operation

open Operation (Fills Covers)

/-- A message of so many bytes is under way, and there is room for it. -/
structure Awaits (a : Assembly) (total : Nat) : Prop where
  inFlight : ∃ typeId, a.inFlight = some ⟨typeId, total⟩
  size : a.size = total

variable {a b : Assembly} {total i : Nat} {h : Header} {bytes : List UInt8} {op : Operation}
  {ops : List Operation}

theorem Awaits.slot (ha : a.Awaits total) (h : Header) : a.slot h =
    if h.offset + h.length.toNat ≤ total then .ok ⟨h.offset, h.length.toNat⟩
    else .error (.invalidData (.sliceOutside h.offset h.length.toNat total)) := by
  obtain ⟨typeId, hflight⟩ := ha.inFlight
  rw [Assembly.slot, hflight]

/-- A slice is written where it belongs if it lies within the payload, and refused if not. -/
theorem Awaits.run?_slot (ha : a.Awaits total) (hfull : bytes.length = h.length.toNat) :
    (Operation.slot h bytes).run? a =
      if h.offset + h.length.toNat ≤ total then some (a.fill h.offset bytes) else some a := by
  rw [Operation.run?, ha.slot]
  by_cases hwithin : h.offset + h.length.toNat ≤ total
  · have hstop : SliceRange.stop ⟨h.offset, h.length.toNat⟩ ≤ a.size := ha.size ▸ hwithin
    rw [if_pos hwithin, if_pos hwithin]
    dsimp only
    rw [write?_of_within hstop, List.take_of_length_le (Nat.le_of_eq hfull)]
  · rw [if_neg hwithin, if_neg hwithin]

theorem Awaits.fill (ha : a.Awaits total) (offset : Nat) (bytes : List UInt8) :
    (a.fill offset bytes).Awaits total := ⟨ha.inFlight, ha.size⟩

theorem getElem?_fill (a : Assembly) (offset : Nat) (bytes : List UInt8) (i : Nat) :
    (a.fill offset bytes).payload[i]? =
      if offset ≤ i ∧ i < offset + bytes.length ∧ i < a.size then bytes[i - offset]?
      else a.payload[i]? := by
  rw [payload_fill, getElem?_overlay, size_payload]

/-- A call changes no byte but those that its slice covers. -/
theorem Awaits.step (ha : a.Awaits total) (hop : op.Fills) : ∃ b, op.run? a = some b ∧
    b.Awaits total ∧ ∀ i, ¬op.Covers total i → b.payload[i]? = a.payload[i]? := by
  cases op with
  | slot h bytes =>
      rw [ha.run?_slot hop]
      split
      · next hwithin =>
        refine ⟨_, rfl, ha.fill _ _, fun i hi => ?_⟩
        rw [getElem?_fill, if_neg]
        rintro ⟨hfrom, hto, -⟩
        rw [hop] at hto
        exact hi ⟨hwithin, hfrom, hto⟩
      · exact ⟨a, rfl, ha, fun _ _ => rfl⟩
  | commit length => exact ⟨_, rfl, ⟨ha.inFlight, ha.size⟩, fun _ _ => rfl⟩
  | prepare | start | finish | take | recycle | clear => cases hop

theorem Awaits.runAll? (ha : a.Awaits total) (hops : ∀ op ∈ ops, op.Fills) :
    ∃ b, a.runAll? ops = some b ∧ b.Awaits total ∧
      ∀ i, (∀ op ∈ ops, ¬op.Covers total i) → b.payload[i]? = a.payload[i]? := by
  induction ops generalizing a with
  | nil => exact ⟨a, rfl, ha, fun _ _ => rfl⟩
  | cons op ops ih =>
      obtain ⟨b, hrun, hb, hkept⟩ := ha.step (hops op List.mem_cons_self)
      obtain ⟨c, hruns, hc, hkept'⟩ := ih hb fun op hop => hops op (List.mem_cons_of_mem _ hop)
      refine ⟨c, by rw [Assembly.runAll?, hrun]; exact hruns, hc, fun i hi => ?_⟩
      rw [hkept' i fun op hop => hi op (List.mem_cons_of_mem _ hop),
        hkept i (hi op List.mem_cons_self)]

/-- The latest slice with a position in it has the byte there. -/
theorem Awaits.getElem?_latest {before after : List Operation} (ha : a.Awaits total)
    (hbefore : ∀ op ∈ before, op.Fills) (hfull : (Operation.slot h bytes).Fills)
    (hafter : ∀ op ∈ after, op.Fills) (hcovers : (Operation.slot h bytes).Covers total i)
    (hlatest : ∀ op ∈ after, ¬op.Covers total i)
    (hrun : a.runAll? (before ++ .slot h bytes :: after) = some b) :
    b.payload[i]? = bytes[i - h.offset]? := by
  obtain ⟨hwithin, hfrom, hto⟩ := hcovers
  obtain ⟨c, hfirst, hc, -⟩ := ha.runAll? hbefore
  have hslot : (Operation.slot h bytes).run? c = some (c.fill h.offset bytes) := by
    rw [hc.run?_slot hfull, if_pos hwithin]
  obtain ⟨d, hlast, -, hkept⟩ := (hc.fill h.offset bytes).runAll? hafter
  rw [runAll?_append, hfirst, Option.bind_some, Assembly.runAll?, hslot, Option.bind_some,
    hlast] at hrun
  obtain rfl := Option.some.inj hrun
  have hfull : bytes.length = h.length.toNat := hfull
  rw [hkept i hlatest, getElem?_fill, if_pos]
  rw [hfull, hc.size]
  omega

theorem awaits_start {a b : Assembly} (hstart : a.start h = (.ok (), b)) :
    b.Awaits h.length.toNat ∧ b.payload = .replicate h.length.toNat 0 ∧ b.received = 0 := by
  obtain ⟨-, -, rfl⟩ := start_eq_ok_iff.1 hstart
  exact ⟨⟨⟨_, rfl⟩, rfl⟩, rfl, rfl⟩

/-- What there is of a payload of so many bytes after these calls: each byte is the one of the
latest slice that was let in there, or zero if there was none. -/
structure Shows (total : Nat) (ops : List Operation) (a : Assembly) : Prop where
  size : a.payload.size = total
  letsIn : ∀ g, (∃ r, a.slot g = .ok r) ↔ g.offset + g.length.toNat ≤ total
  latest : ∀ {before g bytes after i}, ops = before ++ .slot g bytes :: after →
    (Operation.slot g bytes).Covers total i → (∀ op ∈ after, ¬op.Covers total i) →
    a.payload[i]? = bytes[i - g.offset]?
  blank : ∀ i < total, (∀ op ∈ ops, ¬op.Covers total i) → a.payload[i]? = some 0

theorem Awaits.shows (ha : a.Awaits total) (hblank : a.payload = .replicate total 0)
    (hops : ∀ op ∈ ops, op.Fills) : ∃ b, a.runAll? ops = some b ∧ b.Shows total ops := by
  obtain ⟨b, hrun, hb, hkept⟩ := ha.runAll? hops
  refine ⟨b, hrun, by rw [size_payload, hb.size], fun g => ?_, ?_, fun i hi hnone => ?_⟩
  · rw [hb.slot]
    split <;> simp [*]
  · rintro before g bytes after i rfl hcovers hlatest
    refine ha.getElem?_latest (fun op hop => hops op ?_) (hops _ ?_) (fun op hop => hops op ?_)
      hcovers hlatest hrun
    · exact List.mem_append_left _ hop
    · exact List.mem_append_right _ List.mem_cons_self
    · exact List.mem_append_right _ (List.mem_cons_of_mem _ hop)
  · rw [hkept i hnone, hblank, Array.getElem?_replicate, if_pos hi]

/-- A payload shows nothing but the latest slices of the message that was announced, whatever the
memory held before. What is refused changes nothing. -/
theorem payload_latest {a : Assembly} {h : Header} (hidle : a.inFlight = none)
    (hfits : h.length ≤ a.limit) :
    (∃ b, a.start h = (.ok (), b) ∧
      (∀ a' : Assembly, a'.inFlight = none → a'.limit = a.limit → a'.start h = (.ok (), b)) ∧
      ∀ ops : List Operation, (∀ op ∈ ops, op.Fills) →
        ∃ c, b.runAll? ops = some c ∧ c.Shows h.length.toNat ops) ∧
    (∀ (a : Assembly) (op : Operation), op.Refused a → op.Misplaced a ∧ op.run? a = some a) ∧
    ∀ (registry : Registry μ) h s t halt, h.kind ≠ .ok .cancel →
      (Receiver.onHeader registry h).run s = (.error halt, t) →
        t.session = { s.session with header := h } := by
  refine ⟨?_, fun a op hrefused => ⟨Operation.refused_iff.1 hrefused, hrefused.run?⟩,
    fun registry h s t halt hkind hrun => Receiver.onHeader_refused hkind hrun⟩
  have hstart := start_eq_ok_iff.2 ⟨hidle, hfits, rfl⟩
  obtain ⟨hawaits, hblank, -⟩ := awaits_start hstart
  refine ⟨_, hstart, fun a' hidle' hlimit => ?_, fun ops hops => hawaits.shows hblank hops⟩
  rw [← hlimit] at hfits ⊢
  exact start_eq_ok_iff.2 ⟨hidle', hfits, rfl⟩

/-- Memory in which an earlier payload still stands. -/
def usedMemory : Assembly where
  limit := 8
  size := 6
  writes := [(0, [1, 2, 3, 4, 5, 6])]

def overlappingSlices : List Operation :=
  [.slot (.slice 3 0) [11, 12, 13], .commit 3, .slot (.slice 3 2) [14, 15, 16],
    .slot (.slice 2 1) [17, 18], .commit 2]

/-- The last slice overwrites part of the first. The one between them leaves the payload and is
refused. -/
theorem payload_latest_overlappingSlices : ∃ b c,
    usedMemory.start (.sliceHeader 4 16) = (.ok (), b) ∧
    b.runAll? overlappingSlices = some c ∧ c.payload[0]? = some 11 ∧ c.payload[1]? = some 17 ∧
      c.payload[3]? = some 0 := by
  obtain ⟨⟨b, hstart, -, hbytes⟩, -⟩ :=
    payload_latest (μ := Unit) (a := usedMemory) (h := .sliceHeader 4 16) rfl (by decide)
  obtain ⟨c, hrun, hshows⟩ := hbytes overlappingSlices (by decide)
  refine ⟨b, c, hstart, hrun, ?_, ?_, ?_⟩
  · exact @hshows.latest [] _ _ _ 0 rfl (by decide) (by decide)
  · exact @hshows.latest (overlappingSlices.take 3) _ _ _ 1 rfl (by decide) (by decide)
  · exact hshows.blank 3 (by decide) (by decide)

end Assembly

end MessageChannel
