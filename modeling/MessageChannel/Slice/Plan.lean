import MessageChannel.Header

namespace MessageChannel

structure SliceRange where
  offset : Nat
  length : Nat
deriving DecidableEq, Repr

namespace SliceRange

def stop (r : SliceRange) : Nat := r.offset + r.length

def of (r : SliceRange) (payload : List UInt8) : List UInt8 := (payload.drop r.offset).take r.length

end SliceRange

/-- How the rest of a payload is cut: from `offset` on into stretches of `chunk` bytes. -/
structure SlicePlan where
  total : Nat
  chunk : Nat
  offset : Nat := 0
  chunk_pos : 0 < chunk
deriving DecidableEq, Repr

namespace SlicePlan

/-- A frame of `sliceSize` bytes has room for that many bytes less a header, but for one at
least. -/
def ofSizes (total sliceSize : Nat) : SlicePlan where
  total := total
  chunk := max (sliceSize - headerSize) 1
  chunk_pos := by omega

def remaining (p : SlicePlan) : Nat := (p.total - p.offset + p.chunk - 1) / p.chunk

/-- Bounds for the number of ranges to come. Both are exact. -/
def sizeHint (p : SlicePlan) : Nat × Option Nat := (p.remaining, some p.remaining)

def next? (p : SlicePlan) : Option (SliceRange × SlicePlan) :=
  if p.offset < p.total then
    let length := min (p.total - p.offset) p.chunk
    some (⟨p.offset, length⟩, { p with offset := p.offset + length })
  else none

def ranges (p : SlicePlan) : List SliceRange :=
  if _h : p.offset < p.total then
    let length := min (p.total - p.offset) p.chunk
    ⟨p.offset, length⟩ :: ranges { p with offset := p.offset + length }
  else []
termination_by p.total - p.offset
decreasing_by
  have := p.chunk_pos
  omega

theorem next?_eq_none_iff (p : SlicePlan) : p.next? = none ↔ p.total ≤ p.offset := by
  simp only [next?]
  split <;> simp <;> omega

theorem ranges_of_next?_eq_none {p : SlicePlan} (h : p.next? = none) : p.ranges = [] := by
  rw [ranges, dif_neg]
  rw [next?_eq_none_iff] at h
  omega

theorem ranges_of_next?_eq_some {p q : SlicePlan} {r : SliceRange} (h : p.next? = some (r, q)) :
    p.ranges = r :: q.ranges := by
  simp only [next?] at h
  split at h
  · next hlt =>
    simp only [Option.some.injEq, Prod.mk.injEq] at h
    obtain ⟨rfl, rfl⟩ := h
    rw [ranges, dif_pos hlt]
  · simp at h

end SlicePlan

end MessageChannel
