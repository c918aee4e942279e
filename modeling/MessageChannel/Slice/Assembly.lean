import MessageChannel.Header
import MessageChannel.Slice.Plan

namespace MessageChannel

structure Announced where
  typeId : Int32
  total : Nat
deriving DecidableEq, Repr

/-- The payload that is being received, whole or slice by slice. -/
structure Assembly where
  limit : UInt32
  size : Nat := 0
  /-- What was written where, latest first. The bytes of the payload that were not are zero. -/
  writes : List (Nat × List UInt8) := []
  inFlight : Option Announced := none
  /-- How many bytes of slices came since the slice header. The count has no bound here and needs
  none in a session, where it stays below `2 ^ 33` (`StreamSession.Annals.received_commit_lt`). -/
  received : Nat := 0
deriving DecidableEq, Repr

namespace Assembly

/-- Writes bytes over an array from a position on; what would leave the array is dropped. -/
def overlay (payload : Array UInt8) (offset : Nat) : List UInt8 → Array UInt8
  | [] => payload
  | b :: bytes => overlay (payload.setIfInBounds offset b) (offset + 1) bytes

def payload (a : Assembly) : Array UInt8 :=
  a.writes.foldr (fun (offset, bytes) payload => overlay payload offset bytes) (.replicate a.size 0)

def checkSize (a : Assembly) (length : UInt32) : Except ChannelError Nat :=
  if length ≤ a.limit then .ok length.toNat
  else .error (.tooLarge length.toNat a.limit.toNat)

def isAssembling (a : Assembly) : Bool := a.inFlight.isSome

def isComplete (a : Assembly) : Bool :=
  match a.inFlight with
  | some announced => announced.total ≤ a.received
  | none => false

def typeId? (a : Assembly) : Option Int32 := a.inFlight.map (·.typeId)

/-- Makes room for a payload that comes whole. -/
def prepare (a : Assembly) (h : Header) : Except ChannelError Unit × Assembly :=
  if a.isAssembling then (.error (.invalidHeader .completeInFlight), a)
  else match a.checkSize h.length with
    | .error error => (.error error, a)
    | .ok size => (.ok (), { a with size, writes := [] })

/-- Makes room for a payload that comes in slices. -/
def start (a : Assembly) (h : Header) : Except ChannelError Unit × Assembly :=
  if a.isAssembling then (.error (.invalidHeader .announcedInFlight), a)
  else match a.checkSize h.length with
    | .error error => (.error error, a)
    | .ok total =>
        (.ok (), { a with
          size := total, writes := [], inFlight := some ⟨h.data, total⟩, received := 0 })

/-- Where the bytes of a slice go. The range lies within what was announced. Nothing is written here
and nothing counted, whether the slice is let in or not. -/
def slot (a : Assembly) (h : Header) : Except ChannelError SliceRange :=
  match a.inFlight with
  | none => .error (.invalidHeader .unannounced)
  | some announced =>
      if h.offset + h.length.toNat ≤ announced.total then .ok ⟨h.offset, h.length.toNat⟩
      else .error (.invalidData (.sliceOutside h.offset h.length.toNat announced.total))

def region? (a : Assembly) (r : SliceRange) : Option (List UInt8) :=
  if r.stop ≤ a.size then some (a.payload.extract r.offset r.stop).toList else none

def fill (a : Assembly) (offset : Nat) (bytes : List UInt8) : Assembly :=
  { a with writes := (offset, bytes) :: a.writes }

/-- Counts a slice. That the sum is that of a machine word of 64 bits is up to a caller who counts
what no session does. -/
def commit (a : Assembly) (length : Nat) : Assembly := { a with received := a.received + length }

def finish (a : Assembly) : Assembly := { a with inFlight := none, received := 0 }

def take (a : Assembly) : List UInt8 × Assembly :=
  (a.payload.toList, { a.finish with size := 0, writes := [] })

/-- Takes a payload back for its memory; nothing of it is kept. -/
def recycle (a : Assembly) : Assembly := { a with size := 0, writes := [] }

def clear (a : Assembly) : Assembly := a.recycle.finish

@[simp] theorem size_overlay (payload : Array UInt8) (offset : Nat) (bytes : List UInt8) :
    (overlay payload offset bytes).size = payload.size := by
  induction bytes generalizing payload offset with
  | nil => rfl
  | cons b bytes ih => simp [overlay, ih]

@[simp] theorem size_payload (a : Assembly) : a.payload.size = a.size := by
  simp only [payload]
  induction a.writes with
  | nil => simp
  | cons write writes ih => simpa using ih

theorem payload_fill (a : Assembly) (offset : Nat) (bytes : List UInt8) :
    (a.fill offset bytes).payload = overlay a.payload offset bytes := rfl

theorem getElem?_overlay (payload : Array UInt8) (offset : Nat) (bytes : List UInt8) (i : Nat) :
    (overlay payload offset bytes)[i]? =
      if offset ≤ i ∧ i < offset + bytes.length ∧ i < payload.size then bytes[i - offset]?
      else payload[i]? := by
  induction bytes generalizing payload offset with
  | nil =>
      rw [overlay, if_neg]
      simp only [List.length_nil]
      omega
  | cons b bytes ih =>
      rw [overlay, ih, Array.size_setIfInBounds, Array.getElem?_setIfInBounds]
      simp only [List.length_cons]
      by_cases hi : offset = i
      · subst hi
        by_cases hs : offset < payload.size
        · rw [if_neg (by omega), if_pos rfl, if_pos hs, if_pos ⟨Nat.le_refl _, by omega, hs⟩]
          simp
        · rw [if_neg (by omega), if_pos rfl, if_neg hs, if_neg (by omega)]
          exact (Array.getElem?_eq_none (by omega)).symm
      · by_cases hr : offset + 1 ≤ i ∧ i < offset + 1 + bytes.length ∧ i < payload.size
        · rw [if_pos hr, if_pos (by omega), show i - offset = (i - (offset + 1)) + 1 by omega,
            List.getElem?_cons_succ]
        · rw [if_neg hr, if_neg hi, if_neg (by omega)]

end Assembly

end MessageChannel
