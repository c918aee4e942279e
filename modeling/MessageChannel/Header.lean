import MessageChannel.Bytes
import MessageChannel.Error

namespace MessageChannel

def headerSize : Nat := 10

/-- The fixed part of a frame. The kind stays a number, so that a header of an unknown kind can
be read and written back. -/
structure Header where
  length : UInt32 := 0
  data : Int32 := 0
  code : UInt16 := 0
deriving DecidableEq, Repr

namespace Header

def ofKind (kind : FrameKind) (length : UInt32) (data : Int32) : Header := ⟨length, data, kind.code⟩

def complete (length : UInt32) (typeId : Int32) : Header := ofKind .complete length typeId

def sliceHeader (total : UInt32) (typeId : Int32) : Header := ofKind .sliceHeader total typeId

def slice (length offset : UInt32) : Header := ofKind .slice length offset.toInt32

def cancel (typeId : Int32) : Header := ofKind .cancel 0 typeId

def versionVerification (length : UInt32) (typeId : Int32) : Header :=
  ofKind .versionVerification length typeId

/-- The offset of a slice: the data field, read without a sign. -/
def offset (h : Header) : Nat := h.data.toUInt32.toNat

def kind (h : Header) : Except ChannelError FrameKind :=
  match FrameKind.ofCode? h.code with
  | some kind => .ok kind
  | none => .error (.invalidHeader (.unknownKind h.code))

def isCancel (h : Header) : Bool := h.code == FrameKind.cancel.code

/-- Length, data and kind in network byte order. -/
def encode (h : Header) : List UInt8 :=
  bigEndian 4 h.length.toNat ++ bigEndian 4 h.data.toUInt32.toNat ++ bigEndian 2 h.code.toNat

def decode? (bytes : List UInt8) : Option Header := do
  let (length, bytes) ← splitExactly? 4 bytes
  let (data, bytes) ← splitExactly? 4 bytes
  let (code, _) ← splitExactly? 2 bytes
  return {
    length := .ofNat (ofBigEndian length)
    data := (UInt32.ofNat (ofBigEndian data)).toInt32
    code := .ofNat (ofBigEndian code) }

def parse (bytes : List UInt8) : Except ChannelError Header :=
  match decode? bytes with
  | some h => .ok h
  | none => .error (.invalidHeader (.short bytes.length))

/-- Writes the header over the first ten bytes of a buffer, if it has that many. -/
def encodeInto? (h : Header) (buffer : List UInt8) : Option (List UInt8) :=
  (splitExactly? headerSize buffer).map (fun (_, rest) => h.encode ++ rest)

def text (h : Header) : String :=
  let kind := match FrameKind.ofCode? h.code with
    | some kind => kind.text
    | none => s!"type {h.code}"
  s!"{kind} (length: {h.length}, data: {h.data})"

theorem length_encode (h : Header) : h.encode.length = headerSize := by
  simp [encode, length_bigEndian, headerSize]

end Header

end MessageChannel
