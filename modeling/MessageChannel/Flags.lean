namespace MessageChannel

/-- What one call is asked to do besides sending or receiving. -/
structure Flags where
  inWorker : Bool := false
  sliced : Bool := false
  versioned : Bool := false
  keepUnknown : Bool := false
deriving DecidableEq, Repr

namespace Flags

def none : Flags := {}

def all : Flags := ⟨true, true, true, true⟩

def bits (f : Flags) : UInt32 :=
  (if f.inWorker then 1 else 0) + (if f.sliced then 2 else 0) + (if f.versioned then 4 else 0) +
    (if f.keepUnknown then 8 else 0)

def ofBits (word : UInt32) : Flags where
  inWorker := word &&& 1 != 0
  sliced := word &&& 2 != 0
  versioned := word &&& 4 != 0
  keepUnknown := word &&& 8 != 0

def ofBits? (word : UInt32) : Option Flags :=
  if (ofBits word).bits = word then some (ofBits word) else Option.none

def zipWith (op : Bool → Bool → Bool) (f g : Flags) : Flags :=
  ⟨op f.inWorker g.inWorker, op f.sliced g.sliced, op f.versioned g.versioned,
    op f.keepUnknown g.keepUnknown⟩

def union : Flags → Flags → Flags := zipWith or

def inter : Flags → Flags → Flags := zipWith and

def diff : Flags → Flags → Flags := zipWith (fun a b => a && !b)

def symmDiff : Flags → Flags → Flags := zipWith xor

def compl (f : Flags) : Flags := all.diff f

def isEmpty (f : Flags) : Bool := f == none

def contains (f g : Flags) : Bool := f.inter g == g

def intersects (f g : Flags) : Bool := !(f.inter g).isEmpty

def names (f : Flags) : List String :=
  [(f.inWorker, "SERIALIZER_IN_THREAD"), (f.sliced, "SLICE_DATA"),
    (f.versioned, "VERSION_VERIFICATION"), (f.keepUnknown, "RECV_UNKNOWN_TYPE_DATA")].filterMap
    (fun (set, name) => if set then some name else Option.none)

end Flags

end MessageChannel
