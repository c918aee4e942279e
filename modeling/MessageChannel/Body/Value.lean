import MessageChannel.Bytes
import MessageChannel.SortedEntries

namespace MessageChannel

inductive IntKind where
  | u8 | u16 | u32 | u64 | i8 | i16 | i32 | i64
deriving DecidableEq, Repr

namespace IntKind

def lo : IntKind → Int
  | u8 | u16 | u32 | u64 => 0
  | i8 => -0x80
  | i16 => -0x8000
  | i32 => -0x80000000
  | i64 => -0x8000000000000000

/-- The first number above the range. -/
def hi : IntKind → Int
  | u8 => 0x100
  | u16 => 0x10000
  | u32 => 0x100000000
  | u64 => 0x10000000000000000
  | i8 => 0x80
  | i16 => 0x8000
  | i32 => 0x80000000
  | i64 => 0x8000000000000000

def Holds (k : IntKind) (n : Int) : Prop := k.lo ≤ n ∧ n < k.hi

instance (k : IntKind) (n : Int) : Decidable (k.Holds n) :=
  inferInstanceAs (Decidable (k.lo ≤ n ∧ n < k.hi))

end IntKind

inductive KeyShape where
  | int (kind : IntKind)
  | text
deriving DecidableEq, Repr

inductive Shape where
  | int (kind : IntKind)
  | bool
  | text
  | blob
  | optional (item : Shape)
  | list (item : Shape)
  | map (key : KeyShape) (item : Shape)
  /-- The struct that stands at this place among those of a message type. -/
  | record (index : Nat)
deriving DecidableEq, Repr

structure Field where
  name : String
  shape : Shape
deriving DecidableEq, Repr

abbrev Schema := List Field

inductive Value where
  | int (n : Int)
  | bool (b : Bool)
  | text (s : String)
  | blob (bytes : List UInt8)
  /-- An optional value that is not there. -/
  | absent
  /-- An optional value that is there. It is written like the value itself. -/
  | present (item : Value)
  | list (items : List Value)
  | map (entries : List (Value × Value))
  | record (fields : List (String × Value))
deriving Inhabited

namespace Shape

def isOptional : Shape → Bool
  | optional _ => true
  | _ => false

/-- The value that a type starts from. A struct holds no struct twice outside of an option, a list
or a map, so as many steps as there are structs are enough. -/
def default (records : List Schema) : Nat → Shape → Value
  | _, int _ => .int 0
  | _, bool => .bool false
  | _, text => .text ""
  | _, blob => .blob []
  | _, optional _ => .absent
  | _, list _ => .list []
  | _, map _ _ => .map []
  | 0, record _ => .record []
  | steps + 1, record index =>
      .record ((records[index]?.getD []).map fun f => (f.name, default records steps f.shape))

end Shape

/-- The record of the values at the places of the fields. A field that may be absent is so when its
place is empty. -/
def Schema.close? : Schema → List (Option Value) → Option (List (String × Value))
  | field :: schema, some item :: places => (close? schema places).map ((field.name, item) :: ·)
  | field :: schema, none :: places =>
      if field.shape.isOptional then (close? schema places).map ((field.name, .absent) :: ·) else none
  | _, _ => some []

def Value.byte? : Value → Option UInt8
  | .int n => some (.ofNat n.toNat)
  | _ => none

def Value.keyLt : Value → Value → Bool
  | .int m, .int n => m < n
  | .text s, .text t => s < t
  | _, _ => false

end MessageChannel
