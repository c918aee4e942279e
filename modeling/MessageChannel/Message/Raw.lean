import MessageChannel.TypeId

namespace MessageChannel

def rawName : String := "RawData"

/-- A message of a type that could not be resolved: its bytes, and the id under which they came. -/
structure RawMessage where
  typeId : Int32 := rawTypeId
  length : UInt32 := 0
  /-- The name that the peer has for the type. -/
  typeName : Option String := none
  data : List UInt8 := []
deriving DecidableEq, Repr

namespace RawMessage

def ofBytes (typeId : Int32) (typeName : Option String) (data : List UInt8) : RawMessage :=
  ⟨typeId, data.length.toUInt32, typeName, data⟩

def name (m : RawMessage) : String := m.typeName.getD rawName

def withBytes (m : RawMessage) (data : List UInt8) : RawMessage :=
  { m with data, length := data.length.toUInt32 }

end RawMessage

end MessageChannel
