import MessageChannel.Body.Encoding
import MessageChannel.Message.Type
import MessageChannel.TypeId

namespace MessageChannel

def idLt (a b : UInt32) : Bool := a < b

/-- The types that one side has registered: what a peer goes by to understand that side's ids. -/
structure PeerTable where
  version : UInt32 := 0
  entries : List (UInt32 × String) := []
  ordered : OrderedEntries idLt entries := by exact .nil
deriving DecidableEq

namespace PeerTable

def empty : PeerTable := {}

def insert (t : PeerTable) (id : UInt32) (name : String) : PeerTable where
  version := t.version
  entries := insertEntry idLt id name t.entries
  ordered := t.ordered.insertEntry
    (fun a b c => by simp only [idLt, decide_eq_true_eq]; exact UInt32.lt_trans)
    (fun a b => by
      simp only [idLt, decide_eq_true_eq, UInt32.not_lt]
      exact fun hba hab => UInt32.le_antisymm hab hba)

/-- A later entry replaces an earlier one of the same id. -/
def ofEntries (version : UInt32) (entries : List (UInt32 × String)) : PeerTable :=
  entries.foldl (fun t (id, name) => t.insert id name) { version }

def size (t : PeerTable) : Nat := t.entries.length

def isEmpty (t : PeerTable) : Bool := t.entries.isEmpty

/-- The name of a type id of the peer's. A negative id has none. -/
def nameOf? (t : PeerTable) (typeId : Int32) : Option String :=
  if 0 ≤ typeId then t.entries.lookup typeId.toUInt32 else none

def versionField : String := "protocolFactoryVersion"

def entriesField : String := "protoTable"

def messageType : MessageType where
  ident := "ProtocolTable"
  name := "ProtocolTable"
  fixedId := some tableTypeId
  format := .messagePack
  records := [[⟨versionField, .int .u32⟩, ⟨entriesField, .map (.int .u32) .text⟩]]

def toValue (t : PeerTable) : Value :=
  .record [
    (versionField, .int t.version.toNat),
    (entriesField, .map (t.entries.map fun (id, name) => (.int id.toNat, .text name)))]

def entryOfValue? : Value × Value → Option (UInt32 × String)
  | (.int id, .text name) => some (.ofNat id.toNat, name)
  | _ => none

def ofValue? : Value → Option PeerTable
  | .record [(_, .int version), (_, .map entries)] =>
      (entries.mapM entryOfValue?).map (ofEntries (.ofNat version.toNat))
  | _ => none

def encode (t : PeerTable) : List UInt8 := MessagePack.encode t.toValue

def decode (bytes : List UInt8) : Except ChannelError PeerTable :=
  match (MessagePack.decode? messageType.records messageType.shape bytes).bind ofValue? with
  | some t => .ok t
  | none => .error (.invalidData (.malformed .messagePack))

end PeerTable

end MessageChannel
