import MessageChannel.Message.Class

namespace MessageChannel

/-- The messages at hand: values of any type, raw bytes, a counter with a body of its own making,
and messages whose body always fails. -/
inductive AnyMessage where
  | typed (typeId : Int32) (type : MessageType) (value : Value)
  | raw (message : RawMessage)
  | counter (typeId : Int32) (count : UInt64)
  | faulty (typeId : Int32) (name : String) (failure : BodyFailure)

namespace AnyMessage

def counterName : String := "Counter"

def blank (type : MessageType) (typeId : Int32) : AnyMessage :=
  .typed typeId type type.default

def typeId : AnyMessage → Int32
  | typed typeId _ _ => typeId
  | raw message => message.typeId
  | counter typeId _ => typeId
  | faulty typeId _ _ => typeId

def name : AnyMessage → String
  | typed _ type _ => type.name
  | raw message => message.name
  | counter _ _ => counterName
  | faulty _ name _ => name

/-- A counter is eight bytes, the least significant first. -/
def encode : AnyMessage → Except BodyFailure (List UInt8)
  | typed _ type value => (type.format.encode value).mapError .refused
  | raw message => .ok message.data
  | counter _ count => .ok (bigEndian 8 count.toNat).reverse
  | faulty _ _ failure => .error failure

/-- Takes in the content of a body, in place. -/
def load (bytes : List UInt8) : ExceptT BodyFailure (StateM AnyMessage) Unit := do
  match ← get with
  | typed typeId type _ =>
      match type.format.decode type.records type.shape bytes with
      | .ok value => set (typed typeId type value)
      | .error error => throw (.refused error)
  | raw message => set (raw (message.withBytes bytes))
  | counter typeId _ =>
      if bytes.length = 8 then set (counter typeId (.ofNat (ofBigEndian bytes.reverse)))
      else throw (.refused (.invalidData (.note s!"counter needs 8 bytes, got {bytes.length}")))
  | faulty _ _ failure => throw failure

def decode (m : AnyMessage) (bytes : List UInt8) : Except BodyFailure AnyMessage :=
  let (ended, m) := (load bytes).run m
  ended.map fun _ => m

instance : Message AnyMessage where
  typeId := typeId
  name := name
  encode := encode
  decode := decode
  copy m := m
  encode_copy _ := rfl
  ofRaw := raw
  ofTable typeId table := typed typeId PeerTable.messageType table.toValue

def valueOf? (type : MessageType) : AnyMessage → Option Value
  | typed _ t value => if t.ident = type.ident then some value else none
  | _ => none

def assign? (type : MessageType) (value : Value) : AnyMessage → Option AnyMessage
  | typed typeId t _ => if t.ident = type.ident then some (typed typeId t value) else none
  | _ => none

def isRaw : AnyMessage → Bool
  | raw _ => true
  | _ => false

end AnyMessage

end MessageChannel
