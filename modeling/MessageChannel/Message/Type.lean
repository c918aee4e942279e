import MessageChannel.Body.Format
import MessageChannel.Body.Value

namespace MessageChannel

/-- A type of messages whose body one of the formats makes: of integers, truth values, strings,
byte strings, options, lists, maps from integers or strings, and structs with named fields, which
may hold each other and themselves. There are no shapes for floats, tuples and enums. -/
structure MessageType where
  /-- Tells the type from all others, those of the same name included. -/
  ident : String
  name : String
  fixedId : Option Int32 := none
  format : Format := .messagePack
  /-- The structs that occur in a message. -/
  records : List Schema := []
  /-- What a message is: the first of these structs, or anything else. A struct of one unnamed field
  is written like what it holds, and has its shape. -/
  shape : Shape := .record 0
deriving DecidableEq, Repr

def MessageType.default (type : MessageType) : Value :=
  type.shape.default type.records type.records.length

end MessageChannel
