import MessageChannel.Body.MessagePack.Token
import MessageChannel.Body.Value

namespace MessageChannel.MessagePack

/-- How many arrays, maps and extensions may stand one inside another. -/
def maxDepth : Nat := 1023

def intOf? (kind : IntKind) (n : Int) : Option Value :=
  if kind.Holds n then some (.int n) else none

def ofByte? : Shape → UInt8 → Option Value
  | .int kind, b => intOf? kind b.toNat
  | _, _ => none

/-- The fields of a struct from the first bytes of a blob, one byte each. -/
def rowOfBytes? : Schema → List UInt8 → Option (List (String × Value))
  | [], _ => some []
  | field :: schema, b :: bytes => do
      return (field.name, ← ofByte? field.shape b) :: (← rowOfBytes? schema bytes)
  | _ :: _, [] => none

/-- The value of one token alone. A blob serves as a list of its bytes, and as a struct whose
fields are its first bytes. -/
def scalar? (records : List Schema) : Shape → Token → Option Value
  | .int kind, .nat n => intOf? kind n
  | .int kind, .int n => intOf? kind n
  | .bool, .bool b => some (.bool b)
  | .text, .text s | .text, .blob s => (textOfBytes? s).map .text
  | .blob, .text b | .blob, .blob b => some (.blob b)
  | .list item, .blob b => (b.mapM (ofByte? item)).map .list
  | .record index, .blob b => do
      return .record (← rowOfBytes? (← records[index]?) b)
  | _, _ => none

abbrev Reader := List UInt8 → Option (Value × List UInt8)

/-- Reads `n` values, which come behind those already read, latest first. -/
def readItems (read : Reader) : Nat → List Value → List UInt8 → Option (List Value × List UInt8)
  | 0, acc, bytes => some (acc.reverse, bytes)
  | n + 1, acc, bytes =>
      match read bytes with
      | some (item, rest) => readItems read n (item :: acc) rest
      | none => none

def readEntries (readKey readItem : Reader) :
    Nat → List (Value × Value) → List UInt8 → Option (List (Value × Value) × List UInt8)
  | 0, acc, bytes => some (acc, bytes)
  | n + 1, acc, bytes =>
      match readKey bytes with
      | none => none
      | some (key, rest) =>
          match readItem rest with
          | none => none
          | some (item, rest) =>
              readEntries readKey readItem n (insertEntry Value.keyLt key item acc) rest

def skipItems (skip : List UInt8 → Option (List UInt8)) : Nat → List UInt8 → Option (List UInt8)
  | 0, bytes => some bytes
  | n + 1, bytes =>
      match skip bytes with
      | some rest => skipItems skip n rest
      | none => none

/-- Passes over any value in which at most `depth` containers stand one inside another. An
extension counts as one of them. -/
def skip : Nat → List UInt8 → Option (List UInt8)
  | depth, bytes =>
      match Token.read? bytes, depth with
      | some (.array n, rest), depth + 1 => skipItems (skip depth) n rest
      | some (.map n, rest), depth + 1 => skipItems (skip depth) (2 * n) rest
      | some (.array _, _), 0 | some (.map _, _), 0 | some (.extension, _), 0 => none
      | some (_, rest), _ => some rest
      | none, _ => none

/-- The position of the field that a key names or counts. A position that no field has stands for
an unknown field. -/
def keyIndex? (schema : Schema) : Token → Option Nat
  | .nat n => some n
  | .text name | .blob name => some (schema.findIdx fun f => textBytes f.name == name)
  | _ => none

def readFields (schema : Schema) (read : Shape → Reader) (skip : List UInt8 → Option (List UInt8)) :
    Nat → List (Option Value) → List UInt8 → Option (List (Option Value) × List UInt8)
  | 0, places, bytes => some (places, bytes)
  | n + 1, places, bytes => do
      let (key, rest) ← Token.read? bytes
      let i ← keyIndex? schema key
      match schema[i]?, places[i]? with
      | none, _ => readFields schema read skip n places (← skip rest)
      | some field, some none =>
          let (item, rest) ← read field.shape rest
          readFields schema read skip n (places.set i (some item)) rest
      | some _, _ => none

def readRow (read : Shape → Reader) : Schema → List UInt8 → Option (List (String × Value) × List UInt8)
  | [], bytes => some ([], bytes)
  | field :: schema, bytes => do
      let (item, rest) ← read field.shape bytes
      let (items, rest) ← readRow read schema rest
      return ((field.name, item) :: items, rest)

def container? (records : List Schema) (read : Shape → Reader)
    (skip : List UInt8 → Option (List UInt8)) : Shape → Token → Reader
  | .blob, .array n, bytes => do
      let (items, rest) ← readItems (read (.int .u8)) n [] bytes
      return (.blob (items.filterMap Value.byte?), rest)
  | .list item, .array n, bytes => do
      let (items, rest) ← readItems (read item) n [] bytes
      return (.list items, rest)
  | .map key item, .map n, bytes => do
      let keyShape := match key with
        | .int kind => Shape.int kind
        | .text => .text
      let (entries, rest) ← readEntries (read keyShape) (read item) n [] bytes
      return (.map entries, rest)
  | .record index, .map n, bytes => do
      let schema ← records[index]?
      let (places, rest) ← readFields schema read skip n (schema.map fun _ => none) bytes
      return (.record (← schema.close? places), rest)
  | .record index, .array n, bytes => do
      let schema ← records[index]?
      guard (n = schema.length)
      let (fields, rest) ← readRow read schema bytes
      return (.record fields, rest)
  | _, _, _ => none

/-- Reads on behind a token, with what reads a value that is not optional. Nothing tells the options
of options apart: a nil is an absent value of the outermost. -/
def readOptional (read : Shape → Token → Reader) : Shape → Token → Reader
  | .optional item, token, bytes =>
      if token = .nil then some (.absent, bytes)
      else (readOptional read item token bytes).map fun (value, rest) => (.present value, rest)
  | shape, token, bytes => read shape token bytes

/-- Reads on behind the first token of a value that is not optional: nothing, or a container. -/
def readPlain (records : List Schema) (container : Shape → Token → Reader) (shape : Shape)
    (token : Token) (bytes : List UInt8) : Option (Value × List UInt8) :=
  match scalar? records shape token with
  | some value => some (value, bytes)
  | none => container shape token bytes

def readBehindToken (read : Shape → Token → Reader) (shape : Shape) (bytes : List UInt8) :
    Option (Value × List UInt8) :=
  match Token.read? bytes with
  | some (token, rest) => readOptional read shape token rest
  | none => none

/-- Reads a value of the given shape in which at most `depth` containers stand one inside
another. -/
def read (records : List Schema) : Nat → Shape → Reader
  | 0 => readBehindToken (readPlain records fun _ _ _ => none)
  | depth + 1 =>
      readBehindToken (readPlain records (container? records (read records depth) (skip depth)))

/-- The value at the front of some bytes. Bytes after it are not looked at. -/
def decode? (records : List Schema) (shape : Shape) (bytes : List UInt8) : Option Value :=
  (read records maxDepth shape bytes).map (·.1)

end MessageChannel.MessagePack
