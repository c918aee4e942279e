import MessageChannel.Body.Json.Syntax
import MessageChannel.Body.Value

namespace MessageChannel.Json

/-- How many arrays and objects may stand one inside another in a value that is kept. -/
def maxDepth : Nat := 127

abbrev Reader := List UInt8 → Option (Value × List UInt8)

def readText? (bytes : List UInt8) : Option (String × List UInt8) := do
  let rest ← after? [quoteMark] bytes
  let (content, rest) ← unquote? .strict rest
  return (← textOfBytes? content, rest)

def readIntOf? (kind : IntKind) (bytes : List UInt8) : Option (Value × List UInt8) := do
  let (n, rest) ← readInt? bytes
  guard (kind.Holds n)
  return (.int n, rest)

def readColon? (bytes : List UInt8) : Option (List UInt8) := after? [0x3a] (skipBlanks bytes)

def readKey? : KeyShape → Reader
  | .text, bytes => do
      let (s, rest) ← readText? bytes
      return (.text s, rest)
  | .int kind, bytes => do
      let rest ← after? [quoteMark] bytes
      let (n, rest) ← readIntOf? kind rest
      return (n, ← after? [quoteMark] rest)

def readScalar? : Shape → Reader
  | .int kind, bytes => readIntOf? kind bytes
  | .bool, bytes =>
      match after? trueWord bytes with
      | some rest => some (.bool true, rest)
      | none => (after? falseWord bytes).map fun rest => (.bool false, rest)
  | .text, bytes => do
      let (s, rest) ← readText? bytes
      return (.text s, rest)
  | .blob, bytes => do
      let rest ← after? [quoteMark] bytes
      let (content, rest) ← unquote? .bytes rest
      return (.blob content, rest)
  | _, _ => none

/-- Reads items up to the end of an array. One item at least is there, and each takes a byte, so
as many steps as there are bytes are enough. -/
def readItems (read : Reader) : Nat → List Value → List UInt8 → Option (List Value × List UInt8)
  | 0, _, _ => none
  | steps + 1, acc, bytes =>
      match read bytes with
      | none => none
      | some (item, rest) =>
          match skipBlanks rest with
          | 0x2c :: rest => readItems read steps (item :: acc) rest
          | 0x5d :: rest => some ((item :: acc).reverse, rest)
          | _ => none

def readArray (read : Reader) (bytes : List UInt8) : Option (List Value × List UInt8) :=
  match skipBlanks bytes with
  | 0x5d :: rest => some ([], rest)
  | bytes => readItems read bytes.length [] bytes

def readMembers {σ : Type} (member : σ → List UInt8 → Option (σ × List UInt8)) :
    Nat → σ → List UInt8 → Option (σ × List UInt8)
  | 0, _, _ => none
  | steps + 1, state, bytes =>
      match member state (skipBlanks bytes) with
      | none => none
      | some (state, rest) =>
          match skipBlanks rest with
          | 0x2c :: rest => readMembers member steps state rest
          | 0x7d :: rest => some (state, rest)
          | _ => none

def readObject {σ : Type} (member : σ → List UInt8 → Option (σ × List UInt8)) (state : σ)
    (bytes : List UInt8) : Option (σ × List UInt8) :=
  match skipBlanks bytes with
  | 0x7d :: rest => some (state, rest)
  | bytes => readMembers member bytes.length state bytes

def readEntry (key : KeyShape) (read : Reader) (entries : List (Value × Value)) (bytes : List UInt8) :
    Option (List (Value × Value) × List UInt8) := do
  let (k, rest) ← readKey? key bytes
  let (item, rest) ← read (← readColon? rest)
  return (insertEntry Value.keyLt k item entries, rest)

def readField (schema : Schema) (read : Shape → Reader) (places : List (Option Value))
    (bytes : List UInt8) : Option (List (Option Value) × List UInt8) := do
  let (name, rest) ← readText? bytes
  let rest ← readColon? rest
  let i := schema.findIdx fun f => f.name == name
  match schema[i]?, places[i]? with
  | none, _ => return (places, ← skip rest)
  | some field, some none =>
      let (item, rest) ← read field.shape rest
      return (places.set i (some item), rest)
  | some _, _ => none

/-- Reads the fields of a struct in their order, without names, up to the end of an array. -/
def readRow (read : Shape → Reader) : Schema → List UInt8 → Option (List (String × Value) × List UInt8)
  | [], bytes => (after? [0x5d] (skipBlanks bytes)).map fun rest => ([], rest)
  | field :: schema, bytes => do
      let (item, rest) ← read field.shape bytes
      let rest ← if schema.isEmpty then some rest else after? [0x2c] (skipBlanks rest)
      let (items, rest) ← readRow read schema rest
      return ((field.name, item) :: items, rest)

def container? (records : List Schema) (read : Shape → Reader) : Shape → Reader
  | .blob, 0x5b :: bytes => do
      let (items, rest) ← readArray (read (.int .u8)) bytes
      return (.blob (items.filterMap Value.byte?), rest)
  | .list item, 0x5b :: bytes => do
      let (items, rest) ← readArray (read item) bytes
      return (.list items, rest)
  | .map key item, 0x7b :: bytes => do
      let (entries, rest) ← readObject (readEntry key (read item)) [] bytes
      return (.map entries, rest)
  | .record index, 0x7b :: bytes => do
      let schema ← records[index]?
      let (places, rest) ← readObject (readField schema read) (schema.map fun _ => none) bytes
      return (.record (← schema.close? places), rest)
  | .record index, 0x5b :: bytes => do
      let schema ← records[index]?
      let (fields, rest) ← readRow read schema bytes
      return (.record fields, rest)
  | _, _ => none

/-- Reads a value that may be optional, with what reads one that is not. Nothing tells the options
of options apart: a null is an absent value of the outermost. -/
def readOptional (read : Shape → Reader) : Shape → Reader
  | .optional item, bytes =>
      match after? nullWord bytes with
      | some rest => some (.absent, rest)
      | none => (readOptional read item bytes).map fun (value, rest) => (.present value, rest)
  | shape, bytes => read shape bytes

/-- Reads a value that is not optional. -/
def readPlain (container : Shape → Reader) (shape : Shape) (bytes : List UInt8) :
    Option (Value × List UInt8) :=
  match readScalar? shape bytes with
  | some result => some result
  | none => container shape bytes

/-- Reads a value of the given shape, behind any blanks, in which at most `depth` containers
stand one inside another. -/
def read (records : List Schema) : Nat → Shape → Reader
  | 0, shape, bytes => readOptional (readPlain fun _ _ => none) shape (skipBlanks bytes)
  | depth + 1, shape, bytes =>
      readOptional (readPlain (container? records (read records depth))) shape (skipBlanks bytes)

/-- The value that some bytes hold, with nothing but blanks around it. -/
def decode? (records : List Schema) (shape : Shape) (bytes : List UInt8) : Option Value := do
  let (value, rest) ← read records maxDepth shape bytes
  guard (skipBlanks rest).isEmpty
  return value

end MessageChannel.Json
