import MessageChannel.Body.Json.Syntax
import MessageChannel.Body.Value

namespace MessageChannel.Json

/-- Keys are strings; a number is one in its digits. -/
def encodeKey? : Value → Option (List UInt8)
  | .text s => some (quote (textBytes s))
  | .int n => some (quote (writeInt n))
  | _ => none

mutual

def encode? : Value → Option (List UInt8)
  | .int n => some (writeInt n)
  | .bool b => some (if b then trueWord else falseWord)
  | .text s => some (quote (textBytes s))
  | .blob bytes => some (0x5b :: (bytes.flatMap fun b => 0x2c :: decimal b.toNat).drop 1 ++ [0x5d])
  | .absent => some nullWord
  | .present item => encode? item
  | .list items => (encodeItems? items).map fun inner => 0x5b :: inner.drop 1 ++ [0x5d]
  | .map entries => (encodeEntries? entries).map fun inner => 0x7b :: inner.drop 1 ++ [0x7d]
  | .record fields => (encodeFields? fields).map fun inner => 0x7b :: inner.drop 1 ++ [0x7d]

def encodeItems? : List Value → Option (List UInt8)
  | [] => some []
  | item :: items => do
      let first ← encode? item
      let others ← encodeItems? items
      return 0x2c :: first ++ others

def encodeEntries? : List (Value × Value) → Option (List UInt8)
  | [] => some []
  | (key, item) :: entries => do
      let key ← encodeKey? key
      let first ← encode? item
      let others ← encodeEntries? entries
      return 0x2c :: key ++ 0x3a :: first ++ others

def encodeFields? : List (String × Value) → Option (List UInt8)
  | [] => some []
  | (name, item) :: fields => do
      let first ← encode? item
      let others ← encodeFields? fields
      return 0x2c :: quote (textBytes name) ++ 0x3a :: first ++ others

end

end MessageChannel.Json
