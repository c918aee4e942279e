import MessageChannel.Body.MessagePack.Token
import MessageChannel.Body.Value

namespace MessageChannel.MessagePack

mutual

/-- The one form in which a value is written: a record as a map from field names, each number and
each size as short as it can be. -/
def encode : Value → List UInt8
  | .int n => writeInt n
  | .bool b => writeBool b
  | .text s => writeText s
  | .blob bytes => writeBlob bytes
  | .absent => [0xc0]
  | .present item => encode item
  | .list items => arrayMarkers.write items.length ++ encodeItems items
  | .map entries => mapMarkers.write entries.length ++ encodeEntries entries
  | .record fields => mapMarkers.write fields.length ++ encodeFields fields

def encodeItems : List Value → List UInt8
  | [] => []
  | item :: items => encode item ++ encodeItems items

def encodeEntries : List (Value × Value) → List UInt8
  | [] => []
  | (key, item) :: entries => encode key ++ encode item ++ encodeEntries entries

def encodeFields : List (String × Value) → List UInt8
  | [] => []
  | (name, item) :: fields => writeText name ++ encode item ++ encodeFields fields

end

end MessageChannel.MessagePack
