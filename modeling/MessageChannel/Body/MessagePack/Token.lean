import MessageChannel.Bytes

namespace MessageChannel.MessagePack

/-- What a marker stands for, with the bytes that belong to it. The elements of an array or a map
follow as tokens of their own. -/
inductive Token where
  | nil
  | bool (b : Bool)
  | nat (n : Nat)
  | int (n : Int)
  | float
  | text (bytes : List UInt8)
  | blob (bytes : List UInt8)
  | array (size : Nat)
  | map (size : Nat)
  | extension
deriving DecidableEq, Repr

def modulus (width : Nat) : Nat := 1 <<< (8 * width)

def ofTwosComplement (width n : Nat) : Int :=
  if 2 * n < modulus width then n else (n : Int) - modulus width

def toTwosComplement (width : Nat) (n : Int) : Nat := (n % modulus width).toNat

def readNat? (width : Nat) (bytes : List UInt8) : Option (Nat × List UInt8) :=
  (splitExactly? width bytes).map fun (digits, rest) => (ofBigEndian digits, rest)

def readSized? (width : Nat) (bytes : List UInt8) : Option (List UInt8 × List UInt8) := do
  let (size, rest) ← readNat? width bytes
  splitExactly? size rest

namespace Token

def read? : List UInt8 → Option (Token × List UInt8)
  | [] => none
  | marker :: bytes =>
      let code := marker.toNat
      if code < 0x80 then some (nat code, bytes)
      else if code < 0x90 then some (map (code - 0x80), bytes)
      else if code < 0xa0 then some (array (code - 0x90), bytes)
      else if code < 0xc0 then (splitExactly? (code - 0xa0) bytes).map fun (s, rest) => (text s, rest)
      else if 0xe0 ≤ code then some (int ((code : Int) - 256), bytes)
      else match code with
        | 0xc0 => some (nil, bytes)
        | 0xc2 => some (bool false, bytes)
        | 0xc3 => some (bool true, bytes)
        | 0xc4 => (readSized? 1 bytes).map fun (b, rest) => (blob b, rest)
        | 0xc5 => (readSized? 2 bytes).map fun (b, rest) => (blob b, rest)
        | 0xc6 => (readSized? 4 bytes).map fun (b, rest) => (blob b, rest)
        | 0xc7 => extended 1 bytes
        | 0xc8 => extended 2 bytes
        | 0xc9 => extended 4 bytes
        | 0xca => (splitExactly? 4 bytes).map fun (_, rest) => (float, rest)
        | 0xcb => (splitExactly? 8 bytes).map fun (_, rest) => (float, rest)
        | 0xcc => (readNat? 1 bytes).map fun (n, rest) => (nat n, rest)
        | 0xcd => (readNat? 2 bytes).map fun (n, rest) => (nat n, rest)
        | 0xce => (readNat? 4 bytes).map fun (n, rest) => (nat n, rest)
        | 0xcf => (readNat? 8 bytes).map fun (n, rest) => (nat n, rest)
        | 0xd0 => (readNat? 1 bytes).map fun (n, rest) => (int (ofTwosComplement 1 n), rest)
        | 0xd1 => (readNat? 2 bytes).map fun (n, rest) => (int (ofTwosComplement 2 n), rest)
        | 0xd2 => (readNat? 4 bytes).map fun (n, rest) => (int (ofTwosComplement 4 n), rest)
        | 0xd3 => (readNat? 8 bytes).map fun (n, rest) => (int (ofTwosComplement 8 n), rest)
        | 0xd4 => (splitExactly? 2 bytes).map fun (_, rest) => (extension, rest)
        | 0xd5 => (splitExactly? 3 bytes).map fun (_, rest) => (extension, rest)
        | 0xd6 => (splitExactly? 5 bytes).map fun (_, rest) => (extension, rest)
        | 0xd7 => (splitExactly? 9 bytes).map fun (_, rest) => (extension, rest)
        | 0xd8 => (splitExactly? 17 bytes).map fun (_, rest) => (extension, rest)
        | 0xd9 => (readSized? 1 bytes).map fun (s, rest) => (text s, rest)
        | 0xda => (readSized? 2 bytes).map fun (s, rest) => (text s, rest)
        | 0xdb => (readSized? 4 bytes).map fun (s, rest) => (text s, rest)
        | 0xdc => (readNat? 2 bytes).map fun (n, rest) => (array n, rest)
        | 0xdd => (readNat? 4 bytes).map fun (n, rest) => (array n, rest)
        | 0xde => (readNat? 2 bytes).map fun (n, rest) => (map n, rest)
        | 0xdf => (readNat? 4 bytes).map fun (n, rest) => (map n, rest)
        | _ => none
where
  extended (width : Nat) (bytes : List UInt8) : Option (Token × List UInt8) := do
    let (size, rest) ← readNat? width bytes
    let (_, rest) ← splitExactly? (size + 1) rest
    return (extension, rest)

end Token

/-- Markers for a size: the short form below `short`, then one, two or four bytes. -/
structure SizeMarkers where
  short : Nat
  shortBase : Nat
  one : Option UInt8
  two : UInt8
  four : UInt8

def SizeMarkers.write (m : SizeMarkers) (size : Nat) : List UInt8 :=
  if size < m.short then [.ofNat (m.shortBase + size)]
  else match m.one with
    | some marker => if size < 0x100 then marker :: bigEndian 1 size else long
    | none => long
where
  long : List UInt8 :=
    if size < 0x10000 then m.two :: bigEndian 2 size else m.four :: bigEndian 4 size

def textMarkers : SizeMarkers := ⟨32, 0xa0, some 0xd9, 0xda, 0xdb⟩

def blobMarkers : SizeMarkers := ⟨0, 0, some 0xc4, 0xc5, 0xc6⟩

def arrayMarkers : SizeMarkers := ⟨16, 0x90, none, 0xdc, 0xdd⟩

def mapMarkers : SizeMarkers := ⟨16, 0x80, none, 0xde, 0xdf⟩

/-- The shortest form of a number; one that is not negative always gets an unsigned marker. -/
def writeInt (n : Int) : List UInt8 :=
  if 0 ≤ n then
    if n < 0x80 then bigEndian 1 n.toNat
    else if n < 0x100 then 0xcc :: bigEndian 1 n.toNat
    else if n < 0x10000 then 0xcd :: bigEndian 2 n.toNat
    else if n < 0x100000000 then 0xce :: bigEndian 4 n.toNat
    else 0xcf :: bigEndian 8 n.toNat
  else if -0x20 ≤ n then bigEndian 1 (toTwosComplement 1 n)
  else if -0x80 ≤ n then 0xd0 :: bigEndian 1 (toTwosComplement 1 n)
  else if -0x8000 ≤ n then 0xd1 :: bigEndian 2 (toTwosComplement 2 n)
  else if -0x80000000 ≤ n then 0xd2 :: bigEndian 4 (toTwosComplement 4 n)
  else 0xd3 :: bigEndian 8 (toTwosComplement 8 n)

def writeBool (b : Bool) : List UInt8 := [if b then 0xc3 else 0xc2]

def writeText (s : String) : List UInt8 :=
  let bytes := textBytes s
  textMarkers.write bytes.length ++ bytes

def writeBlob (bytes : List UInt8) : List UInt8 := blobMarkers.write bytes.length ++ bytes

end MessageChannel.MessagePack
