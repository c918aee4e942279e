import MessageChannel.Text.Digits

namespace MessageChannel

inductive Host where
  | v4 (octets : Vector UInt8 4)
  /-- Eight groups and the number of the zone in which they are meant, zero for none. -/
  | v6 (groups : Vector UInt16 8) (zone : UInt32)
deriving DecidableEq, Repr, Inhabited

structure Endpoint where
  host : Host
  service : UInt16
deriving DecidableEq, Repr, Inhabited

namespace Host

def octetsText (octets : List UInt8) : String :=
  ".".intercalate (octets.map fun octet => toString octet.toNat)

def groupsText (groups : List UInt16) : String :=
  ":".intercalate (groups.map fun group => hexDigits group.toNat)

/-- Where the first of the longest runs of zeros starts, and how long it is. -/
def zeroRun : List UInt16 → Nat × Nat
  | [] => (0, 0)
  | group :: groups =>
      let here := ((group :: groups).takeWhile (· = 0)).length
      let (start, length) := zeroRun groups
      if length ≤ here then (0, here) else (start + 1, length)

/-- The shortest text of eight groups: two or more zeros leave a gap. Groups that embed four octets
show them as such. -/
def shortText : List UInt16 → String
  | [0, 0, 0, 0, 0, 0xffff, a, b] =>
      "::ffff:" ++ octetsText [(a >>> 8).toUInt8, a.toUInt8, (b >>> 8).toUInt8, b.toUInt8]
  | groups =>
      let (start, length) := zeroRun groups
      if length < 2 then groupsText groups
      else groupsText (groups.take start) ++ "::" ++ groupsText (groups.drop (start + length))

def text : Host → String
  | v4 octets => octetsText octets.toList
  | v6 groups 0 => "[" ++ shortText groups.toList ++ "]"
  | v6 groups zone => "[" ++ shortText groups.toList ++ "%" ++ toString zone.toNat ++ "]"

def pieces (separator : Char) : List Char → List (List Char)
  | [] => [[]]
  | c :: rest =>
      match pieces separator rest with
      | [] => [[c]]
      | piece :: others =>
          if c = separator then [] :: piece :: others else (c :: piece) :: others

def octet? (digits : List Char) : Option UInt8 := do
  let n ← number? 10 digits
  guard (n < UInt8.size ∧ digits.length ≤ 3 ∧ (digits.length = 1 ∨ digits.head? ≠ some '0'))
  return .ofNat n

def octets? (text : List Char) : Option (Vector UInt8 4) := do
  match ← (pieces '.' text).mapM octet? with
  | [a, b, c, d] => some #v[a, b, c, d]
  | _ => none

def group? (digits : List Char) : Option UInt16 := do
  guard (digits.length ≤ 4)
  return .ofNat (← number? 16 digits)

def groupsOfOctets (octets : Vector UInt8 4) : List UInt16 :=
  [octets[0].toUInt16 <<< 8 ||| octets[1].toUInt16, octets[2].toUInt16 <<< 8 ||| octets[3].toUInt16]

/-- Groups of which the last two may be written as four octets. -/
def groupsOf? : List (List Char) → Option (List UInt16)
  | [] => some []
  | [last] => (octets? last).map groupsOfOctets <|> (group? last).map ([·])
  | piece :: others => do return (← group? piece) :: (← groupsOf? others)

def atGap? : List Char → Option (List Char × List Char)
  | ':' :: ':' :: rest => some ([], rest)
  | c :: rest => (atGap? rest).map fun (front, back) => (c :: front, back)
  | [] => none

/-- The pieces on one side of a gap. An empty side has none. -/
def side (text : List Char) : List (List Char) := if text.isEmpty then [] else pieces ':' text

/-- Eight groups. A gap stands for one or more zeros. -/
def groups? (text : List Char) : Option (Vector UInt16 8) := do
  let groups ← match atGap? text with
    | none => groupsOf? (pieces ':' text)
    | some (front, back) => do
        let front ← (side front).mapM group?
        let back ← groupsOf? (side back)
        guard (front.length + back.length < 8)
        pure (front ++ List.replicate (8 - (front.length + back.length)) 0 ++ back)
  if h : groups.length = 8 then some ⟨groups.toArray, by simpa using h⟩ else none

def zone? (digits : List Char) : Option UInt32 := do
  let n ← number? 10 digits
  guard (n < UInt32.size)
  return .ofNat n

end Host

namespace Endpoint

def text (e : Endpoint) : String := e.host.text ++ ":" ++ toString e.service.toNat

def service? (digits : List Char) : Option UInt16 := do
  let n ← number? 10 digits
  guard (n < UInt16.size)
  return .ofNat n

def ofText? (s : String) : Option Endpoint := do
  match s.toList with
  | '[' :: rest =>
      let [inside, ':' :: service] := Host.pieces ']' rest | none
      let service ← service? service
      match Host.pieces '%' inside with
      | [groups] => return ⟨.v6 (← Host.groups? groups) 0, service⟩
      | [groups, zone] => return ⟨.v6 (← Host.groups? groups) (← Host.zone? zone), service⟩
      | _ => none
  | whole =>
      let [octets, service] := Host.pieces ':' whole | none
      return ⟨.v4 (← Host.octets? octets), ← service? service⟩

end Endpoint

end MessageChannel
