import MessageChannel.Body.Json.Text

namespace MessageChannel.Json

def isBlank (b : UInt8) : Bool := b = 0x20 || b = 0x09 || b = 0x0a || b = 0x0d

def skipBlanks (bytes : List UInt8) : List UInt8 := bytes.dropWhile isBlank

def isDigit (b : UInt8) : Bool := 0x30 ≤ b && b ≤ 0x39

def decimal (n : Nat) : List UInt8 :=
  if n < 10 then [.ofNat (0x30 + n)] else decimal (n / 10) ++ [.ofNat (0x30 + n % 10)]

def ofDecimal (digits : List UInt8) : Nat := digits.foldl (fun n d => 10 * n + (d.toNat - 0x30)) 0

def writeInt (n : Int) : List UInt8 :=
  if 0 ≤ n then decimal n.toNat else 0x2d :: decimal (-n).toNat

def splitSign : List UInt8 → Bool × List UInt8
  | 0x2d :: rest => (true, rest)
  | bytes => (false, bytes)

/-- The digits in front of a number's fraction: one zero, or digits that do not start with one. -/
def wholePart? (bytes : List UInt8) : Option (List UInt8 × List UInt8) :=
  match bytes.takeWhile isDigit with
  | [] => none
  | d :: ds => if d = 0x30 ∧ ds ≠ [] then none else some (d :: ds, bytes.dropWhile isDigit)

/-- A number without fraction and exponent. A zero with a sign is no integer. -/
def readInt? (bytes : List UInt8) : Option (Int × List UInt8) := do
  let (negative, bytes) := splitSign bytes
  let (digits, rest) ← wholePart? bytes
  match rest with
  | 0x2e :: _ | 0x65 :: _ | 0x45 :: _ => none
  | _ =>
      let n := ofDecimal digits
      if negative then
        if n = 0 then none else return (-n, rest)
      else return (n, rest)

def skipDigits? (bytes : List UInt8) : Option (List UInt8) :=
  match bytes with
  | [] => none
  | d :: _ => if isDigit d then some (bytes.dropWhile isDigit) else none

def skipFraction? : List UInt8 → Option (List UInt8)
  | 0x2e :: rest => skipDigits? rest
  | bytes => some bytes

def skipExponent? : List UInt8 → Option (List UInt8)
  | e :: rest =>
      if e = 0x65 ∨ e = 0x45 then
        match rest with
        | 0x2b :: rest | 0x2d :: rest => skipDigits? rest
        | _ => skipDigits? rest
      else some (e :: rest)
  | [] => some []

def skipNumber? (bytes : List UInt8) : Option (List UInt8) := do
  let (_, rest) ← wholePart? (splitSign bytes).2
  skipExponent? (← skipFraction? rest)

def after? (front bytes : List UInt8) : Option (List UInt8) :=
  match splitExactly? front.length bytes with
  | some (taken, rest) => if taken = front then some rest else none
  | none => none

def nullWord : List UInt8 := [0x6e, 0x75, 0x6c, 0x6c]

def trueWord : List UInt8 := [0x74, 0x72, 0x75, 0x65]

def falseWord : List UInt8 := [0x66, 0x61, 0x6c, 0x73, 0x65]

def skipScalar? : List UInt8 → Option (List UInt8)
  | [] => none
  | b :: rest =>
      if b = quoteMark then (unquote? .unread rest).map (·.2)
      else if b = 0x6e then after? nullWord (b :: rest)
      else if b = 0x74 then after? trueWord (b :: rest)
      else if b = 0x66 then after? falseWord (b :: rest)
      else skipNumber? (b :: rest)

def skipKey? : List UInt8 → Option (List UInt8)
  | [] => none
  | b :: rest => do
      guard (b = quoteMark)
      let (_, rest) ← unquote? .unread rest
      after? [0x3a] (skipBlanks rest)

inductive Bracket where
  | array
  | object
deriving DecidableEq

inductive Awaited where
  | value
  /-- A value, or the end of an array that has none. -/
  | firstItem
  /-- A key, or the end of an object that has none. -/
  | firstKey
  | key
  /-- A comma, or the end of what is open. -/
  | separator

/-- Passes over the rest of a value inside whose brackets the bytes stand. At each step at least
one byte goes, so as many steps as there are bytes are enough. -/
def skipFrom : Nat → Awaited → List Bracket → List UInt8 → Option (List UInt8)
  | 0, _, _, _ => none
  | steps + 1, awaited, nesting, bytes =>
      match awaited, nesting, skipBlanks bytes with
      | .firstItem, .array :: outer, 0x5d :: rest => leave steps outer rest
      | .firstKey, .object :: outer, 0x7d :: rest => leave steps outer rest
      | .separator, .array :: outer, 0x5d :: rest => leave steps outer rest
      | .separator, .object :: outer, 0x7d :: rest => leave steps outer rest
      | .separator, .array :: outer, 0x2c :: rest => skipFrom steps .value (.array :: outer) rest
      | .separator, .object :: outer, 0x2c :: rest => skipFrom steps .key (.object :: outer) rest
      | .separator, _, _ => none
      | .firstKey, nesting, bytes | .key, nesting, bytes => do
          skipFrom steps .value nesting (← skipKey? bytes)
      | .firstItem, nesting, 0x5b :: rest | .value, nesting, 0x5b :: rest =>
          skipFrom steps .firstItem (.array :: nesting) rest
      | .firstItem, nesting, 0x7b :: rest | .value, nesting, 0x7b :: rest =>
          skipFrom steps .firstKey (.object :: nesting) rest
      | .firstItem, nesting, bytes | .value, nesting, bytes => do
          leave steps nesting (← skipScalar? bytes)
where
  leave (steps : Nat) : List Bracket → List UInt8 → Option (List UInt8)
    | [], rest => some rest
    | nesting, rest => skipFrom steps .separator nesting rest

def skip (bytes : List UInt8) : Option (List UInt8) :=
  skipFrom (bytes.length + 1) .value [] bytes

end MessageChannel.Json
