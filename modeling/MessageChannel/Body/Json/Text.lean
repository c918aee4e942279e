import MessageChannel.Bytes

namespace MessageChannel.Json

def quoteMark : UInt8 := 0x22

def backslash : UInt8 := 0x5c

def hexDigit (n : Nat) : UInt8 := if n < 10 then .ofNat (0x30 + n) else .ofNat (0x57 + n)

def hexValue? (b : UInt8) : Option Nat :=
  if 0x30 ≤ b ∧ b ≤ 0x39 then some (b.toNat - 0x30)
  else if 0x41 ≤ b ∧ b ≤ 0x46 then some (b.toNat - 0x37)
  else if 0x61 ≤ b ∧ b ≤ 0x66 then some (b.toNat - 0x57)
  else none

def shortEscape? : UInt8 → Option UInt8
  | 0x22 => some 0x22
  | 0x5c => some 0x5c
  | 0x08 => some 0x62
  | 0x0c => some 0x66
  | 0x0a => some 0x6e
  | 0x0d => some 0x72
  | 0x09 => some 0x74
  | _ => none

/-- What a letter behind a backslash stands for. A slash may be written so, but never is. -/
def shortEscaped? : UInt8 → Option UInt8
  | 0x22 => some 0x22
  | 0x5c => some 0x5c
  | 0x2f => some 0x2f
  | 0x62 => some 0x08
  | 0x66 => some 0x0c
  | 0x6e => some 0x0a
  | 0x72 => some 0x0d
  | 0x74 => some 0x09
  | _ => none

def escape (b : UInt8) : List UInt8 :=
  match shortEscape? b with
  | some letter => [backslash, letter]
  | none =>
      if b < 0x20 then
        [backslash, 0x75, 0x30, 0x30, hexDigit (b.toNat / 16), hexDigit (b.toNat % 16)]
      else [b]

def quote (bytes : List UInt8) : List UInt8 := quoteMark :: bytes.flatMap escape ++ [quoteMark]

/-- The UTF-8 form of a code point. A surrogate gets the three bytes of its number. -/
def codePointBytes (n : Nat) : List UInt8 :=
  if n < 0x80 then [.ofNat n]
  else if n < 0x800 then [.ofNat (0xc0 + n / 0x40), .ofNat (0x80 + n % 0x40)]
  else if n < 0x10000 then
    [.ofNat (0xe0 + n / 0x1000), .ofNat (0x80 + n / 0x40 % 0x40), .ofNat (0x80 + n % 0x40)]
  else
    [.ofNat (0xf0 + n / 0x40000), .ofNat (0x80 + n / 0x1000 % 0x40),
      .ofNat (0x80 + n / 0x40 % 0x40), .ofNat (0x80 + n % 0x40)]

def isHighSurrogate (n : Nat) : Bool := 0xd800 ≤ n && n < 0xdc00

def isLowSurrogate (n : Nat) : Bool := 0xdc00 ≤ n && n < 0xe000

/-- What a quoted string may hold besides what every one may. -/
structure QuoteRule where
  controls : Bool
  loneSurrogates : Bool

namespace QuoteRule

def strict : QuoteRule := ⟨false, false⟩

def bytes : QuoteRule := ⟨true, true⟩

def unread : QuoteRule := ⟨false, true⟩

end QuoteRule

inductive QuoteState where
  | plain
  | escape
  /-- So many digits of a number are to come, and those before them have this value. -/
  | hex (left : Nat) (value : Nat)

/-- Reads a quoted string from behind its first mark to behind its last. The bytes read so far
stand latest first; `high` is a high surrogate whose partner may follow. -/
def unquoteFrom (rule : QuoteRule) :
    QuoteState → Option Nat → List UInt8 → List UInt8 → Option (List UInt8 × List UInt8)
  | _, _, _, [] => none
  | .plain, high, acc, b :: rest =>
      if b = backslash then unquoteFrom rule .escape high acc rest
      else match flush high acc with
        | none => none
        | some acc =>
            if b = quoteMark then some (acc.reverse, rest)
            else if b < 0x20 ∧ ¬rule.controls then none
            else unquoteFrom rule .plain none (b :: acc) rest
  | .escape, high, acc, b :: rest =>
      if b = 0x75 then unquoteFrom rule (.hex 4 0) high acc rest
      else match shortEscaped? b, flush high acc with
        | some c, some acc => unquoteFrom rule .plain none (c :: acc) rest
        | _, _ => none
  | .hex left value, high, acc, b :: rest =>
      match hexValue? b with
      | none => none
      | some digit =>
          let value := 16 * value + digit
          if 1 < left then unquoteFrom rule (.hex (left - 1) value) high acc rest
          else match high, isLowSurrogate value with
            | some h, true =>
                let code := 0x10000 + (h - 0xd800) * 0x400 + (value - 0xdc00)
                unquoteFrom rule .plain none ((codePointBytes code).reverse ++ acc) rest
            | high, low =>
                match flush high acc with
                | none => none
                | some acc =>
                    if isHighSurrogate value then unquoteFrom rule .plain (some value) acc rest
                    else if low ∧ ¬rule.loneSurrogates then none
                    else unquoteFrom rule .plain none ((codePointBytes value).reverse ++ acc) rest
where
  /-- A high surrogate that stays alone is kept as it is, or refused. -/
  flush : Option Nat → List UInt8 → Option (List UInt8)
    | none, acc => some acc
    | some h, acc =>
        if rule.loneSurrogates then some ((codePointBytes h).reverse ++ acc) else none

def unquote? (rule : QuoteRule) (bytes : List UInt8) : Option (List UInt8 × List UInt8) :=
  unquoteFrom rule .plain none [] bytes

end MessageChannel.Json
