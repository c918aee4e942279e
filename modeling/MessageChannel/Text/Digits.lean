namespace MessageChannel

def hexDigits (n : Nat) : String := String.ofList (Nat.toDigits 16 n)

def digit? (base : Nat) (c : Char) : Option Nat :=
  let value :=
    if '0' ≤ c ∧ c ≤ '9' then c.toNat - 48
    else if 'a' ≤ c ∧ c ≤ 'f' then c.toNat - 87
    else if 'A' ≤ c ∧ c ≤ 'F' then c.toNat - 55
    else base
  if value < base then some value else none

/-- The number that one or more digits write. Zeros in front are allowed. -/
def number? (base : Nat) : List Char → Option Nat
  | [] => none
  | digits => digits.foldlM (fun n c => (digit? base c).map (base * n + ·)) 0

end MessageChannel
