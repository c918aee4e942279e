namespace MessageChannel

abbrev CodeRanges := List (Nat × Nat)

namespace CodeRanges

def has (ranges : CodeRanges) (code : Nat) : Bool :=
  ranges.any fun (first, last) => first ≤ code && code ≤ last

end CodeRanges

end MessageChannel
