import FormatString.Directive.Basic

/-!
# The notation of scan sets

`[` is followed by an optional `^`, members and a closing `]`. A `]` that comes first is a member,
and so is a `-` that comes first or last; anywhere else `lo-hi` is a range, and one that runs
backwards stands for its three characters.
-/

namespace FormatString

/-- The ranges of `lo-hi`. -/
def rangesOf (lo hi : Char) : List (Nat × Nat) :=
  if lo.toNat ≤ hi.toNat then [(lo.toNat, hi.toNat)]
  else [lo, '-', hi].map fun c ↦ (c.toNat, c.toNat)

/-- The members up to the closing bracket and the text behind it; nothing if it never comes. -/
def readMembers? : List Char → Option (List (Nat × Nat) × List Char)
  | [] => none
  | ']' :: rest => some ([], rest)
  | lo :: '-' :: hi :: rest =>
    if hi = ']' then some ([(lo.toNat, lo.toNat), ('-'.toNat, '-'.toNat)], rest)
    else (readMembers? rest).map fun (ranges, rest) ↦ (rangesOf lo hi ++ ranges, rest)
  | lo :: rest =>
    (readMembers? rest).map fun (ranges, rest) ↦ ((lo.toNat, lo.toNat) :: ranges, rest)

/-- A scan set without its opening bracket and the text behind it. -/
def ScanSet.read? (cs : List Char) : Option (ScanSet × List Char) :=
  let (negated, body) := match cs with
    | '^' :: rest => (true, rest)
    | _ => (false, cs)
  let (leading, members) := match body with
    | ']' :: rest => ([(']'.toNat, ']'.toNat)], rest)
    | _ => ([], body)
  (readMembers? members).map fun (ranges, rest) ↦ (⟨negated, leading ++ ranges⟩, rest)

end FormatString
