/-!
# Sets and maps of code points

Properties of the Unicode character database are stored as short lists of ranges. A set is a list of
ranges, a sparse set a list of arithmetic progressions, and a map a list of progressions with the image of
their first member.
-/

namespace CSharpStyle.Unicode

/-- Closed ranges of code points. -/
abbrev Ranges := List (Nat × Nat)

/-- Progressions `(first, last, step)` of code points. -/
abbrev Progressions := List (Nat × Nat × Nat)

/-- Progressions `(first, last, step, target)`: `first + k` is mapped to `target + k`. -/
abbrev Shifts := List (Nat × Nat × Nat × Nat)

def Ranges.contains (table : Ranges) (n : Nat) : Bool :=
  table.any fun (first, last) => first ≤ n && n ≤ last

def Progressions.contains (table : Progressions) (n : Nat) : Bool :=
  table.any fun (first, last, step) => first ≤ n && n ≤ last && (n - first) % step == 0

def Shifts.image? (table : Shifts) (n : Nat) : Option Nat :=
  table.findSome? fun (first, last, step, target) =>
    if first ≤ n && n ≤ last && (n - first) % step == 0 then some (target + (n - first)) else none

/-- The code points that `table` maps to `n`. -/
def Shifts.preimages (table : Shifts) (n : Nat) : List Nat :=
  table.filterMap fun (first, last, step, target) =>
    if target ≤ n && n ≤ target + (last - first) && (n - target) % step == 0 then
      some (first + (n - target))
    else none

/-- The first 128 characters, on which the classes of `Char` agree with the Unicode properties. -/
def isAscii (c : Char) : Bool := c.toNat < 0x80

end CSharpStyle.Unicode
