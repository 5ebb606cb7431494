/-!
# Ranges of characters

A property of characters is a list of ranges of their codes, both ends included.
-/
namespace Scriptlet.Text

def inRanges (ranges : List (Nat × Nat)) (c : Char) : Bool :=
  ranges.any fun (first, last) => first ≤ c.toNat && c.toNat ≤ last

end Scriptlet.Text
