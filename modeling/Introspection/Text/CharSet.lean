/-!
# `Introspection.Text.CharSet`: sets of characters given by their boundaries

A set of code points is written as the increasing list of the points where membership changes,
starting outside the set.
-/

set_option autoImplicit false

namespace Introspection.Text

/-- Whether `n` lies in the set that starts with membership `current` and changes it at each
boundary. -/
def withinBoundaries (current : Bool) (n : Nat) : List Nat → Bool
  | [] => current
  | b :: bs => if n < b then current else withinBoundaries (!current) n bs

/-- Control characters: code points below U+0020 and from U+007F to U+009F. -/
def isControl (c : Char) : Bool := c.toNat < 0x20 || (0x7F ≤ c.toNat && c.toNat < 0xA0)

/-- Characters of the Unicode property White_Space. -/
def isBlank (c : Char) : Bool :=
  withinBoundaries false c.toNat
    [0x9, 0xE, 0x20, 0x21, 0x85, 0x86, 0xA0, 0xA1, 0x1680, 0x1681, 0x2000, 0x200B, 0x2028, 0x202A,
      0x202F, 0x2030, 0x205F, 0x2060, 0x3000, 0x3001]

end Introspection.Text
