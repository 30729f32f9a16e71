import RemoteTree.Text.Basic

/-!
# White space

Two classes are in use: the white space of every script, and the six blanks of ASCII.

* `CodePoint.isBlank`: white space of every script, the four separators of ASCII included.
* `CodePoint.isAsciiBlank`: tab, line feed, vertical tab, form feed, carriage return, space.
-/

namespace RemoteTree

/-- The white space of every script, as ranges in ascending order. -/
def blankRanges : List (Nat × Nat) := [
  (0x9, 0xD), (0x1C, 0x20), (0x85, 0x85), (0xA0, 0xA0), (0x1680, 0x1680), (0x2000, 0x200A),
  (0x2028, 0x2029), (0x202F, 0x202F), (0x205F, 0x205F), (0x3000, 0x3000)
]

/-- White space of any script. -/
def CodePoint.isBlank (c : CodePoint) : Bool := blankRanges.any fun r => c.within r.1 r.2

/-- Tab, line feed, vertical tab, form feed, carriage return or space. -/
def CodePoint.isAsciiBlank (c : CodePoint) : Bool := c.val = 0x20 || c.within 0x09 0x0D

/-- Every blank of ASCII is white space. -/
theorem CodePoint.isBlank_of_isAsciiBlank {c : CodePoint} (h : c.isAsciiBlank = true) :
    c.isBlank = true := by
  simp only [isAsciiBlank, isBlank, within, blankRanges, List.any_cons, List.any_nil,
    Bool.or_eq_true, Bool.and_eq_true, decide_eq_true_eq] at *
  omega

end RemoteTree
