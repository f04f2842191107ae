import KeyTree.Text.Combining
import KeyTree.Text.Unassigned
/-!
Characters that have no mark of their own on a page: controls, format characters, spaces other
than the plain one, private use, fillers, unassigned code points, and marks that combine with the
character before them.
-/

set_option autoImplicit false
set_option relaxedAutoImplicit false

namespace KeyTree.Text

/-- Controls, format characters, private use, and line, paragraph and word separators other than
the plain space, in increasing order. -/
def unprintedRanges : List (Nat × Nat) :=
  [(0x0, 0x1f), (0x7f, 0xa0), (0xad, 0xad), (0x600, 0x605), (0x61c, 0x61c), (0x6dd, 0x6dd),
    (0x70f, 0x70f), (0x890, 0x891), (0x8e2, 0x8e2), (0x1680, 0x1680), (0x180e, 0x180e),
    (0x2000, 0x200f), (0x2028, 0x202f), (0x205f, 0x2064), (0x2066, 0x206f), (0x3000, 0x3000),
    (0xe000, 0xf8ff), (0xfeff, 0xfeff), (0xfff9, 0xfffb), (0x110bd, 0x110bd), (0x110cd, 0x110cd),
    (0x13430, 0x1343f), (0x1bca0, 0x1bca3), (0x1d173, 0x1d17a), (0xe0001, 0xe0001),
    (0xe0020, 0xe007f), (0xf0000, 0xffffd), (0x100000, 0x10fffd)]

/-- The fillers, letters that stand for a part of a syllable that is left out. -/
def fillerRanges : List (Nat × Nat) :=
  [(0x115f, 0x1160), (0x3164, 0x3164), (0xffa0, 0xffa0)]

def isInvisible (c : Char) : Bool :=
  inRanges unprintedRanges c.toNat || inRanges fillerRanges c.toNat || isCombining c ||
    isUnassigned c

end KeyTree.Text
