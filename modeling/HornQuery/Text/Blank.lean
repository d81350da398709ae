import HornQuery.Text.CodePoints

/-! White space: the characters with the Unicode property White_Space. -/

namespace HornQuery.Text

def blankCodes : CodePoints := [
  (0x9, 0xd), (0x20, 0x20), (0x85, 0x85), (0xa0, 0xa0), (0x1680, 0x1680), (0x2000, 0x200a),
  (0x2028, 0x2029), (0x202f, 0x202f), (0x205f, 0x205f), (0x3000, 0x3000)]

def isBlank (c : Char) : Bool :=
  blankCodes.has c.toNat

end HornQuery.Text
