import Reckoner.Text.Ranges

/-!
White space of running text: the 29 characters that Unicode counts as spaces, line and paragraph
separators or white-space controls. The zero-width space is not among them.
-/

set_option autoImplicit false

namespace Reckoner.Text

def blankRanges : CodeRanges :=
  [(0x9, 0xd), (0x1c, 0x20), (0x85, 0x85), (0xa0, 0xa0), (0x1680, 0x1680), (0x2000, 0x200a),
   (0x2028, 0x2029), (0x202f, 0x202f), (0x205f, 0x205f), (0x3000, 0x3000)]

def isBlank (c : Char) : Bool := blankRanges.contains c

def isBlankText (text : String) : Bool := text.toList.all isBlank

end Reckoner.Text
