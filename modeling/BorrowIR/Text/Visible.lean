import BorrowIR.Text.GraphemeExtend
import BorrowIR.Text.Unprintable

/-!
# Characters that show by themselves

A character is visible if a reader who sees it by itself sees something. Characters that do not
show, fillers and characters that extend the one before are not visible; the sound marks of
halfwidth kana are, since they extend the one before and yet have a place of their own.
-/

namespace BorrowIR

/-- The fillers stand for a missing part of a Hangul syllable; they are letters without a shape. -/
def isHangulFiller (c : Char) : Bool :=
  c = '\u115f' || c = '\u1160' || c = '\u3164' || c = '\uffa0'

/-- The voiced and the semi-voiced sound mark of halfwidth kana. -/
def isHalfwidthSoundMark (c : Char) : Bool := c = '\uff9e' || c = '\uff9f'

/-- A character shows by itself. -/
def isVisible (c : Char) : Bool :=
  !isUnprintable c && !isHangulFiller c && (!isGraphemeExtend c || isHalfwidthSoundMark c)

end BorrowIR
