import Mustache.Text.WidthTable

/-! Letters that share columns with the letters before them. A text is read from right to left; a
`Ligature` is what has been read of one that a character further left may complete. -/
namespace Mustache.Text

def isBetween (first last : Nat) (c : Char) : Bool :=
  first ≤ c.toNat && c.toNat ≤ last

def isJoiner (c : Char) : Bool := c.toNat == 0x200D

/-- `joined` says that a joiner stands to the left of the letter. -/
inductive Ligature
  | arabicAlef
  | hebrewLamed (joined : Bool)
  | bugineseYa (joined : Bool)
  | bugineseVowelYa
  | tifinagh (joined : Bool)
  | tifinaghPair
  | lisuTone
  | orkhonI (joined : Bool)
  | khmerLetter
  deriving DecidableEq

namespace Ligature

def isAlef (c : Char) : Bool :=
  inRanges [(0x622, 0x623), (0x625, 0x625), (0x627, 0x627), (0x671, 0x673), (0x675, 0x675),
    (0x773, 0x774), (0x870, 0x882)] c

def isLam (c : Char) : Bool :=
  inRanges [(0x644, 0x644), (0x6B5, 0x6B8), (0x76A, 0x76A), (0x8A6, 0x8A6), (0x8C7, 0x8C7)] c

def isTifinagh (c : Char) : Bool :=
  inRanges [(0x2D31, 0x2D65), (0x2D6F, 0x2D6F)] c

def isKhmerLetter (c : Char) : Bool :=
  inRanges [(0x1780, 0x1782), (0x1784, 0x1787), (0x1789, 0x178C), (0x178E, 0x1793),
    (0x1795, 0x1798), (0x179B, 0x179D), (0x17A0, 0x17A0), (0x17A2, 0x17A2), (0x17A7, 0x17A7),
    (0x17AB, 0x17AC), (0x17AF, 0x17AF)] c

/-- Combining marks that are ignored by default. -/
def isIgnored (c : Char) : Bool :=
  inRanges [(0x34F, 0x34F), (0x17B4, 0x17B5), (0x180B, 0x180D), (0x180F, 0x180F), (0xFE00, 0xFE0F),
    (0xE0100, 0xE01EF)] c

/-- The ligature that a letter may end. -/
def ofChar? (c : Char) : Option Ligature :=
  let n := c.toNat
  if isAlef c then some .arabicAlef
  else if n == 0x5DC then some (.hebrewLamed false)
  else if n == 0x1A10 then some (.bugineseYa false)
  else if isTifinagh c then some (.tifinagh false)
  else if isBetween 0xA4FC 0xA4FD c then some .lisuTone
  else if n == 0x10C03 then some (.orkhonI false)
  else if isKhmerLetter c then some .khmerLetter
  else none

def join : Ligature → Ligature
  | .hebrewLamed _ => .hebrewLamed true
  | .bugineseYa _ => .bugineseYa true
  | .tifinagh _ => .tifinagh true
  | .orkhonI _ => .orkhonI true
  | ligature => ligature

/-- What a letter adds to the columns of the ligature on its right, and what is left to complete. -/
def complete? (c : Char) : Ligature → Option (Int × Option Ligature)
  | .arabicAlef => if isLam c then some (0, none) else none
  | .hebrewLamed joined => if joined && c.toNat == 0x5D0 then some (0, none) else none
  | .bugineseYa joined =>
    if joined && c.toNat == 0x1A17 then some (0, some .bugineseVowelYa) else none
  | .bugineseVowelYa => if c.toNat == 0x1A15 then some (0, none) else none
  | .tifinagh joined =>
    if c.toNat == 0x2D7F then some (1, some .tifinaghPair)
    else if joined && isTifinagh c then some (0, none) else none
  | .tifinaghPair => if isTifinagh c then some (-1, none) else none
  | .lisuTone => if isBetween 0xA4F8 0xA4FB c then some (0, none) else none
  | .orkhonI joined => if joined && c.toNat == 0x10C32 then some (0, none) else none
  | .khmerLetter => if c.toNat == 0x17D2 then some (-1, none) else none

/-- As `complete?`, with the characters that may stand inside a ligature: of Arabic, all without
columns that do not part its letters; of the other scripts, joiners and ignored marks. -/
def extend? (c : Char) (ligature : Ligature) : Option (Int × Option Ligature) :=
  if ligature = .arabicAlef then
    if inRanges zeroWidthRanges c && !inRanges unjoinedRanges c then some (0, some ligature)
    else complete? c ligature
  else if isJoiner c then some (0, some ligature.join)
  else if isIgnored c then some (0, some ligature)
  else complete? c ligature

end Ligature
end Mustache.Text
