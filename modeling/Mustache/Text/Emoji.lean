import Mustache.Text.Ligature

/-! Emoji that show as one with those before them: with a skin tone, as a flag, or after a joiner. A
text is read from right to left; an `EmojiTail` is what has been read of such a sequence. -/
namespace Mustache.Text

/-- In a `joined` tail a joiner stands before an emoji, and what the name adds before the joiner. -/
inductive EmojiTail
  | emoji
  | skinTone
  | indicator
  | indicators
  | joined
  | joinedKeycap
  | joinedHalfFlag
  | joinedFlags
  | joinedTagLetters (count : Nat)
  | joinedTagDigits (count : Nat)
  deriving DecidableEq

namespace EmojiTail

def isSkinTone (c : Char) : Bool := isBetween 0x1F3FB 0x1F3FF c

/-- Two regional indicators make a flag. -/
def isIndicator (c : Char) : Bool := isBetween 0x1F1E6 0x1F1FF c

def isTagLetter (c : Char) : Bool := isBetween 0xE0061 0xE007A c

def isTagDigit (c : Char) : Bool := isBetween 0xE0030 0xE0039 c

def isBlackFlag (c : Char) : Bool := c.toNat == 0x1F3F4

def ofChar? (c : Char) : Option EmojiTail :=
  if isSkinTone c then some .skinTone
  else if isIndicator c then some .indicator
  else if inRanges emojiRanges c then some .emoji
  else none

/-- The columns that a character adds to the sequence on its right, and the longer sequence. Tags
after a black flag name a region: up to six letters, or three digits and up to four letters. -/
def extend? (c : Char) : EmojiTail → Option (Int × EmojiTail)
  | .emoji => if isJoiner c then some (0, .joined) else none
  | .skinTone =>
    if isJoiner c then some (0, .joined)
    else if inRanges toneBaseRanges c then some (0, .emoji) else none
  | .indicator => if isIndicator c then some (1, .indicators) else none
  | .indicators =>
    if isJoiner c then some (0, .joined)
    else if isIndicator c then some (1, .indicators) else none
  | .joined =>
    if c.toNat == 0x20E3 then some (0, .joinedKeycap)
    else if c.toNat == 0xE007F then some (0, .joinedTagLetters 0)
    else if isSkinTone c then some (0, .skinTone)
    else if isIndicator c then some (1, .joinedHalfFlag)
    else if inRanges emojiRanges c then some (0, .emoji) else none
  | .joinedKeycap => none
  | .joinedHalfFlag => if isIndicator c then some (-1, .joinedFlags) else none
  | .joinedFlags =>
    if isJoiner c then some (0, .joined)
    else if isIndicator c then some (3, .joinedHalfFlag) else none
  | .joinedTagLetters count =>
    if count < 6 && isTagLetter c then some (0, .joinedTagLetters (count + 1))
    else if count < 5 && isTagDigit c then some (0, .joinedTagDigits 1)
    else if 3 ≤ count && isBlackFlag c then some (0, .emoji) else none
  | .joinedTagDigits count =>
    if count < 3 && isTagDigit c then some (0, .joinedTagDigits (count + 1))
    else if 3 ≤ count && isBlackFlag c then some (0, .emoji) else none

end EmojiTail
end Mustache.Text
