import Mustache.Text.Emoji
import Mustache.Text.Ligature

/-! The columns that a text takes on a terminal. Characters are read from right to left, since what
follows a character decides whether it joins a ligature, a flag or an emoji sequence. -/
namespace Mustache.Text

/-- What stands to the right of the character that is read next. -/
inductive Following
  | plain
  | lineFeed
  | ligature (part : Ligature)
  | emoji (tail : EmojiTail)
  deriving DecidableEq

/-- A variation selector chooses how the character before it is shown. -/
inductive Selector
  | emoji
  | text
  deriving DecidableEq

structure Neighbour where
  following : Following
  selector : Option Selector
  deriving DecidableEq

namespace Following

def bare (following : Following) : Neighbour := ⟨following, none⟩

def ofChar (c : Char) : Following :=
  match Ligature.ofChar? c, EmojiTail.ofChar? c with
  | some part, _ => .ligature part
  | none, some tail => .emoji tail
  | none, none => .plain

/-- Whether an emoji with a selector joins what follows and takes no columns of its own. -/
def takesEmoji (following : Following) : Bool :=
  following = .emoji .joined || following = .emoji .joinedKeycap

/-- A selector parts what stands on its two sides, but not the letters of a ligature, and one for
emoji parts no emoji from a joiner or a keycap mark after it. -/
def select (following : Following) (selector : Selector) : Neighbour :=
  match following with
  | .ligature part => ⟨.ligature part, some selector⟩
  | following =>
    if selector = .emoji && following.takesEmoji then ⟨following, some selector⟩
    else ⟨.plain, some selector⟩

/-- The columns that a character adds where it joins what follows, and what the two then are. -/
def extend? (c : Char) : Following → Option (Int × Neighbour)
  | .plain | .lineFeed => none
  | .ligature part =>
    (part.extend? c).map fun
      | (width, some part) => (width, (ligature part).bare)
      | (width, none) => (width, plain.bare)
  | .emoji tail => (tail.extend? c).map fun (width, tail) => (width, (emoji tail).bare)

end Following

def ownWidth (c : Char) : Int :=
  if c.toNat == 0x17D8 then 3
  else if inRanges zeroWidthRanges c then 0
  else if inRanges wideRanges c then 2
  else 1

def isNarrowedByText (c : Char) : Bool :=
  inRanges selectableRanges c && inRanges emojiRanges c && !isBetween 0x1F200 0x1F2FF c

/-- The columns that a character adds, and what it is to the character on its left. A line feed
takes none, nor does a carriage return before it; another control character takes one. -/
def widthUnselected (c : Char) (following : Following) : Int × Neighbour :=
  if c = '\n' then (0, Following.lineFeed.bare)
  else if c = '\r' ∧ following = .lineFeed then (0, Following.plain.bare)
  else if c.toNat ≤ 0xA0 then (1, Following.plain.bare)
  else if c.toNat == 0xFE0F then (0, following.select .emoji)
  else if c.toNat == 0xFE0E then (0, following.select .text)
  else (following.extend? c).getD (ownWidth c, (Following.ofChar c).bare)

/-- As `widthUnselected`, with the selector that may stand between. One that does not suit the
character changes nothing in a ligature; elsewhere the character joins nothing on its right. -/
def widthBefore (c : Char) (next : Neighbour) : Int × Neighbour :=
  match next.selector with
  | none => widthUnselected c next.following
  | some .emoji =>
    if inRanges selectableRanges c then
      (if next.following.takesEmoji then 0 else 2, (Following.emoji .emoji).bare)
    else widthUnselected c (if next.following.takesEmoji then .plain else next.following)
  | some .text =>
    if isNarrowedByText c then (1, Following.plain.bare) else widthUnselected c next.following

def columns (text : List Char) : Nat :=
  (text.foldr
    (fun c (total, next) => let (width, here) := widthBefore c next; (total + width, here))
    ((0 : Int), Following.plain.bare)).1.toNat

end Mustache.Text
