import PatternGraph.Text.Width.Edition
import PatternGraph.Text.Width.Emoji

/-!
What the text on the right of a character combines with it to. A text is measured from its end,
because the last character of a ligature or of an emoji sequence tells what may come before it. A
character adds a negative width if the combination is narrower than the part measured before.
-/
namespace PatternGraph.Text.Width

/-- The later part of a ligature of two or three letters. -/
inductive Ligature
  | hebrewLamed
  | bugineseYa
  | bugineseVowelYa
  | tifinagh
  | tifinaghJoined
  | lisuTone
  | orkhonI
  | khmerBase
  | kiratE
  | kiratAi
  deriving DecidableEq, Repr

inductive Follower
  | nothing
  | lineFeed
  | skinTone
  | flagLetter
  | flagLetters
  /-- A whole emoji. -/
  | emoji
  | joinedEmoji
  | joinedKeycap
  | joinedFlagLetter
  | joinedFlagLetters (even : Bool)
  /-- The end of a run of tags with so many letters in it. -/
  | tagLetters (count : Nat)
  /-- A run of tags that has begun with so many digits. -/
  | tagDigits (count : Nat)
  | arabicAlef
  | ligature (l : Ligature) (joined : Bool)
  deriving DecidableEq, Repr

abbrev Step := Int × Follower

/-- A mark that is not shown, and so does not part a ligature. -/
def isHiddenMark (c : Char) : Bool :=
  let n := c.toNat
  n == 0x34f || (0x17b4 ≤ n && n ≤ 0x17b5) || (0x180b ≤ n && n ≤ 0x180d) || n == 0x180f ||
    (0xfe00 ≤ n && n ≤ 0xfe0f) || (0xe0100 ≤ n && n ≤ 0xe01ef)

def isArabicLam (c : Char) : Bool :=
  let n := c.toNat
  n == 0x644 || (0x6b5 ≤ n && n ≤ 0x6b8) || n == 0x76a || n == 0x8a6 || n == 0x8c7

def isArabicAlef (c : Char) : Bool :=
  let n := c.toNat
  n == 0x622 || n == 0x623 || n == 0x625 || n == 0x627 || (0x671 ≤ n && n ≤ 0x673) ||
    n == 0x675 || n == 0x773 || n == 0x774 || (0x870 ≤ n && n ≤ 0x882)

def isTifinagh (c : Char) : Bool := (0x2d31 ≤ c.toNat && c.toNat ≤ 0x2d65) || c.toNat == 0x2d6f

/-- A letter that goes below the one before it, after the sign for that. -/
def isKhmerBase (c : Char) : Bool :=
  let n := c.toNat
  (0x1780 ≤ n && n ≤ 0x1782) || (0x1784 ≤ n && n ≤ 0x1787) || (0x1789 ≤ n && n ≤ 0x178c) ||
    (0x178e ≤ n && n ≤ 0x1793) || (0x1795 ≤ n && n ≤ 0x1798) || (0x179b ≤ n && n ≤ 0x179d) ||
    n == 0x17a0 || n == 0x17a2 || n == 0x17a7 || (0x17ab ≤ n && n ≤ 0x17ac) || n == 0x17af

def Ligature.extend (joined : Bool) (c : Char) : Ligature → Option Step
  | .hebrewLamed => if joined && c == '\u05d0' then some (0, .nothing) else none
  | .bugineseYa =>
    if joined && c == '\u1a17' then some (0, .ligature .bugineseVowelYa true) else none
  | .bugineseVowelYa => if c == '\u1a15' then some (0, .nothing) else none
  | .tifinagh =>
    if c == '\u2d7f' then some (1, .ligature .tifinaghJoined true)
    else if joined && isTifinagh c then some (0, .nothing)
    else none
  | .tifinaghJoined => if isTifinagh c then some (-1, .nothing) else none
  | .lisuTone => if 0xa4f8 ≤ c.toNat && c.toNat ≤ 0xa4fb then some (0, .nothing) else none
  | .orkhonI => if joined && c.toNat == 0x10c32 then some (0, .nothing) else none
  | .khmerBase => if c == '\u17d2' then some (-1, .nothing) else none
  | .kiratE =>
    match c.toNat with
    | 0x16d63 => some (0, .nothing)
    | 0x16d67 => some (0, .ligature .kiratAi true)
    | 0x16d68 => some (1, .ligature .kiratE true)
    | 0x16d69 => some (0, .nothing)
    | _ => none
  | .kiratAi => if c.toNat == 0x16d63 then some (0, .nothing) else none

namespace Follower

def extend (ed : Edition) (c : Char) : Follower → Option Step
  | .nothing => none
  | .lineFeed => none
  | .skinTone =>
    if toneBaseTable.contains c then some (0, .emoji)
    else if c == joiner then some (0, .joinedEmoji)
    else none
  | .flagLetter => if isFlagLetter c then some (1, .flagLetters) else none
  | .flagLetters =>
    if isFlagLetter c then some (1, .flagLetters)
    else if c == joiner then some (0, .joinedEmoji)
    else none
  | .emoji => if c == joiner then some (0, .joinedEmoji) else none
  | .joinedEmoji =>
    if c == enclosingKeycap then some (0, .joinedKeycap)
    else if isFlagLetter c then some (1, .joinedFlagLetter)
    else if isSkinTone c then some (0, .skinTone)
    else if isTagEnd c then some (0, .tagLetters 0)
    else if ed.emoji.contains c then some (0, .emoji)
    else none
  | .joinedKeycap => none
  | .joinedFlagLetter => if isFlagLetter c then some (-1, .joinedFlagLetters true) else none
  | .joinedFlagLetters even =>
    if isFlagLetter c then some (if even then 3 else -1, .joinedFlagLetters !even)
    else if c == joiner then some (0, .joinedEmoji)
    else none
  | .tagLetters count =>
    if count < 6 && isTagLetter c then some (0, .tagLetters (count + 1))
    else if count < 5 && isTagDigit c then some (0, .tagDigits 1)
    else if 3 ≤ count && isTaggedFlag c then some (0, .emoji)
    else none
  | .tagDigits count =>
    if count < 3 && isTagDigit c then some (0, .tagDigits (count + 1))
    else if count == 3 && isTaggedFlag c then some (0, .emoji)
    else none
  | .arabicAlef =>
    if isArabicLam c then some (0, .nothing)
    else if ed.zero.contains c && !ed.barrier.contains c then some (0, .arabicAlef)
    else none
  | .ligature l joined =>
    if c == joiner then some (0, .ligature l true)
    else if isHiddenMark c then some (0, .ligature l joined)
    else l.extend joined c

/-- A selector of either kind does not part it from the letters before. -/
def allowsSelector : Follower → Bool
  | .arabicAlef => true
  | .ligature _ _ => true
  | _ => false

def awaitsSelector : Follower → Bool
  | .joinedEmoji => true
  | .joinedKeycap => true
  | _ => false

end Follower

def ligatureOf (ed : Edition) (c : Char) : Option Follower :=
  let n := c.toNat
  if isArabicAlef c then some .arabicAlef
  else if n == 0x5dc then some (.ligature .hebrewLamed false)
  else if isKhmerBase c then some (.ligature .khmerBase true)
  else if n == 0x1a10 then some (.ligature .bugineseYa false)
  else if isTifinagh c then some (.ligature .tifinagh false)
  else if n == 0xa4fc || n == 0xa4fd then some (.ligature .lisuTone true)
  else if n == 0x10c03 then some (.ligature .orkhonI false)
  else if ed.kiratRai && n == 0x16d67 then some (.ligature .kiratE true)
  else if ed.kiratRai && n == 0x16d68 then some (.ligature .kiratAi true)
  else none

def Edition.alone (ed : Edition) (c : Char) : Step :=
  if ed.zero.contains c then (0, .nothing)
  else if isFlagLetter c then (1, .flagLetter)
  else if isSkinTone c then (2, .skinTone)
  else if ed.emoji.contains c then (2, .emoji)
  else if c == '\u17d8' then (3, .nothing)
  else if ed.wide.contains c then (2, .nothing)
  else (1, (ligatureOf ed c).getD .nothing)

end PatternGraph.Text.Width
