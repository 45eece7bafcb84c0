import PatternGraph.Text.Width.Follower

/-!
Measuring a text from its end, one character at a time. A selector changes how the character before
it is drawn: as an emoji of two columns, or as plain text of one.
-/
namespace PatternGraph.Text.Width

inductive Selector
  | text
  | emoji
  deriving DecidableEq, Repr

/-- What a character finds on its right: a selector, or none, and what comes after that. -/
structure RightContext where
  follower : Follower
  selector : Option Selector
  deriving DecidableEq, Repr

namespace RightContext

def start : RightContext := ⟨.nothing, none⟩

/-- What is left to combine with when the selector had no use. -/
def unselected (ctx : RightContext) : Follower :=
  if ctx.selector.isNone || ctx.follower.allowsSelector then ctx.follower else .nothing

/-- With a selector in front. A joined emoji waits for one that is shown as an emoji. -/
def select (ctx : RightContext) (s : Selector) : RightContext :=
  let kept := ctx.follower.allowsSelector || (s == .emoji && ctx.follower.awaitsSelector)
  ⟨if kept then ctx.follower else .nothing, some s⟩

/-- One character more on the left, and the columns that it adds. A line feed takes none, nor does
the carriage return before it; any other control takes one. -/
def push (ed : Edition) (c : Char) (ctx : RightContext) : Int × RightContext :=
  if ctx.selector == some .emoji && emojiBaseTable.contains c then
    (if ctx.follower.awaitsSelector then 0 else 2, ⟨.emoji, none⟩)
  else
    let ctx := if ctx.selector == some .emoji then ⟨ctx.unselected, none⟩ else ctx
    if c.toNat ≤ 0xa0 then
      if c == '\n' then (0, ⟨.lineFeed, none⟩)
      else if c == '\r' && ctx.follower == .lineFeed then (0, start)
      else (1, start)
    else if c == emojiSelector then (0, ctx.select .emoji)
    else if c == textSelector then (0, ctx.select .text)
    else if ctx.selector == some .text && textBaseTable.contains c then (1, start)
    else
      let (width, follower) := (ctx.unselected.extend ed c).getD (ed.alone c)
      (width, ⟨follower, none⟩)

end RightContext

end PatternGraph.Text.Width
