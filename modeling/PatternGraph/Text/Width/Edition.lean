import PatternGraph.Text.RangeTable

/-!
What a version of the Unicode character database says about the columns of a terminal that
characters take. Later versions have more characters, and more marks among them.
-/
namespace PatternGraph.Text.Width

structure Edition where
  /-- Characters two columns wide. -/
  wide : RangeTable
  /-- Characters without a column of their own: marks, letters that only lead a cluster, and others
  that are not shown or become part of their neighbour. -/
  zero : RangeTable
  /-- Those without a column that keep Arabic letters on their two sides from joining. -/
  barrier : RangeTable
  /-- Emoji that need no selector, without skin tones and the letters of flags. -/
  emoji : RangeTable
  /-- The vowel signs of Kirat Rai are known, so that two of them may make a third. -/
  kiratRai : Bool

end PatternGraph.Text.Width
