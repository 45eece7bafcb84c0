import PatternGraph.Text.Alphanumeric

/-!
Paragraphs broken into lines. A line takes as many words as fit, and a word may be broken after a
hyphen between letters or digits. The blanks at a break are dropped.
-/
namespace PatternGraph.Text

structure Fragment where
  word : List Char
  blanks : Nat
  deriving DecidableEq, Repr

namespace Fragment

def cutWord (read : List Char) : List Char → List (List Char)
  | [] => [read.reverse]
  | [c] => [(c :: read).reverse]
  | c :: d :: rest =>
    let cut := c == '-' && isAlphanumeric d && (read.head?.map isAlphanumeric).getD false
    if cut then (c :: read).reverse :: cutWord [] (d :: rest) else cutWord (c :: read) (d :: rest)

def ofWord (word : List Char) (blanks : Nat) : List Fragment :=
  match (cutWord [] word).reverse with
  | [] => []
  | final :: parts => ((⟨final, blanks⟩ : Fragment) :: parts.map fun w => ⟨w, 0⟩).reverse

def readText (word : List Char) (blanks : Nat) : List Char → List Fragment
  | [] => if word.isEmpty && blanks == 0 then [] else ofWord word.reverse blanks
  | c :: rest =>
    if c == ' ' then readText word (blanks + 1) rest
    else if blanks == 0 then readText (c :: word) 0 rest
    else ofWord word.reverse blanks ++ readText [c] 0 rest

def ofText (text : String) : List Fragment := readText [] 0 text.toList

end Fragment

def joinLine (line : List Fragment) : String :=
  match line.reverse with
  | [] => ""
  | final :: parts =>
    String.join (parts.reverse.map fun f => String.ofList f.word ++ "".pushn ' ' f.blanks) ++
      String.ofList final.word

/-- Fills lines. The current one is given in reverse, with the columns that it takes up. -/
def fill (width : Nat) (line : List Fragment) (used : Nat) : List Fragment → List String
  | [] => if line.isEmpty then [] else [joinLine line.reverse]
  | f :: rest =>
    if width < used + f.word.length && !line.isEmpty then
      joinLine line.reverse :: fill width [f] (f.word.length + f.blanks) rest
    else fill width (f :: line) (used + f.word.length + f.blanks) rest

def wrap (width : Nat) (indent : String) (text : String) : List String :=
  (fill (width - indent.length) [] 0 (Fragment.ofText text)).map (indent ++ ·)

end PatternGraph.Text
