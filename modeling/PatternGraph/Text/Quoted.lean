import PatternGraph.Text.Visible

/-!
Characters and texts written between quotes. The control characters with a short form, the
backslash and the quote in use get a backslash; a character that could not be seen is written by
its code point.
-/
namespace PatternGraph.Text

/-- Which quotes stand for themselves only behind a backslash. -/
structure QuoteStyle where
  single : Bool
  double : Bool

namespace QuoteStyle

def char : QuoteStyle := ⟨true, false⟩

def text : QuoteStyle := ⟨false, true⟩

def either : QuoteStyle := ⟨true, true⟩

end QuoteStyle

def codePointForm (c : Char) : String :=
  "\\u\x7b" ++ String.ofList (Nat.toDigits 16 c.toNat) ++ "\x7d"

def escape (style : QuoteStyle) (c : Char) : String :=
  match c with
  | '\x00' => "\\0"
  | '\t' => "\\t"
  | '\r' => "\\r"
  | '\n' => "\\n"
  | '\\' => "\\\\"
  | '\'' => if style.single then "\\'" else "'"
  | '"' => if style.double then "\\\"" else "\""
  | c => if isVisible c then c.toString else codePointForm c

def quoteChar (c : Char) : String := "'" ++ escape .char c ++ "'"

def quoteString (s : String) : String :=
  s.toList.foldl (fun written c => written ++ escape .text c) "\"" ++ "\""

end PatternGraph.Text
