import PatternGraph.Document.Value

/-!
Texts of a TOML document. They stand between single quotes, where nothing is escaped, or between
double quotes, and on one line unless the quotes are tripled.
-/
namespace PatternGraph.Document

def isBlank (c : Char) : Bool := c == ' ' || c == '\t'

def isCommentChar (c : Char) : Bool := c == '\t' || ' ' ≤ c

def isTextChar (c : Char) : Bool := isCommentChar c && c != '\x7f'

def isBareKeyChar (c : Char) : Bool := c.isAlphanum || c == '_' || c == '-'

def digitValue? (base : Nat) (c : Char) : Option Nat :=
  let value :=
    if c.isDigit then c.toNat - '0'.toNat
    else if 'a' ≤ c ∧ c ≤ 'f' then c.toNat - 'a'.toNat + 10
    else if 'A' ≤ c ∧ c ≤ 'F' then c.toNat - 'A'.toNat + 10
    else base
  if value < base then some value else none

def codePoint? (digits : List Char) : Option Char := do
  let code ← digits.foldlM (fun n c => (digitValue? 16 c).map (n * 16 + ·)) 0
  if code.isValidChar then some (Char.ofNat code) else none

def escaped? : Char → Option Char
  | 'b' => some '\x08'
  | 't' => some '\t'
  | 'n' => some '\n'
  | 'f' => some '\x0c'
  | 'r' => some '\r'
  | '"' => some '"'
  | '\\' => some '\\'
  | _ => none

def readLiteral (read : List Char) : List Char → Option (String × List Char)
  | [] => none
  | '\'' :: rest => some (String.ofList read.reverse, rest)
  | c :: rest => if isTextChar c then readLiteral (c :: read) rest else none

def readBasic (read : List Char) : List Char → Option (String × List Char)
  | [] => none
  | '"' :: rest => some (String.ofList read.reverse, rest)
  | '\\' :: 'u' :: a :: b :: c :: d :: rest =>
    match codePoint? [a, b, c, d] with
    | some e => readBasic (e :: read) rest
    | none => none
  | '\\' :: 'U' :: a :: b :: c :: d :: e :: f :: g :: h :: rest =>
    match codePoint? [a, b, c, d, e, f, g, h] with
    | some e => readBasic (e :: read) rest
    | none => none
  | '\\' :: c :: rest =>
    match escaped? c with
    | some e => readBasic (e :: read) rest
    | none => none
  | c :: rest => if isTextChar c && c != '\\' then readBasic (c :: read) rest else none

/-- Goes on with a text of several lines between single quotes. Up to two quotes before the three
at the end are part of it. -/
def readLiteralLines (read : List Char) : List Char → Option (String × List Char)
  | [] => none
  | '\'' :: '\'' :: '\'' :: '\'' :: '\'' :: rest =>
    some (String.ofList ('\'' :: '\'' :: read).reverse, rest)
  | '\'' :: '\'' :: '\'' :: '\'' :: rest => some (String.ofList ('\'' :: read).reverse, rest)
  | '\'' :: '\'' :: '\'' :: rest => some (String.ofList read.reverse, rest)
  | c :: rest => if c == '\n' || isTextChar c then readLiteralLines (c :: read) rest else none

inductive Skipping
  | nothing
  /-- Blanks up to the end of the line. -/
  | line
  /-- Blanks and empty lines. -/
  | lines

/-- Goes on with a text of several lines between double quotes. A backslash at the end of a line
joins it to the next one that is not empty. -/
def readBasicLines : Skipping → List Char → List Char → Option (String × List Char)
  | _, _, [] => none
  | .line, read, c :: rest =>
    if isBlank c then readBasicLines .line read rest
    else if c == '\n' then readBasicLines .lines read rest
    else none
  | .lines, read, '\n' :: rest => readBasicLines .lines read rest
  | .lines, read, ' ' :: rest => readBasicLines .lines read rest
  | .lines, read, '\t' :: rest => readBasicLines .lines read rest
  | _, read, '"' :: '"' :: '"' :: '"' :: '"' :: rest =>
    some (String.ofList ('"' :: '"' :: read).reverse, rest)
  | _, read, '"' :: '"' :: '"' :: '"' :: rest => some (String.ofList ('"' :: read).reverse, rest)
  | _, read, '"' :: '"' :: '"' :: rest => some (String.ofList read.reverse, rest)
  | _, read, '\\' :: 'u' :: a :: b :: c :: d :: rest =>
    match codePoint? [a, b, c, d] with
    | some e => readBasicLines .nothing (e :: read) rest
    | none => none
  | _, read, '\\' :: 'U' :: a :: b :: c :: d :: e :: f :: g :: h :: rest =>
    match codePoint? [a, b, c, d, e, f, g, h] with
    | some e => readBasicLines .nothing (e :: read) rest
    | none => none
  | _, read, '\\' :: c :: rest =>
    if c == '\n' then readBasicLines .lines read rest
    else if isBlank c then readBasicLines .line read rest
    else
      match escaped? c with
      | some e => readBasicLines .nothing (e :: read) rest
      | none => none
  | _, read, c :: rest =>
    if c == '\n' || (isTextChar c && c != '\\') then readBasicLines .nothing (c :: read) rest
    else none

def dropLineBreak : List Char → List Char
  | '\n' :: rest => rest
  | cs => cs

def readText : List Char → Option (String × List Char)
  | '\'' :: '\'' :: '\'' :: rest => readLiteralLines [] (dropLineBreak rest)
  | '\'' :: rest => readLiteral [] rest
  | '"' :: '"' :: '"' :: rest => readBasicLines .nothing [] (dropLineBreak rest)
  | '"' :: rest => readBasic [] rest
  | _ => none

end PatternGraph.Document
