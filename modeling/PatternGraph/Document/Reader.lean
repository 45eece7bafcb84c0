import PatternGraph.Document.Number

/-!
TOML documents: headers of tables and of arrays of tables, keys with values, and comments.
-/
namespace PatternGraph.Document

def dropBlanks (cs : List Char) : List Char := cs.dropWhile isBlank

def dropGap (inComment : Bool) : List Char → List Char
  | [] => []
  | c :: rest =>
    if c == '\n' then dropGap false rest
    else if inComment && isCommentChar c then dropGap true rest
    else if isBlank c then dropGap false rest
    else if !inComment && c == '#' then dropGap true rest
    else c :: rest

def endLine (cs : List Char) : Option (List Char) :=
  let rest := match dropBlanks cs with
    | '#' :: comment => comment.dropWhile isCommentChar
    | other => other
  match rest with
  | [] => some []
  | '\n' :: next => some next
  | _ => none

def readKeyPart : List Char → Option (String × List Char)
  | '"' :: '"' :: '"' :: _ => none
  | '\'' :: '\'' :: '\'' :: _ => none
  | '"' :: rest => readBasic [] rest
  | '\'' :: rest => readLiteral [] rest
  | cs => (readWord cs).map fun (word, rest) => (String.ofList word, rest)

def readKey : Nat → List Char → Option (List String × List Char)
  | 0, _ => none
  | fuel + 1, cs => do
    let (part, rest) ← readKeyPart (dropBlanks cs)
    match dropBlanks rest with
    | '.' :: rest => do
      let (parts, rest) ← readKey fuel rest
      return (part :: parts, rest)
    | rest => return ([part], rest)

mutual

/-- A value. The fuel bounds the characters that it takes up, and so the depth of the recursion. -/
def readValue : Nat → List Char → Option (Value × List Char)
  | 0, _ => none
  | fuel + 1, cs =>
    match cs with
    | '"' :: _ => (readText cs).map fun (s, rest) => (.text s, rest)
    | '\'' :: _ => (readText cs).map fun (s, rest) => (.text s, rest)
    | '[' :: rest => readItems fuel [] (dropGap false rest)
    | '\x7b' :: rest =>
      match dropBlanks rest with
      | '\x7d' :: rest => some (.table .inline [], rest)
      | fields => readFields fuel [] fields
    | cs => readPlain cs

def readItems : Nat → List Value → List Char → Option (Value × List Char)
  | 0, _, _ => none
  | fuel + 1, read, cs =>
    match cs with
    | ']' :: rest => some (.array read.reverse, rest)
    | cs => do
      let (v, rest) ← readValue fuel cs
      match dropGap false rest with
      | ',' :: rest => readItems fuel (v :: read) (dropGap false rest)
      | ']' :: rest => some (.array (v :: read).reverse, rest)
      | _ => none

def readFields : Nat → Entries → List Char → Option (Value × List Char)
  | 0, _, _ => none
  | fuel + 1, read, cs => do
    let (key, rest) ← readKey fuel cs
    match rest with
    | '=' :: rest => do
      let (v, rest) ← readValue fuel (dropBlanks rest)
      let read ← read.assign v key
      match dropBlanks rest with
      | ',' :: rest => readFields fuel read rest
      | '\x7d' :: rest => some (.table .inline read, rest)
      | _ => none
    | _ => none

end

inductive Statement
  | table (path : List String)
  | element (path : List String)
  | assignment (key : List String) (v : Value)
  deriving Repr

def readStatement (cs : List Char) : Option (Statement × List Char) :=
  let fuel := 2 * cs.length + 2
  match cs with
  | '[' :: '[' :: rest => do
    let (path, rest) ← readKey fuel rest
    match rest with
    | ']' :: ']' :: rest => return (.element path, ← endLine rest)
    | _ => none
  | '[' :: rest => do
    let (path, rest) ← readKey fuel rest
    match rest with
    | ']' :: rest => return (.table path, ← endLine rest)
    | _ => none
  | cs => do
    let (key, rest) ← readKey fuel cs
    match rest with
    | '=' :: rest => do
      let (v, rest) ← readValue fuel (dropBlanks rest)
      return (.assignment key v, ← endLine rest)
    | _ => none

def readStatements : Nat → List Char → Option (List Statement)
  | 0, _ => none
  | fuel + 1, cs =>
    match dropGap false cs with
    | [] => some []
    | cs => do
      let (s, rest) ← readStatement cs
      return s :: (← readStatements fuel rest)

def unifyLines : List Char → List Char
  | [] => []
  | '\r' :: '\n' :: rest => '\n' :: unifyLines rest
  | c :: rest => c :: unifyLines rest

structure Assembly where
  entries : Entries
  path : List String

namespace Assembly

def empty : Assembly := ⟨[], []⟩

def splitPath (path : List String) : Option (List String × String) :=
  path.getLast?.map fun key => (path.dropLast, key)

def add (a : Assembly) : Statement → Option Assembly
  | .table path => do
    let (parents, key) ← splitPath path
    return ⟨← Entries.changeAt (Entries.openTable key) parents a.entries, path⟩
  | .element path => do
    let (parents, key) ← splitPath path
    return ⟨← Entries.changeAt (Entries.openElement key) parents a.entries, path⟩
  | .assignment key v => do
    return ⟨← Entries.changeAt (Entries.assign v key) a.path a.entries, a.path⟩

end Assembly

def dropMark : List Char → List Char
  | '\ufeff' :: rest => rest
  | cs => cs

def parse? (text : String) : Option Entries := do
  let cs := unifyLines (dropMark text.toList)
  let statements ← readStatements (cs.length + 1) cs
  let document ← statements.foldlM Assembly.add .empty
  return document.entries

end PatternGraph.Document
