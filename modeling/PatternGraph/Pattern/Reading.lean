import PatternGraph.Pattern.Failure
import PatternGraph.Pattern.Options
import PatternGraph.Pattern.Piece

/-!
A pattern in the course of being read, and the reading of its next piece. The names of groups are
kept here, because a backreference has to find a group that is closed before it, and so are the
groups that are open.
-/
namespace PatternGraph
open Symbol

structure Scope where
  options : Options
  pairing : Pairing
  length : Nat

structure OpenGroup where
  tag : Option TagId
  pair : GroupPair

structure Reading where
  rest : List Symbol
  names : GroupNames
  /-- How many groups without a name have been opened. -/
  unnamed : Nat
  /-- Innermost first. -/
  opened : List OpenGroup
  /-- The piece before ended with a quantifier. -/
  quantified : Bool

namespace Reading

def start (symbols : List Symbol) : Reading := ⟨symbols, .empty, 0, [], false⟩

def register (scope : Scope) (offset : Nat) (name : String) (r : Reading) :
    Except PatternError (Option TagId × Reading) :=
  match r.names.find? name with
  | some _ => .error (.here (.duplicateGroup name) offset)
  | none =>
    if scope.options.captures then
      match r.names.register name with
      | .error _ => .error (.anywhere .tooManyIndices)
      | .ok (tag, names) => .ok (some tag, { r with names := names })
    else .ok (none, r)

def readHeader (scope : Scope) (offset : Nat) (r : Reading) :
    Except PatternError (Option TagId × Reading) :=
  let unnamed := r.unnamed + 1
  match r.rest with
  | [] => register scope offset (toString unnamed) { r with unnamed := unnamed }
  | s :: rest =>
    if s.isPlain '?' then
      match rest with
      | [] => .error (.here .invalidGroupName s.offset)
      | t :: after =>
        if t.isPlain ':' then .ok (none, { r with rest := after })
        else if t.isPlain '<' then
          match Piece.readName scope.length rest with
          | .error e => .error e
          | .ok (name, after) => register scope offset name { r with rest := after }
        else .error (.here .invalidGroupName s.offset)
    else register scope offset (toString unnamed) { r with unnamed := unnamed }

def openGroup (scope : Scope) (offset : Nat) (r : Reading) : Except Failure (Piece × Reading) :=
  let limit := scope.options.nestLimit
  if limit ≤ r.opened.length then .error (.refused (.here (.nestLimitExceeded limit) offset))
  else
    match scope.pairing.pairAt? offset with
    | none => .error (.defect (.unpairedGroup offset))
    | some pair =>
      match readHeader scope offset r with
      | .error e => .error (.refused e)
      | .ok (tag, r) =>
        .ok (.openGroup tag pair.looped,
          { r with opened := ⟨tag, pair⟩ :: r.opened, quantified := false })

def closeGroup (scope : Scope) (offset : Nat) (r : Reading) : Except Failure (Piece × Reading) :=
  match r.opened with
  | [] => .error (.refused (.here .unmatchedParen offset))
  | group :: outer =>
    if group.pair.close != offset then .error (.defect (.misplacedClose offset))
    else
      let names := match group.tag with
        | some tag => r.names.close tag
        | none => r.names
      if group.pair.looped then
        match Piece.readQuantifier scope.length r.rest with
        | .error e => .error (.refused e)
        | .ok (repetition, rest) =>
          .ok (.closeGroup (some repetition),
            { r with rest := rest, names := names, opened := outer, quantified := true })
      else
        .ok (.closeGroup none, { r with names := names, opened := outer, quantified := false })

def readBackref (scope : Scope) (offset : Nat) (r : Reading) :
    Except PatternError (Atom × List Symbol) :=
  match Piece.readName scope.length r.rest with
  | .error e => .error e
  | .ok (name, rest) =>
    match r.names.find? name with
    | none => .error (.here (.unknownGroup name) offset)
    | some tag =>
      if r.names.isClosed tag then .ok (.backref tag, rest)
      else .error (.here (.openGroup name) offset)

def readAtom (scope : Scope) (s : Symbol) (r : Reading) : Except Failure (Atom × List Symbol) :=
  match s.glyph with
  | .plain '[' =>
    match Piece.readClass s.offset r.rest with
    | .error e => .error (.refused e)
    | .ok (set, rest) => .ok (.charClass set, rest)
  | .plain '.' => .ok (.any, r.rest)
  | .escape 'k' _ =>
    match readBackref scope s.offset r with
    | .error e => .error (.refused e)
    | .ok found => .ok found
  | _ =>
    match Piece.readRun true (s :: r.rest) with
    | .error e => .error (.refused e)
    | .ok (c :: cs, rest) => .ok (.literal c cs, rest)
    | .ok ([], _) => .error (.defect (.emptyRun s.offset))

def atomPiece (scope : Scope) (s : Symbol) (r : Reading) : Except Failure (Piece × Reading) :=
  match readAtom scope s r with
  | .error e => .error e
  | .ok (atom, rest) =>
    match Piece.readRepetition scope.length rest with
    | .error e => .error (.refused e)
    | .ok (repetition, rest) =>
      .ok (.atom atom repetition, { r with rest := rest, quantified := repetition.isSome })

def pieceAt (scope : Scope) (s : Symbol) (r : Reading) : Except Failure (Piece × Reading) :=
  if s.isQuantifier then
    let cause := if r.quantified then .repeatedQuantifier else .danglingQuantifier
    .error (.refused (.here cause s.offset))
  else
    match s.glyph with
    | .plain '(' => openGroup scope s.offset r
    | .plain ')' => closeGroup scope s.offset r
    | .plain '|' => .ok (.alternative, { r with quantified := false })
    | .plain '}' => .error (.refused (.here .danglingQuantifier s.offset))
    | .plain ']' => .error (.refused (.here .unmatchedBracket s.offset))
    | _ => atomPiece scope s r

end Reading

end PatternGraph
