/-!
Cursors over finite sequences of tokens. A matcher looks at the token under the cursor, moves on,
and goes back to positions it has seen; it needs no more of its input than this.
-/
namespace PatternGraph

/-- A token stands for a character where a label asks for one. Equality of tokens may be finer. -/
class Token (T : Type) where
  toChar : T → Char

instance : Token Char := ⟨id⟩

instance : Token UInt8 := ⟨fun b => Char.ofNat b.toNat⟩

instance {A : Type} : Token (Char × A) := ⟨Prod.fst⟩

class Cursor (S : Type) (T P : outParam Type) where
  peek : S → Option T
  /-- Moves by a number of tokens, backwards if it is negative, and stops at either end. -/
  advance : S → Int → S
  pos : S → P
  moveTo : S → P → S
  /-- Goes down with every token that is passed, so no sequence is endless. -/
  remaining : S → Nat
  remaining_advance : ∀ c t, peek c = some t → remaining (advance c 1) < remaining c

namespace Cursor

variable {S T P : Type} [Cursor S T P]

def next (c : S) : Option (T × S) := (peek c).map fun t => (t, advance c 1)

def isDone (c : S) : Bool := (peek c : Option T).isNone

def consumeIf (p : T → Bool) (c : S) : Bool × S :=
  match peek c with
  | some t => if p t then (true, advance c 1) else (false, c)
  | none => (false, c)

/-- Reads tokens as long as they stand for `cs`. The first that does not has been passed as well. -/
def walkChars [Token T] (c : S) : List Char → Bool × S
  | [] => (true, c)
  | ch :: rest =>
    match next c with
    | none => (false, c)
    | some (t, c) => if Token.toChar t == ch then walkChars c rest else (false, c)

/-- Reads the tokens that `source` goes through before it stands at `stop`. It fails where the two
tokens differ, or where `source` runs out before it comes to `stop`. -/
def walkCopy [DecidableEq T] [DecidableEq P] (source : S) (stop : P) (c : S) : Bool × S :=
  if pos source = stop then (true, c)
  else
    match h : peek source with
    | none => (false, c)
    | some want =>
      have := remaining_advance _ _ h
      match next c with
      | none => (false, c)
      | some (t, c) => if want = t then walkCopy (advance source 1) stop c else (false, c)
termination_by remaining source

/-- Takes a cursor that has walked in vain back to where it set out. -/
def orBack (origin : P) (walked : Bool × S) : Bool × S :=
  if walked.1 then walked else (false, moveTo walked.2 origin)

def consumeChars [Token T] (c : S) (cs : List Char) : Bool × S := orBack (pos c) (walkChars c cs)

def consumeCopy [DecidableEq T] [DecidableEq P] (source : S) (stop : P) (c : S) : Bool × S :=
  orBack (pos c) (walkCopy source stop c)

end Cursor

end PatternGraph
