import PatternGraph.Interval.SegmentSet

/-!
How often a loop may run: a set of counts, of which the largest stands for every larger count too.
-/
namespace PatternGraph
open Ordinal

structure Repetition where
  counts : SegmentSet UInt32

namespace Repetition

/-- Stands for all counts that have no numeral in a pattern. -/
def unbounded : UInt32 := 4294967295

def maxFinite : Nat := 4294967294

def between (low high : UInt32) : Repetition := ⟨SegmentSet.empty.addRange low high⟩

def exactly (n : UInt32) : Repetition := between n n

def atLeast (n : UInt32) : Repetition := between n unbounded

def star : Repetition := atLeast 0

def plus : Repetition := atLeast 1

def addRange (r : Repetition) (low high : UInt32) : Repetition := ⟨r.counts.addRange low high⟩

def accepts (r : Repetition) (n : UInt32) : Bool := r.counts.contains n

def least (r : Repetition) : UInt32 :=
  match r.counts.first? with
  | none => 0
  | some s => s.low

def greatest? (r : Repetition) : Option UInt32 :=
  match r.counts.last? with
  | none => some 0
  | some s => if s.high = unbounded then none else some s.high

def mayRepeat (r : Repetition) (n : UInt32) : Bool :=
  match r.greatest? with
  | none => true
  | some m => n < m

def render (r : Repetition) : String :=
  let low := r.least
  match r.greatest? with
  | none =>
    if low = 0 then "*"
    else if low = 1 then "+"
    else "\x7b" ++ toString low.toNat ++ ",\x7d"
  | some high =>
    if high = low then "\x7b" ++ toString low.toNat ++ "\x7d"
    else "\x7b" ++ toString low.toNat ++ "," ++ toString high.toNat ++ "\x7d"

end Repetition

end PatternGraph
