import PatternGraph.Cursor.Span

/-!
Where one group matched. A group inside a loop is entered many times, so the starts form a stack;
there is one end. Each binding returns what it takes to revert it.
-/
namespace PatternGraph

structure Tracker (P : Type) where
  /-- Newest first. -/
  starts : List P
  stop : Option P
  deriving DecidableEq, Repr

namespace Tracker

variable {P : Type}

inductive Undo (P : Type)
  | start (popped previousStop : Option P)
  | stop (popped : List P) (previousStop : Option P)
  deriving DecidableEq, Repr

def empty : Tracker P := ⟨[], none⟩

def clear (_ : Tracker P) : Tracker P := empty

/-- A group that has an end is entered again, so its last start goes with that end. -/
def bindStart (t : Tracker P) (p : P) : Undo P × Tracker P :=
  match t.stop, t.starts with
  | some e, s :: older => (.start (some s) (some e), ⟨p :: older, none⟩)
  | e, starts => (.start none e, ⟨p :: starts, none⟩)

/-- Of several starts the oldest stays. -/
def bindStop (t : Tracker P) (p : P) : Undo P × Tracker P :=
  (.stop t.starts.dropLast t.stop, ⟨t.starts.getLast?.toList, some p⟩)

def undo (t : Tracker P) : Undo P → Tracker P
  | .start popped previousStop => ⟨popped.toList ++ t.starts.drop 1, previousStop⟩
  | .stop popped previousStop => ⟨popped ++ t.starts, previousStop⟩

def span? (t : Tracker P) : Option (Span P) :=
  match t.stop, t.starts with
  | some e, s :: _ => some ⟨s, e⟩
  | _, _ => none

def depth (t : Tracker P) : Nat := t.starts.length

end Tracker

end PatternGraph
