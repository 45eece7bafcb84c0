import PatternGraph.Event

/-!
Scanning bytes for a literal. The UTF-8 form of a character never begins inside that of another, so
what is found in a text stands on a character boundary.
-/
namespace PatternGraph

structure Needle where
  bytes : List UInt8
  deriving DecidableEq, Repr

namespace Needle

def ofChars? (cs : List Char) : Option Needle :=
  match cs.flatMap String.utf8EncodeChar with
  | [] => none
  | bytes => some ⟨bytes⟩

def size (n : Needle) : Nat := n.bytes.length

def event (n : Option Needle) : Event Nat :=
  match n with
  | none => .emptyNeedle
  | some n => if n.size = 1 then .byteNeedle else .textNeedle

def occursAt (haystack : ByteArray) (p : Nat) : List UInt8 → Bool
  | [] => true
  | b :: rest =>
    if h : p < haystack.size then haystack[p] == b && occursAt haystack (p + 1) rest else false

def find? (n : Needle) (haystack : ByteArray) (p : Nat) : Option Nat :=
  if haystack.size < p then none
  else if occursAt haystack p n.bytes then some p
  else find? n haystack (p + 1)
termination_by haystack.size + 1 - p

theorem bounds_of_find? {n : Needle} {haystack : ByteArray} {p found : Nat}
    (h : n.find? haystack p = some found) : p ≤ found ∧ found ≤ haystack.size := by
  fun_induction find? n haystack p with
  | case1 => cases h
  | case2 p inside =>
    cases h
    omega
  | case3 p inside absent ih =>
    have := ih h
    omega

end Needle

end PatternGraph
