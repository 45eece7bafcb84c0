/-!
Indices into the tables of a graph. The kind keeps a state from being taken for a tag; the bound
is the same for all kinds.
-/
namespace PatternGraph

inductive IndexKind
  | state
  | charClass
  | tag
  | trap
  deriving DecidableEq, Repr

def IndexKind.name : IndexKind → String
  | .state => "StateID"
  | .charClass => "ClassID"
  | .tag => "TagID"
  | .trap => "TrapID"

structure Index (kind : IndexKind) where
  val : Nat
  deriving DecidableEq, Repr

abbrev StateId := Index .state
abbrev ClassId := Index .charClass
abbrev TagId := Index .tag
abbrev TrapId := Index .trap

structure IndexError where
  kind : IndexKind
  attempted : Nat
  deriving DecidableEq, Repr

namespace Index

def greatest : Nat := 2147483646

def limit : Nat := greatest + 1

def ofNat? (kind : IndexKind) (n : Nat) : Except IndexError (Index kind) :=
  if n ≤ greatest then .ok ⟨n⟩ else .error ⟨kind, n⟩

/-- Keeps the low 32 bits and checks nothing. -/
def truncate (kind : IndexKind) (n : Nat) : Index kind := ⟨n % UInt32.size⟩

def render {kind : IndexKind} (i : Index kind) : String :=
  kind.name ++ "(" ++ toString i.val ++ ")"

theorem eq_of_val {kind : IndexKind} {i j : Index kind} (same : i.val = j.val) : i = j := by
  cases i
  cases j
  cases same
  rfl

theorem ofNat?_eq_ok_iff {kind : IndexKind} {n : Nat} {i : Index kind} :
    ofNat? kind n = .ok i ↔ n ≤ greatest ∧ i = ⟨n⟩ := by
  unfold ofNat?
  split
  · rename_i bound
    simp [bound, eq_comm]
  · rename_i bound
    simp [bound]

end Index

namespace IndexError

def name (e : IndexError) : String := e.kind.name ++ "Error"

def message (e : IndexError) : String :=
  "failed to create " ++ e.kind.name ++ " from " ++ toString e.attempted ++ ", which exceeds " ++
    (⟨Index.greatest⟩ : Index e.kind).render

def render (e : IndexError) : String :=
  e.name ++ " \x7b attempted: " ++ toString e.attempted ++ " \x7d"

def complaint (e : IndexError) : String :=
  "invalid " ++ e.kind.name ++ " value: " ++ e.render

end IndexError

end PatternGraph
