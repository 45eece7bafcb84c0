import PatternGraph.Text.Quoted

/-!
Arguments of a command, taken apart one at a time. A short option may be followed by others in the
same argument; the value of an option is what is left of its argument, with or without an equals
sign, or the next argument. Two dashes alone end the options.
-/
namespace PatternGraph.CommandLine

inductive Flag
  | short (c : Char)
  | long (name : String)
  deriving DecidableEq, Repr

inductive Argument
  | flag (f : Flag)
  | value (v : String)
  deriving DecidableEq, Repr

inductive ArgumentError
  | missingValue (flag : Option Flag)
  | unexpectedValue (flag : Option Flag) (value : String)
  | unexpectedFlag (flag : Flag)
  | unexpectedArgument (value : String)
  deriving DecidableEq, Repr

/-- Arguments from which options and values are taken one at a time. -/
class Tokenizer (A : Type) where
  /-- The next option or value, if there is one. -/
  next : A → Except ArgumentError (Option (Argument × A))
  /-- The value of the option that was taken last. -/
  value : A → Except ArgumentError (String × A)
  /-- Goes down with every option or value, so the arguments come to an end. -/
  size : A → Nat
  size_of_next : ∀ {a b arg}, next a = .ok (some (arg, b)) → size b < size a
  size_of_value : ∀ {a b v}, value a = .ok (v, b) → size b ≤ size a

inductive Pending
  | nothing
  /-- What stood after the equals sign of a long option. -/
  | value (v : String)
  /-- What stood after the short option that was taken. -/
  | shorts (cs : List Char)
  /-- All the arguments that follow are values. -/
  | finished
  deriving DecidableEq, Repr

def Pending.size : Pending → Nat
  | .shorts cs => cs.length
  | .nothing | .value _ | .finished => 0

structure Arguments where
  rest : List String
  pending : Pending
  last : Option Flag
  deriving DecidableEq, Repr

def Flag.render : Flag → String
  | .short c => "-" ++ c.toString
  | .long name => "--" ++ name

def ArgumentError.message : ArgumentError → String
  | .missingValue none => "missing argument"
  | .missingValue (some f) => "missing argument for option '" ++ f.render ++ "'"
  | .unexpectedValue none v => "unexpected argument " ++ Text.quoteString v
  | .unexpectedValue (some f) v =>
    "unexpected argument for option '" ++ f.render ++ "': " ++ Text.quoteString v
  | .unexpectedFlag f => "invalid option '" ++ f.render ++ "'"
  | .unexpectedArgument v => "unexpected argument " ++ Text.quoteString v

namespace Arguments

def ofList (args : List String) : Arguments := ⟨args, .nothing, none⟩

def splitEquals (cs : List Char) : List Char × Option (List Char) :=
  match cs.dropWhile (· != '=') with
  | [] => (cs, none)
  | _ :: v => (cs.takeWhile (· != '='), some v)

def short (a : Arguments) (c : Char) (cs : List Char) : Argument × Arguments :=
  (.flag (.short c), { a with pending := .shorts cs, last := some (.short c) })

def fresh (a : Arguments) : Option (Argument × Arguments) :=
  match a.rest with
  | [] => none
  | arg :: rest =>
    match arg.toList with
    | ['-', '-'] =>
      match rest with
      | [] => none
      | v :: rest => some (.value v, ⟨rest, .finished, a.last⟩)
    | '-' :: '-' :: cs =>
      let (name, v) := splitEquals cs
      let flag := Flag.long (String.ofList name)
      let pending := match v with
        | some v => .value (String.ofList v)
        | none => .nothing
      some (.flag flag, ⟨rest, pending, some flag⟩)
    | '-' :: c :: cs => some (short { a with rest := rest } c cs)
    | _ => some (.value arg, ⟨rest, .nothing, a.last⟩)

/-- The next option or value. A value that its option did not take is an error. -/
def next (a : Arguments) : Except ArgumentError (Option (Argument × Arguments)) :=
  match a.pending with
  | .nothing => .ok a.fresh
  | .value v => .error (.unexpectedValue a.last v)
  | .shorts [] => .ok { a with pending := .nothing }.fresh
  | .shorts ('=' :: v) => .error (.unexpectedValue a.last (String.ofList v))
  | .shorts (c :: cs) => .ok (some (a.short c cs))
  | .finished =>
    match a.rest with
    | [] => .ok none
    | v :: rest => .ok (some (.value v, { a with rest := rest }))

def nextValue (a : Arguments) : Except ArgumentError (String × Arguments) :=
  match a.rest with
  | [] => .error (.missingValue a.last)
  | v :: rest => .ok (v, { a with rest := rest })

def value (a : Arguments) : Except ArgumentError (String × Arguments) :=
  match a.pending with
  | .value v => .ok (v, { a with pending := .nothing })
  | .shorts ('=' :: v) => .ok (String.ofList v, { a with pending := .nothing })
  | .shorts (c :: cs) => .ok (String.ofList (c :: cs), { a with pending := .nothing })
  | .shorts [] => nextValue { a with pending := .nothing }
  | .nothing | .finished => nextValue a

def sizeOfList : List String → Nat
  | [] => 0
  | arg :: rest => arg.length + 1 + sizeOfList rest

def size (a : Arguments) : Nat := a.pending.size + sizeOfList a.rest

theorem size_of_fresh {a b : Arguments} {arg : Argument} (taken : a.fresh = some (arg, b)) :
    b.size < sizeOfList a.rest := by
  unfold fresh at taken
  split at taken
  · cases taken
  · next first rest left =>
    have count : first.length = first.toList.length := (String.length_toList).symm
    split at taken
    · split at taken
      · cases taken
      · cases taken
        simp [size, Pending.size, sizeOfList, left]
        omega
    · cases taken
      simp only [size, left, sizeOfList]
      split <;> simp [Pending.size]
    · next c cs _ spelled =>
      cases taken
      simp [size, Pending.size, sizeOfList, left, count, spelled]
      omega
    · cases taken
      simp [size, Pending.size, sizeOfList, left]

theorem size_of_next {a b : Arguments} {arg : Argument} (taken : a.next = .ok (some (arg, b))) :
    b.size < a.size := by
  unfold next at taken
  split at taken
  · next idle =>
    cases fresh : a.fresh with
    | none => simp [fresh] at taken
    | some p =>
      obtain rfl : p = (arg, b) := by simpa [fresh] using taken
      have := size_of_fresh fresh
      simp only [size] at *
      omega
  · cases taken
  · next idle =>
    have := size_of_fresh (Option.some.inj (congrArg Option.some (Except.ok.inj taken)))
    simp only [size] at *
    omega
  · cases taken
  · next c cs _ idle =>
    cases taken
    simp [size, idle, Pending.size]
  · next idle =>
    split at taken
    · cases taken
    · next v rest left =>
      cases taken
      simp [size, sizeOfList, left]

theorem size_of_nextValue {a b : Arguments} {v : String} (taken : a.nextValue = .ok (v, b)) :
    b.size ≤ a.size := by
  unfold nextValue at taken
  split at taken
  · cases taken
  · next v rest left =>
    cases taken
    simp [size, sizeOfList, left]

theorem size_of_value {a b : Arguments} {v : String} (taken : a.value = .ok (v, b)) :
    b.size ≤ a.size := by
  have drop : ({ a with pending := .nothing } : Arguments).size ≤ a.size := by
    simp [size, Pending.size]
  unfold value at taken
  split at taken
  · cases taken; exact drop
  · cases taken; exact drop
  · cases taken; exact drop
  · exact Nat.le_trans (size_of_nextValue taken) drop
  · exact size_of_nextValue taken
  · exact size_of_nextValue taken

instance : Tokenizer Arguments where
  next := next
  value := value
  size := size
  size_of_next := size_of_next
  size_of_value := size_of_value

end Arguments

end PatternGraph.CommandLine
