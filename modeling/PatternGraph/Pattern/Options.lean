/-!
Settings of a compilation. What is left unset keeps its default, and later settings replace earlier
ones where they say something.
-/
namespace PatternGraph

structure Options where
  captures? : Option Bool
  nestLimit? : Option Nat
  /-- Set to `none` it lifts an earlier limit. -/
  stateLimit? : Option (Option Nat)
  deriving DecidableEq, Repr

namespace Options

def unset : Options := ⟨none, none, none⟩

def withCaptures (o : Options) (yes : Bool) : Options := { o with captures? := some yes }

def withNestLimit (o : Options) (limit : Nat) : Options := { o with nestLimit? := some limit }

def withStateLimit (o : Options) (limit : Option Nat) : Options :=
  { o with stateLimit? := some limit }

def captures (o : Options) : Bool := o.captures?.getD true

def nestLimit (o : Options) : Nat := o.nestLimit?.getD 250

def stateLimit (o : Options) : Option Nat := o.stateLimit?.getD none

def overwrite (o later : Options) : Options where
  captures? := later.captures?.or o.captures?
  nestLimit? := later.nestLimit?.or o.nestLimit?
  stateLimit? := later.stateLimit?.or o.stateLimit?

end Options

end PatternGraph
