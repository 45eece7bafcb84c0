import PatternGraph.Cursor.Span
import PatternGraph.Text.Quoted

/-!
What the groups of a match are expected to cover or have covered, by their names. The names ascend,
so two such tables are equal when they tell the same of every name.
-/
namespace PatternGraph.Suite

def renderSpan (s : Span Nat) : String := "(" ++ toString s.start ++ ", " ++ toString s.stop ++ ")"

def renderOption {A : Type} (render : A → String) : Option A → String
  | none => "None"
  | some a => "Some(" ++ render a ++ ")"

def renderSpans (spans : List (Span Nat)) : String :=
  "[" ++ ", ".intercalate (spans.map renderSpan) ++ "]"

/-- A group that took no part in the match has no span. -/
structure GroupSpans where
  entries : List (String × Option (Span Nat))
  ascending : entries.Pairwise fun a b => a.1 < b.1
  deriving DecidableEq

namespace GroupSpans

def insertInto (name : String) (span : Option (Span Nat)) :
    List (String × Option (Span Nat)) → List (String × Option (Span Nat))
  | [] => [(name, span)]
  | e :: rest =>
    if e.1 < name then e :: insertInto name span rest
    else if name < e.1 then (name, span) :: e :: rest
    else (name, span) :: rest

theorem mem_insertInto {name : String} {span : Option (Span Nat)}
    {entries : List (String × Option (Span Nat))} {e : String × Option (Span Nat)}
    (h : e ∈ insertInto name span entries) : e = (name, span) ∨ e ∈ entries := by
  induction entries with
  | nil => simpa [insertInto] using h
  | cons f rest ih =>
    simp only [insertInto] at h
    split at h
    · rcases List.mem_cons.1 h with rfl | h
      · simp
      · rcases ih h with h | h <;> simp [h]
    · split at h
      · rcases List.mem_cons.1 h with h | h <;> simp_all
      · rcases List.mem_cons.1 h with h | h <;> simp [h]

theorem insertInto_ascending {name : String} {span : Option (Span Nat)}
    {entries : List (String × Option (Span Nat))} (h : entries.Pairwise fun a b => a.1 < b.1) :
    (insertInto name span entries).Pairwise fun a b => a.1 < b.1 := by
  induction entries with
  | nil => simp [insertInto]
  | cons f rest ih =>
    rw [List.pairwise_cons] at h
    simp only [insertInto]
    split
    · next before =>
      refine List.pairwise_cons.2 ⟨fun e he => ?_, ih h.2⟩
      rcases mem_insertInto he with rfl | he
      · exact before
      · exact h.1 e he
    · split
      · next after =>
        refine List.pairwise_cons.2 ⟨fun e he => ?_, List.pairwise_cons.2 h⟩
        rcases List.mem_cons.1 he with rfl | he
        · exact after
        · exact String.lt_trans after (h.1 e he)
      · next notBefore notAfter =>
        have same : f.1 = name :=
          String.le_antisymm (String.not_lt.1 notAfter) (String.not_lt.1 notBefore)
        exact List.pairwise_cons.2 ⟨fun e he => same ▸ h.1 e he, h.2⟩

def empty : GroupSpans := ⟨[], .nil⟩

def insert (g : GroupSpans) (name : String) (span : Option (Span Nat)) : GroupSpans :=
  ⟨insertInto name span g.entries, insertInto_ascending g.ascending⟩

def ofList (entries : List (String × Option (Span Nat))) : GroupSpans :=
  entries.foldl (fun g e => g.insert e.1 e.2) empty

def render (g : GroupSpans) : String :=
  "\x7b" ++ ", ".intercalate (g.entries.map fun (name, span) =>
    Text.quoteString name ++ ": " ++ renderOption renderSpan span) ++ "\x7d"

end GroupSpans

end PatternGraph.Suite
