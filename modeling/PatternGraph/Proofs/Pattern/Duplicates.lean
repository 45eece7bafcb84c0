import PatternGraph.Proofs.Graph.Totality

/-!
Where groups do not capture, their names are not kept, and none is ever found to be taken.
-/
namespace PatternGraph
open Symbol

variable {name : String} {k : Nat}

namespace Piece
variable {length : Nat} {symbols : List Symbol}

theorem readCount_ne_duplicate :
    readCount length symbols ≠ .error (.here (.duplicateGroup name) k) := by
  cases symbols <;> grind [readCount, PatternError.here]

theorem readBrace_ne_duplicate {r : Repetition} :
    readBrace length r symbols ≠ .error (.here (.duplicateGroup name) k) := by
  cases symbols <;> grind [readBrace, PatternError.here]

theorem readUpper_ne_duplicate {low : UInt32} :
    readUpper length low symbols ≠ .error (.here (.duplicateGroup name) k) := by
  grind [readUpper, readCount_ne_duplicate, readBrace_ne_duplicate, PatternError.here]

theorem readBounds_ne_duplicate :
    readBounds length symbols ≠ .error (.here (.duplicateGroup name) k) := by
  grind [readBounds, readCount_ne_duplicate, readBrace_ne_duplicate, readUpper_ne_duplicate,
    PatternError.here]

theorem readQuantifier_ne_duplicate :
    readQuantifier length symbols ≠ .error (.here (.duplicateGroup name) k) := by
  cases symbols <;> grind [readQuantifier, readBounds_ne_duplicate, PatternError.here]

theorem readName_ne_duplicate :
    readName length symbols ≠ .error (.here (.duplicateGroup name) k) := by
  cases symbols <;> grind [readName, PatternError.here]

theorem readItems_ne_duplicate {start skip : Nat} {set : CharSet} {found : Bool} :
    readItems start set found skip symbols ≠ .error (.here (.duplicateGroup name) k) := by
  induction symbols generalizing set found skip with
  | nil => grind [readItems, PatternError.here]
  | cons s rest ih => cases skip <;> grind [readItems, PatternError.here]

theorem readClass_ne_duplicate {start : Nat} :
    readClass start symbols ≠ .error (.here (.duplicateGroup name) k) := by
  cases symbols <;> grind [readClass, readItems_ne_duplicate]

theorem readRun_ne_duplicate {first : Bool} :
    readRun first symbols ≠ .error (.here (.duplicateGroup name) k) := by
  induction symbols generalizing first with
  | nil => grind [readRun]
  | cons s rest ih => grind [readRun, PatternError.here]

end Piece

theorem Pairing.scan_ne_duplicate {p : Pairing} {opened : List Nat} {symbols : List Symbol} :
    p.scan opened symbols ≠ .error (.here (.duplicateGroup name) k) := by
  fun_induction Pairing.scan p opened symbols <;> grind [PatternError.here]

namespace Reading
variable {scope : Scope} {r r' : Reading} {s : Symbol} {p : Piece} {offset : Nat}

structure Nameless (scope : Scope) (r : Reading) : Prop where
  captures : scope.options.captures = false
  names : r.names = .empty

theorem Nameless.register_eq (h : Nameless scope r) (offset : Nat) (name : String) :
    register scope offset name r = .ok (none, r) := by
  simp [register, h.captures, h.names, GroupNames.find?, GroupNames.empty]

theorem Nameless.readHeader_ne_duplicate (h : Nameless scope r) :
    readHeader scope offset r ≠ .error (.here (.duplicateGroup name) k) := by
  have registered (r' : Reading) (same : r'.names = r.names) (name : String) :
      register scope offset name r' = .ok (none, r') :=
    Nameless.register_eq ⟨h.captures, same.trans h.names⟩ offset name
  grind [readHeader, Piece.readName_ne_duplicate, PatternError.here]

theorem readBackref_ne_duplicate :
    readBackref scope offset r ≠ .error (.here (.duplicateGroup name) k) := by
  grind [readBackref, Piece.readName_ne_duplicate, PatternError.here]

theorem readAtom_ne_duplicate :
    readAtom scope s r ≠ .error (.refused (.here (.duplicateGroup name) k)) := by
  grind [readAtom, readBackref_ne_duplicate, Piece.readClass_ne_duplicate,
    Piece.readRun_ne_duplicate]

theorem Nameless.pieceAt_ne_duplicate (h : Nameless scope r) :
    pieceAt scope s r ≠ .error (.refused (.here (.duplicateGroup name) k)) := by
  have header : readHeader scope s.offset r ≠ .error (.here (.duplicateGroup name) k) :=
    h.readHeader_ne_duplicate
  grind [pieceAt, openGroup, closeGroup, atomPiece, readAtom_ne_duplicate,
    Piece.readQuantifier_ne_duplicate, Piece.readRepetition, PatternError.here]

theorem Nameless.pieceAt (h : Nameless scope r) (read : pieceAt scope s r = .ok (p, r')) :
    Nameless scope r' := by
  refine ⟨h.captures, ?_⟩
  obtain ⟨_, opens⟩ | ⟨_, closes⟩ | ⟨_, _, rfl⟩ | atom := pieceAt_cases read
  · obtain ⟨_, _, _, header⟩ := header_of_openGroup opens
    rw [h.captures] at header
    exact header.uncaptured.2.trans h.names
  · obtain ⟨group, _, declared, _⟩ := end_of_closeGroup closes
    have names : r'.names = (r.declared.close group.tag).names := congrArg (·.names) declared
    have none : r.declared = ⟨.empty, r.unnamed⟩ := by rw [Reading.declared, h.names]
    rw [names, none]
    cases group.tag <;> simp [Declared.close, GroupNames.close, GroupNames.empty]
  · exact h.names
  · obtain ⟨declared, _⟩ := before_of_atomPiece atom true
    exact (congrArg (·.names) declared).trans h.names

theorem Nameless.ending_ne_duplicate (h : Nameless scope r) :
    (Outline.ofReading scope r).ending ≠ .error (.refused (.here (.duplicateGroup name) k)) := by
  fun_induction Outline.ofReading scope r with
  | case1 => simp
  | case2 r s rest front e failed =>
    rintro ⟨⟩
    have here : Nameless scope { r with rest := rest } := ⟨h.captures, h.names⟩
    exact here.pieceAt_ne_duplicate failed
  | case3 r s rest front p r' read _ _ ih =>
    have here : Nameless scope { r with rest := rest } := ⟨h.captures, h.names⟩
    exact ih (here.pieceAt read)

end Reading

theorem compile_ne_duplicate {options : Options} (captures : options.captures = false)
    (pattern : String) (name : String) (k : Nat) :
    compile options pattern ≠ .error (.refused (.here (.duplicateGroup name) k)) := by
  let E (e : PatternError) : Prop := e ≠ .here (.duplicateGroup name) k
  have guards : Guards E (fun _ => True) (compile options pattern) := by
    unfold compile
    refine Guards.bind (P := fun o => Outline.ofText options pattern.toList = .ok o)
      (Guards.of_refuse (fun _ ok => ok) ?_) ?_
    · rintro e refused rfl
      simp only [Outline.ofText] at refused
      split at refused
      · rename_i failed
        cases refused
        exact Pairing.scan_ne_duplicate failed
      · cases refused
    · intro o outlined
      have limits (cause : Cause) : E (.anywhere cause) := by
        simp [E, PatternError.anywhere, PatternError.here]
      refine guards_assemble outlined ?_ (.inl limits)
      obtain ⟨pairing, rfl, inStep⟩ := inStep_of_ofText outlined
      have nameless : Reading.Nameless ⟨options, pairing, pattern.toList.length⟩
        (.start (ofText pattern.toList)) := ⟨captures, rfl⟩
      have total := Reading.guards_ending (E := fun _ => True)
        ⟨fun _ _ _ _ => trivial, .inl fun _ => trivial⟩ inStep
      refine total.restrict ?_
      rintro e refused rfl
      exact nameless.ending_ne_duplicate refused
  exact fun refused => guards.error refused rfl

end PatternGraph
