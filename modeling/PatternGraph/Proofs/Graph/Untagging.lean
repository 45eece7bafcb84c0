import PatternGraph.Proofs.Graph.Shape
import PatternGraph.Proofs.Pattern.Duplicates
import PatternGraph.Proofs.Pattern.Uniqueness
import PatternGraph.Proofs.Pattern.Untagging

/-!
Graphs without tags. Putting a graph together does not look at tags, so the graph of a pattern whose
groups do not capture is that of the pattern whose groups do, without the tags and the names.
-/
namespace PatternGraph

def State.untagged : State → State
  | .tagOpen _ arrows => .tagOpen none arrows
  | .tagClose _ arrows => .tagClose none arrows
  | .relay arrow => .relay arrow
  | .fanout arrows => .fanout arrows
  | .trap id repetition body leave => .trap id repetition body leave
  | .terminal => .terminal

def Graph.untagged (g : Graph) : Graph :=
  { g with states := g.states.map State.untagged, names := .empty }

def DraftState.untagged : DraftState → DraftState
  | .tagOpen _ arrows => .tagOpen none arrows
  | .tagClose _ arrows => .tagClose none arrows
  | .fanout arrows => .fanout arrows
  | .trap id repetition body leave => .trap id repetition body leave
  | .terminal => .terminal

def Draft.untagged (d : Draft) : Draft := { d with states := d.states.map DraftState.untagged }

def Assembly.untagged (a : Assembly) : Assembly := { a with draft := a.draft.untagged }

namespace State

@[simp] theorem targets_untagged (s : State) : s.untagged.targets = s.targets := by cases s <;> rfl

@[simp] theorem isTerminal_untagged (s : State) : s.untagged.isTerminal = s.isTerminal := by
  cases s <;> rfl

@[simp] theorem onlyArrow?_untagged (s : State) : s.untagged.onlyArrow? = s.onlyArrow? := by
  cases s <;> rfl

end State

namespace DraftState

theorem finish?_untagged (s : DraftState) : s.untagged.finish? = s.finish?.map State.untagged := by
  cases s with
  | fanout arrows => rcases arrows with ⟨_ | ⟨a, _ | ⟨b, rest⟩⟩⟩ <;> rfl
  | trap id repetition body leave => cases repetition <;> cases body <;> cases leave <;> rfl
  | tagOpen | tagClose | terminal => rfl

end DraftState

theorem leadingLiteral_untagged (states : Array State) (start : StateId) :
    leadingLiteral (states.map State.untagged) start = leadingLiteral states start := by
  have walk (steps : Nat) (id : StateId) :
      leadingWalk (states.map State.untagged) steps id = leadingWalk states steps id := by
    induction steps generalizing id with
    | zero => rfl
    | succ steps ih =>
      simp only [leadingWalk, Array.getElem?_map, Option.bind_map, Function.comp_def,
        State.onlyArrow?_untagged, ih]
  rw [leadingLiteral, leadingLiteral, Array.size_map, walk]

namespace Draft
variable {d : Draft}

@[simp] theorem size_untagged (d : Draft) : d.untagged.size = d.size := Array.size_map

theorem push_untagged (d : Draft) (s : DraftState) :
    d.untagged.push s.untagged = (d.push s).map (Prod.map id untagged) := by
  have next : d.untagged.nextId = d.nextId := by
    have limit : d.untagged.stateLimit = d.stateLimit := rfl
    simp only [nextId, size_untagged, limit]
  rw [push, push, next]
  cases d.nextId with
  | error e => rfl
  | ok id => simp [Except.map, untagged]

theorem addTrap_untagged (d : Draft) :
    d.untagged.addTrap = d.addTrap.map (Prod.map id untagged) := by
  unfold addTrap
  have count : d.untagged.trapCount = d.trapCount := rfl
  rw [count]
  split
  · rfl
  · rename_i trap _
    have pushed := d.push_untagged (.trap trap none none none)
    rw [DraftState.untagged] at pushed
    rw [pushed]
    cases d.push (.trap trap none none none) <;> rfl

theorem addClass_untagged (d : Draft) (set : CharSet) :
    d.untagged.addClass set = (d.addClass set).map (Prod.map id untagged) := by
  unfold addClass
  have classes : d.untagged.classes = d.classes := rfl
  rw [classes]
  split <;> rfl

theorem update_untagged (d : Draft) (id : StateId) {change : DraftState → Option DraftState}
    (refusal refusal' : DraftState → Misuse)
    (alike : ∀ s, change s.untagged = (change s).map DraftState.untagged) :
    Carries (fun _ => True) untagged (d.update id change refusal)
      (d.untagged.update id change refusal') := by
  unfold update
  by_cases inside : id.val < d.states.size
  · have inside' : id.val < d.untagged.states.size := by rwa [untagged, Array.size_map]
    have state : d.untagged.states[id.val] = d.states[id.val].untagged := Array.getElem_map ..
    rw [dif_pos inside, dif_pos inside', state, alike]
    cases change d.states[id.val] with
    | none => exact .excused trivial
    | some s => exact .of_eq (by simp [Except.map, untagged, Array.map_set])
  · rw [dif_neg inside]
    exact .excused trivial

theorem addArrow_untagged (d : Draft) (source : StateId) (label : Label) (target : StateId) :
    Carries (fun _ => True) untagged (d.addArrow source label target)
      (d.untagged.addArrow source label target) :=
  d.update_untagged source _ _ fun s => by cases s <;> rfl

theorem setTrapBody_untagged (d : Draft) (trap : StateId) (label : Label) (target : StateId) :
    Carries (fun _ => True) untagged (d.setTrapBody trap label target)
      (d.untagged.setTrapBody trap label target) :=
  d.update_untagged trap _ _ fun s => by cases s <;> rfl

theorem setTrapLeave_untagged (d : Draft) (trap target : StateId) :
    Carries (fun _ => True) untagged (d.setTrapLeave trap target)
      (d.untagged.setTrapLeave trap target) :=
  d.update_untagged trap _ _ fun s => by cases s <;> rfl

theorem setTrapRepetition_untagged (d : Draft) (trap : StateId) (r : Repetition) :
    Carries (fun _ => True) untagged (d.setTrapRepetition trap r)
      (d.untagged.setTrapRepetition trap r) :=
  d.update_untagged trap _ _ fun s => by cases s <;> rfl

theorem finishStates_untagged (count i : Nat) (states : List DraftState) :
    finishStates count i (states.map DraftState.untagged) =
      (finishStates count i states).map (List.map State.untagged) := by
  induction states generalizing i with
  | nil => rfl
  | cons s rest ih =>
    rw [List.map_cons, finishStates, finishStates, s.finish?_untagged]
    cases s.finish? with
    | none => rfl
    | some state =>
      simp only [Option.map_some, State.targets_untagged, ih]
      split
      · rfl
      · cases finishStates count (i + 1) rest <;> rfl

theorem lastTerminal?_untagged (states : Array State) :
    lastTerminal? (states.map State.untagged) = lastTerminal? states := by
  rw [lastTerminal?, lastTerminal?, Array.toList_map, List.zipIdx_map, ← List.map_reverse,
    List.find?_map, Option.map_map]
  have same : (fun s : State × Nat => s.1.isTerminal) ∘ Prod.map State.untagged id =
      fun s => s.1.isTerminal := by
    funext s
    exact s.1.isTerminal_untagged
  rw [same]
  rfl

theorem finish_untagged (d : Draft) (start : StateId) (names : GroupNames) :
    d.untagged.finish start .empty = (d.finish start names).map Graph.untagged := by
  have states : d.untagged.states.toList = d.states.toList.map DraftState.untagged :=
    Array.toList_map
  simp only [finish, states, size_untagged, finishStates_untagged]
  cases finishStates d.size 0 d.states.toList with
  | error e => rfl
  | ok states =>
    have array : (states.map State.untagged).toArray = states.toArray.map State.untagged := by simp
    simp only [Except.map, bind, Except.bind, array, Array.size_map, lastTerminal?_untagged,
      leadingLiteral_untagged]
    split
    · rfl
    · cases lastTerminal? states.toArray <;> rfl

end Draft



def Failure.IsDefect : Failure → Prop
  | .refused _ => False
  | .defect _ => True

namespace Assembly

/-- The two assemblies are the same up to tags, or the compiler has contradicted itself. -/
abbrev Alike (x y : Except Failure Assembly) : Prop := Carries Failure.IsDefect untagged x y

section Steps
variable {A B : Type} {f : A → B}

theorem carries_refuse {x : Except PatternError A} {y : Except PatternError B} (same : y = x.map f) :
    Carries Failure.IsDefect f (refuse x) (refuse y) := by
  rw [same]
  cases x <;> exact .of_eq rfl

theorem carries_trust {x : Except Misuse A} {y : Except Misuse B}
    (carries : Carries (fun _ => True) f x y) : Carries Failure.IsDefect f (trust x) (trust y) :=
  carries.mapError fun _ _ => trivial

end Steps

theorem label_untagged (d : Draft) (atom : Atom) :
    label d.untagged atom = (label d atom).map (Prod.map id Draft.untagged) := by
  cases atom with
  | literal c cs => cases cs <;> rfl
  | charClass set =>
    simp only [label, d.addClass_untagged]
    cases d.addClass set <;> rfl
  | any | backref => rfl

variable {a : Assembly}

theorem addAtom_untagged (a : Assembly) (atom : Atom) :
    Alike (a.addAtom atom) (a.untagged.addAtom atom) := by
  refine Carries.bind (.of_eq (label_untagged a.draft atom)) ?_
  rintro ⟨label, d₁⟩ -
  refine Carries.bind (carries_refuse (d₁.push_untagged (.fanout #[]))) ?_
  rintro ⟨next, d₂⟩ -
  refine Carries.bind (carries_trust (d₂.addArrow_untagged a.frame.tail label next)) ?_
  exact fun d₃ _ => .of_eq rfl

theorem addLoop_untagged (a : Assembly) (atom : Atom) (r : Repetition) :
    Alike (a.addLoop atom r) (a.untagged.addLoop atom r) := by
  refine Carries.bind (.of_eq (label_untagged a.draft atom)) ?_
  rintro ⟨label, d₁⟩ -
  refine Carries.bind (carries_refuse d₁.addTrap_untagged) ?_
  rintro ⟨trap, d₂⟩ -
  refine Carries.bind (carries_refuse (d₂.push_untagged (.fanout #[]))) ?_
  rintro ⟨after, d₃⟩ -
  refine Carries.bind (carries_trust (d₃.addArrow_untagged a.frame.tail .empty trap)) fun d₄ _ => ?_
  refine Carries.bind (carries_trust (d₄.setTrapBody_untagged trap label trap)) fun d₅ _ => ?_
  refine Carries.bind (carries_trust (d₅.setTrapLeave_untagged trap after)) fun d₆ _ => ?_
  refine Carries.bind (carries_trust (d₆.setTrapRepetition_untagged trap r)) fun d₇ _ => ?_
  exact .of_eq rfl

theorem openGroup_untagged (a : Assembly) (tag : Option TagId) (looped : Bool) :
    Alike (a.openGroup tag looped) (a.untagged.openGroup none looped) := by
  refine Carries.bind (carries_refuse (a.draft.push_untagged (.tagOpen tag #[]))) ?_
  rintro ⟨first, d₁⟩ -
  refine Carries.bind (carries_refuse (d₁.push_untagged (.tagClose tag #[]))) ?_
  rintro ⟨last, d₂⟩ -
  cases looped with
  | true =>
    refine Carries.bind (carries_refuse d₂.addTrap_untagged) ?_
    rintro ⟨trap, d₃⟩ -
    refine Carries.bind (carries_trust (d₃.addArrow_untagged a.frame.tail .empty trap)) fun d₄ _ => ?_
    refine Carries.bind (carries_trust (d₄.setTrapBody_untagged trap .empty first)) fun d₅ _ => ?_
    exact .of_eq rfl
  | false =>
    refine Carries.bind (carries_trust (d₂.addArrow_untagged a.frame.tail .empty first)) fun d₃ _ => ?_
    exact .of_eq rfl

theorem closeGroup_untagged (a : Assembly) (r : Option Repetition) :
    Alike (a.closeGroup r) (a.untagged.closeGroup r) := by
  obtain ⟨draft, ⟨first, last, tail, trap⟩, outer⟩ := a
  cases outer with
  | nil => exact .of_eq rfl
  | cons around outer =>
    refine Carries.bind (carries_trust (draft.addArrow_untagged tail .empty last)) fun d₁ _ => ?_
    cases trap with
    | none => cases r <;> exact .of_eq rfl
    | some trap =>
      cases r with
      | none => exact .of_eq rfl
      | some r =>
        refine Carries.bind (carries_refuse (d₁.push_untagged (.fanout #[]))) ?_
        rintro ⟨after, d₂⟩ -
        refine Carries.bind (carries_trust (d₂.addArrow_untagged last .empty trap)) fun d₃ _ => ?_
        refine Carries.bind (carries_trust (d₃.setTrapLeave_untagged trap after)) fun d₄ _ => ?_
        refine Carries.bind (carries_trust (d₄.setTrapRepetition_untagged trap r)) fun d₅ _ => ?_
        exact .of_eq rfl

theorem add_untagged (a : Assembly) (p : Piece) : Alike (a.add p) (a.untagged.add p.untagged) := by
  cases p with
  | atom atom r =>
    cases r with
    | none => exact a.addAtom_untagged atom
    | some r => exact a.addLoop_untagged atom r
  | openGroup tag looped => exact a.openGroup_untagged tag looped
  | closeGroup r => exact a.closeGroup_untagged r
  | alternative =>
    refine Carries.bind (carries_trust (a.draft.addArrow_untagged a.frame.tail .empty a.frame.last)) ?_
    exact fun d₁ _ => .of_eq rfl

theorem foldlM_untagged (ps : List Piece) (a : Assembly) :
    Alike (ps.foldlM add a) ((ps.map Piece.untagged).foldlM add a.untagged) := by
  induction ps generalizing a with
  | nil => exact .of_eq rfl
  | cons p ps ih =>
    rw [List.map_cons, List.foldlM_cons, List.foldlM_cons]
    exact (a.add_untagged p).bind fun a' _ => ih a'

theorem start_untagged (stateLimit : Option Nat) : Alike (start stateLimit) (start stateLimit) := by
  have empty : (Draft.empty.withStateLimit stateLimit).untagged =
      Draft.empty.withStateLimit stateLimit := by
    simp [Draft.untagged, Draft.withStateLimit, Draft.empty]
  have pushed := (Draft.empty.withStateLimit stateLimit).push_untagged (.fanout #[])
  rw [empty] at pushed
  refine Carries.bind (carries_refuse pushed) ?_
  rintro ⟨first, d₁⟩ -
  refine Carries.bind (carries_refuse (d₁.push_untagged (.fanout #[]))) ?_
  rintro ⟨last, d₂⟩ -
  exact .of_eq rfl

theorem finish_untagged (a : Assembly) (names : GroupNames) :
    Carries Failure.IsDefect Graph.untagged (a.finish names) (a.untagged.finish .empty) := by
  obtain ⟨draft, frame, outer⟩ := a
  cases outer with
  | cons => exact .of_eq rfl
  | nil =>
    refine Carries.bind (carries_refuse (draft.push_untagged .terminal)) ?_
    rintro ⟨terminal, d₁⟩ -
    refine Carries.bind (carries_trust (d₁.addArrow_untagged frame.tail .empty frame.last)) fun d₂ _ => ?_
    refine Carries.bind (carries_trust (d₂.addArrow_untagged frame.last .empty terminal)) fun d₃ _ => ?_
    exact carries_trust (.of_eq (d₃.finish_untagged frame.first names))

end Assembly

namespace Outline
variable {o o' : Outline} {stateLimit : Option Nat} {failure : Failure}

def lay (o : Outline) (stateLimit : Option Nat) : Except Failure Assembly :=
  Assembly.start stateLimit >>= o.pieces.foldlM Assembly.add

theorem assemble_eq (o : Outline) (stateLimit : Option Nat) :
    o.assemble stateLimit = o.lay stateLimit >>= fun a => o.ending >>= a.finish :=
  (bind_assoc ..).symm

theorem lay_untagged (o : Outline) (stateLimit : Option Nat) :
    Assembly.Alike (o.lay stateLimit) (o.untagged.lay stateLimit) :=
  (Assembly.start_untagged stateLimit).bind fun a _ => Assembly.foldlM_untagged o.pieces a

theorem assemble_untagged (o : Outline) (stateLimit : Option Nat) :
    Carries Failure.IsDefect Graph.untagged (o.assemble stateLimit)
      (o.untagged.assemble stateLimit) := by
  rw [assemble_eq, assemble_eq]
  refine (o.lay_untagged stateLimit).bind fun a _ => ?_
  rw [untagged]
  cases o.ending with
  | error e => exact .of_eq rfl
  | ok names => exact a.finish_untagged names

theorem lay_of_prefix (pieces : o.pieces <+: o'.pieces) (failed : o.lay stateLimit = .error failure) :
    o'.lay stateLimit = .error failure := by
  obtain ⟨more, pieces⟩ := pieces
  rw [lay] at failed ⊢
  rw [← pieces]
  simp only [List.foldlM_append]
  rw [← bind_assoc, failed]
  rfl

/-- A tag for each name would take more states than there can be. -/
theorem tags_lt_limit {scope : Scope} {r last : Reading} {a : Assembly}
    (inStep : Reading.InStep scope r) (run : Reading.Run scope r (ofReading scope r).pieces last)
    (names : r.names = .empty) (laid : (ofReading scope r).lay stateLimit = .ok a) :
    last.names.size < Index.limit := by
  obtain ⟨a₀, begun, added⟩ := Except.bind_eq_ok.1 laid
  obtain ⟨shaped, _⟩ := Assembly.shaped_of_start begun
  have first : r.names.size = 0 := by
    rw [names]
    rfl
  have coherent : r.names.Coherent := by
    rw [names]
    exact GroupNames.coherent_empty
  rw [← first] at shaped
  obtain ⟨shaped', _⟩ := Assembly.Shaped.run run inStep coherent shaped added
  have tags := shaped'.tagged.two_mul_le
  have room := shaped'.room
  have some : 0 < Index.limit := Nat.succ_pos _
  omega

/-- Until a name is taken, whether groups capture makes no difference but for the tags. -/
theorem assemble_uncaptured {scope : Scope} {r : Reading} (inStep : Reading.InStep scope r)
    (names : r.names = .empty) (opened : r.opened = []) (plain : Plain scope r)
    (sound : ∀ d, (ofReading scope r).assemble stateLimit ≠ .error (.defect d)) :
    (ofReading scope.uncaptured r).assemble stateLimit =
        ((ofReading scope r).assemble stateLimit).map Graph.untagged ∨
      ∃ name k, (ofReading scope r).assemble stateLimit =
        .error (.refused (.here (.duplicateGroup name) k)) := by
  have sound {e : Failure} (failed : (ofReading scope r).assemble stateLimit = .error e) :
      ¬ e.IsDefect := by
    cases e with
    | refused => exact id
    | defect d => exact fun _ => sound d failed
  have untagged : r.untagged = r := by
    cases r
    cases names
    cases opened
    rfl
  have read := ofReading_uncaptured plain
  rw [untagged] at read
  obtain same | ⟨last, failure, run, ending, excuse, pieces⟩ := read
  · left
    rw [same]
    exact ((ofReading scope r).assemble_untagged stateLimit).resolve_right
      fun ⟨e, failed, excuse⟩ => sound failed excuse
  cases laid : (ofReading scope r).lay stateLimit with
  | error e =>
    left
    have failed : (ofReading scope r).assemble stateLimit = .error e := by
      rw [assemble_eq, laid]
      rfl
    obtain same | ⟨e', failed', excuse⟩ := (ofReading scope r).lay_untagged stateLimit
    · rw [laid] at same
      rw [failed, assemble_eq, lay_of_prefix pieces same]
      rfl
    · rw [laid] at failed'
      cases failed'
      exact absurd excuse (sound failed)
  | ok a =>
    right
    have refused : (ofReading scope r).assemble stateLimit = .error failure := by
      rw [assemble_eq, laid, ending]
      rfl
    rw [refused]
    cases failure with
    | defect d => exact excuse.elim
    | refused e =>
      obtain ⟨name, k, rfl⟩ | full := excuse
      · exact ⟨name, k, rfl⟩
      · have few := tags_lt_limit inStep run names laid
        omega

end Outline

section Compiling
variable {options : Options} {pattern : String}

def ReadsPlain (options : Options) (pattern : String) : Prop :=
  ∀ pairing, Pairing.ofSymbols pattern.toList.length (Symbol.ofText pattern.toList) = .ok pairing →
    Outline.Plain ⟨options, pairing, pattern.toList.length⟩ (.start (Symbol.ofText pattern.toList))

theorem compile_uncaptured (plain : ReadsPlain options pattern) :
    compile (options.withCaptures false) pattern = (compile options pattern).map Graph.untagged ∨
      ∃ name k, compile options pattern = .error (.refused (.here (.duplicateGroup name) k)) := by
  cases paired : Pairing.ofSymbols pattern.toList.length (Symbol.ofText pattern.toList) with
  | error e =>
    left
    simp only [compile, Outline.ofText, paired]
    rfl
  | ok pairing =>
    have total := (compile_ne_defect options pattern).1
    rw [compile_of_paired paired] at total
    rw [compile_of_paired paired, compile_of_paired paired]
    exact Outline.assemble_uncaptured (Reading.inStep_start paired) rfl rfl (plain pairing paired) total

theorem readsPlain_of_text (bare : ¬ ['\\', 'k'] <:+: pattern.toList) :
    ReadsPlain options pattern := by
  refine fun pairing _ => Outline.plain_of_symbols fun s mem => ?_
  by_contra escape
  rw [Bool.not_eq_false] at escape
  exact bare (Symbol.infix_of_isBackref mem escape)

theorem readsPlain_of_denotes {g : Graph} {t : Tree} {names : GroupNames}
    (compiled : compile options pattern = .ok g) (denotes : Denotes options pattern t names)
    (bare : ¬ t.HasBackref) : ReadsPlain options pattern := by
  intro pairing paired
  simp only [compile, Outline.assemble, Except.bind_eq_ok, Assembly.refuse_eq_ok] at compiled
  obtain ⟨o, outlined, a, begun, a', added, names', ended, finished⟩ := compiled
  have balanced := Assembly.balanced_of_finish (Assembly.begins_of_start begun) added finished
  obtain ⟨t', laid, denotes'⟩ := denotes_of_outline outlined ended balanced
  obtain ⟨rfl, _⟩ := denotes.unique denotes'
  rw [Outline.ofText, paired] at outlined
  cases outlined
  exact Outline.plain_of_pieces ended (bare_of_laid laid bare)

end Compiling

/-- Without a backreference in sight, a pattern comes to the same whether or not its groups capture:
to the same graph but for the tags, or to the same mistake. Only a name that is declared twice is no
mistake where groups do not capture. -/
theorem compile_uncaptured_or_duplicate (options : Options) {pattern : String}
    (bare : ¬ ['\\', 'k'] <:+: pattern.toList) :
    (compile (options.withCaptures false) pattern =
        (compile (options.withCaptures true) pattern).map Graph.untagged ∨
      ∃ name k, compile (options.withCaptures true) pattern =
        .error (.refused (.here (.duplicateGroup name) k))) ∧
    ∀ name k, compile (options.withCaptures false) pattern ≠
      .error (.refused (.here (.duplicateGroup name) k)) := by
  have plain : ReadsPlain (options.withCaptures true) pattern := readsPlain_of_text bare
  exact ⟨compile_uncaptured plain, compile_ne_duplicate rfl pattern⟩

theorem compile_uncaptured_or_duplicate_twoGroups :
    ¬ ['\\', 'k'] <:+: "(?<x>a)(?<x>b)".toList ∧
    ((compile (Options.unset.withCaptures false) "(?<x>a)(?<x>b)" =
        (compile (Options.unset.withCaptures true) "(?<x>a)(?<x>b)").map Graph.untagged ∨
      ∃ name k, compile (Options.unset.withCaptures true) "(?<x>a)(?<x>b)" =
        .error (.refused (.here (.duplicateGroup name) k))) ∧
    ∀ name k, compile (Options.unset.withCaptures false) "(?<x>a)(?<x>b)" ≠
      .error (.refused (.here (.duplicateGroup name) k))) := by
  have bare : ¬ ['\\', 'k'] <:+: "(?<x>a)(?<x>b)".toList := by decide +kernel
  exact ⟨bare, compile_uncaptured_or_duplicate .unset bare⟩

/-- A name that is declared twice is refused, at the second paren, only where groups capture. -/
theorem compile_duplicate_uncaptured :
    compile (Options.unset.withCaptures true) "(?<x>a)(?<x>b)" =
        .error (.refused (.here (.duplicateGroup "x") 7)) ∧
      ∃ g, compile (Options.unset.withCaptures false) "(?<x>a)(?<x>b)" = .ok g := by
  have accepted : (compile (Options.unset.withCaptures false) "(?<x>a)(?<x>b)").toOption.isSome =
      true := by decide +kernel
  refine ⟨?_, Except.exists_eq_ok accepted⟩
  have refused : (match compile (Options.unset.withCaptures true) "(?<x>a)(?<x>b)" with
      | .error (.refused e) => some e
      | _ => none) = some (.here (.duplicateGroup "x") 7) := by decide +kernel
  split at refused
  · rename_i failed
    rw [failed, Option.some.inj refused]
  · cases refused

end PatternGraph
