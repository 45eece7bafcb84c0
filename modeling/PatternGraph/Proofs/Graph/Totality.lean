import PatternGraph.Proofs.Graph.Assembling
import PatternGraph.Proofs.Pattern.Balance

/-!
Every compilation ends with a graph or with a refusal. A pattern has room for its graph if its length
allows for two states a symbol and three more.
-/
namespace PatternGraph
open Symbol

namespace Reading
variable {scope : Scope} {r r' : Reading} {s : Symbol} {rest : List Symbol} {p : Piece}
  {E : PatternError → Prop}

def loops (r : Reading) : List Bool := r.opened.map (·.pair.looped)

/-- States for what is still to be read: two for a symbol and one for the end, where an open group has
got ahead by the one that may be added when it is closed. -/
def budget (r : Reading) : Nat := 2 * r.rest.length + 1 - r.opened.length

theorem Closes.looped {looped : Bool} {gs after : List Glyph} (h : Closes looped p gs after) :
    ∃ repetition, p = .closeGroup repetition ∧ looped = repetition.isSome := by
  cases h with
  | once => exact ⟨_, rfl, rfl⟩
  | repeated => exact ⟨_, rfl, rfl⟩

theorem loopsAfter_of_pieceAt (read : pieceAt scope s r = .ok (p, r')) :
    Assembly.LoopsAfter p r.loops r'.loops := by
  rcases pieceAt_cases read with ⟨_, opens⟩ | ⟨_, closes⟩ | ⟨_, rfl, rfl⟩ | atom
  · obtain ⟨group, rfl, opened, _⟩ := header_of_openGroup opens
    simp [Assembly.LoopsAfter, loops, opened]
  · obtain ⟨group, opened, _, closes⟩ := end_of_closeGroup closes
    obtain ⟨repetition, rfl, looped⟩ := closes.looped
    simp [Assembly.LoopsAfter, loops, opened, looped]
  · rfl
  · obtain ⟨_, _, rfl⟩ := atom_of_atomPiece atom
    obtain ⟨_, opened, _⟩ := before_of_atomPiece atom true
    simp [Assembly.LoopsAfter, loops, opened]

theorem InStep.length_opened_le (inStep : InStep scope r) : r.opened.length ≤ r.rest.length := by
  obtain ⟨before, opened, inStep⟩ := inStep
  rw [← inStep.groups.length_eq]
  exact (Pairing.scans_of_scan inStep.scanned).length_opened_le

/-- A piece costs no more than what its symbols bring. -/
theorem budget_of_pieceAt (front : r.rest = s :: rest)
    (read : pieceAt scope s { r with rest := rest } = .ok (p, r')) (inStep : InStep scope r)
    (inStep' : InStep scope r') : r'.budget + Assembly.cost p ≤ r.budget := by
  have shorter := length_of_pieceAt read
  have closes := inStep.length_opened_le
  have closes' := inStep'.length_opened_le
  have loops := loopsAfter_of_pieceAt read
  have length : r.rest.length = rest.length + 1 := by rw [front, List.length_cons]
  have opened : r.loops.length = r.opened.length := List.length_map _
  have opened' : r'.loops.length = r'.opened.length := List.length_map _
  simp only [budget] at shorter ⊢
  cases p with
  | atom atom repetition =>
    have same : r'.loops = r.loops := loops
    have : Assembly.cost (.atom atom repetition) ≤ 2 := by cases repetition <;> simp [Assembly.cost]
    rw [same] at opened'
    omega
  | openGroup tag looped =>
    have more : r'.loops = looped :: r.loops := loops
    rw [more, List.length_cons] at opened'
    simp only [Assembly.cost]
    omega
  | closeGroup repetition =>
    have fewer : r.loops = repetition.isSome :: r'.loops := loops
    rw [fewer, List.length_cons] at opened
    simp only [Assembly.cost]
    omega
  | alternative =>
    have same : r'.loops = r.loops := loops
    rw [same] at opened'
    simp only [Assembly.cost]
    omega

theorem guards_pieces (inStep : InStep scope r)
    (ending : Guards E (fun _ => True) (Outline.ofReading scope r).ending) {a : Assembly}
    (sound : a.Sound r.loops) (room : Draft.Room E a.draft r.budget r.rest.length) :
    Guards E (fun _ => True) (do
      let a ← (Outline.ofReading scope r).pieces.foldlM Assembly.add a
      let names ← (Outline.ofReading scope r).ending
      a.finish names) := by
  fun_induction Outline.ofReading scope r generalizing a with
  | case1 r front =>
    have closed : r.opened = [] := by
      have := inStep.length_opened_le
      rw [front] at this
      exact List.eq_nil_of_length_eq_zero (Nat.le_zero.1 this)
    simp only [loops, budget, closed, front] at sound room
    exact Assembly.guards_finish sound room r.names
  | case2 r s rest front e failed => exact ending.fails
  | case3 r s rest front p r' read _ _ ih =>
    have inStep' : InStep scope r' := inStep.run (.step front read (.stay r'))
    have shorter := length_of_pieceAt read
    have cost := budget_of_pieceAt front read inStep inStep'
    have length : r.rest.length = rest.length + 1 := by rw [front, List.length_cons]
    have loops : Assembly.LoopsAfter p r.loops r'.loops :=
      loopsAfter_of_pieceAt (r := { r with rest := rest }) read
    have added := Assembly.guards_add sound loops
      (room.mono cost (show r'.rest.length + 1 ≤ r.rest.length by simp only at shorter; omega))
    rw [List.foldlM_cons, bind_assoc]
    refine added.bind ?_
    rintro a' ⟨sound', room'⟩
    exact ih inStep' ending sound' room'

end Reading

/-- What the scan for parens refuses is a paren or a class that is not closed, or a paren that closes
nothing. -/
theorem error_of_scan {length : Nat} {p : Pairing} {opened : List Nat} {symbols : List Symbol}
    {e : PatternError} (failed : p.scan opened symbols = .error e)
    (tidy : Tidy length opened symbols) : ∃ k, e.offset = some k ∧ k ≤ length := by
  fun_induction Pairing.scan p opened symbols with
  | case1 => cases failed
  | case2 p x outer =>
    cases failed
    exact ⟨x, rfl, Nat.le_of_lt tidy.fresh.1⟩
  | case3 | case6 =>
    cases failed
    exact ⟨_, rfl, Nat.le_of_lt (tidy.inside List.mem_cons_self)⟩
  | case4 _ _ _ _ _ _ _ ends _ ih =>
    exact ih failed ((tidy.suffix (List.suffix_cons ..)).suffix (Pairing.suffix_of_classEnd? ends))
  | case5 _ _ _ _ _ ih => exact ih failed tidy.opens
  | case7 _ _ _ _ _ _ ih => exact ih failed (tidy.suffix (List.suffix_cons ..)).closes
  | case8 _ _ _ _ _ _ _ ih => exact ih failed (tidy.suffix (List.suffix_cons ..))

section Compiling
variable {options : Options} {pattern : String} {E : PatternError → Prop}

theorem inStep_of_ofText {o : Outline} (outlined : Outline.ofText options pattern.toList = .ok o) :
    ∃ pairing, o = Outline.ofReading ⟨options, pairing, pattern.toList.length⟩
        (.start (ofText pattern.toList)) ∧
      Reading.InStep ⟨options, pairing, pattern.toList.length⟩ (.start (ofText pattern.toList)) := by
  simp only [Outline.ofText] at outlined
  split at outlined
  · cases outlined
  · rename_i pairing paired
    cases outlined
    exact ⟨pairing, rfl, Reading.inStep_start paired⟩

theorem compile_of_paired {pairing : Pairing}
    (paired : Pairing.ofSymbols pattern.toList.length (ofText pattern.toList) = .ok pairing)
    (options : Options) :
    compile options pattern =
      (Outline.ofReading ⟨options, pairing, pattern.toList.length⟩
        (.start (ofText pattern.toList))).assemble options.stateLimit := by
  simp only [compile, Outline.ofText, paired]
  rfl

theorem guards_assemble {o : Outline} (outlined : Outline.ofText options pattern.toList = .ok o)
    (ending : Guards E (fun _ => True) o.ending)
    (limits : (∀ cause, E (.anywhere cause)) ∨
      options.stateLimit = none ∧ 2 * pattern.toList.length + 3 ≤ Index.limit) :
    Guards E (fun _ => True) (o.assemble options.stateLimit) := by
  obtain ⟨pairing, rfl, inStep⟩ := inStep_of_ofText outlined
  let first := Reading.start (ofText pattern.toList)
  have room : Draft.Room E (Draft.empty.withStateLimit options.stateLimit) (first.budget + 2)
      first.rest.length := by
    refine limits.imp_right ?_
    rintro ⟨unlimited, room⟩
    have length : first.rest.length ≤ pattern.toList.length := length_read_le 0 0 _
    have budget : first.budget = 2 * first.rest.length + 1 := rfl
    simp only [Draft.withStateLimit, Draft.empty, Draft.size, Array.size_empty]
    exact ⟨unlimited, by omega, by omega, by omega⟩
  unfold Outline.assemble
  refine (Assembly.guards_start room).bind ?_
  rintro a ⟨sound, room⟩
  exact Reading.guards_pieces inStep ending sound room

theorem guards_compile (admits : Reading.Admits E options pattern.toList.length) :
    Guards E (fun _ => True) (compile options pattern) := by
  unfold compile
  refine Guards.bind (P := fun o => Outline.ofText options pattern.toList = .ok o)
    (Guards.of_refuse (fun _ ok => ok) ?_) ?_
  · intro e refused
    simp only [Outline.ofText] at refused
    split at refused
    · rename_i failed
      cases refused
      obtain ⟨k, offset, inside⟩ := error_of_scan failed (Reading.tidy_start pattern.toList)
      exact admits.placed e k offset inside
    · cases refused
  · intro o outlined
    obtain ⟨pairing, rfl, inStep⟩ := inStep_of_ofText outlined
    exact guards_assemble outlined (Reading.guards_ending admits inStep) admits.limits

/-- No pattern makes the compiler contradict itself. Wherever the reading comes to a paren, its pair
was found; the paren that closes a group is the one paired with the paren that opened it, and a
quantifier follows it if the pair says so. -/
theorem compile_ne_defect (options : Options) (pattern : String) :
    (∀ d, compile options pattern ≠ .error (.defect d)) ∧
      ∀ pairing, Pairing.ofSymbols pattern.toList.length (ofText pattern.toList) = .ok pairing →
        ∀ ps r s rest, Reading.Run ⟨options, pairing, pattern.toList.length⟩
            (.start (ofText pattern.toList)) ps r → r.rest = s :: rest →
          (s.glyph = .plain '(' → ∃ pair, pairing.pairAt? s.offset = some pair) ∧
          (s.glyph = .plain ')' → ∃ opening ∈ ofText pattern.toList, ∃ group outer,
            opening.glyph = .plain '(' ∧ r.opened = group :: outer ∧
              pairing.pairAt? opening.offset = some group.pair ∧
              group.pair.close = s.offset ∧ group.pair.looped = quantifierFollows rest) := by
  constructor
  · have admits : Reading.Admits (fun _ => True) options pattern.toList.length :=
      ⟨fun _ _ _ _ => trivial, .inl fun _ => trivial⟩
    exact (guards_compile admits).ne_defect
  · intro pairing paired ps r s rest run front
    obtain ⟨before, opened, inStep⟩ := (Reading.inStep_start paired).run run
    constructor
    · intro paren
      exact inStep.paired front paren
    · intro paren
      obtain ⟨x, _, group, groups, _, stack, found, pair, _⟩ := inStep.closes front paren
      have bare : (Pairing.unpaired pattern.toList.length).pairAt? x ≠ some group.pair := by
        rw [Pairing.pairAt?, Pairing.unpaired, Array.getElem?_replicate]
        split <;> simp
      obtain ⟨opening, mem, parens, rfl⟩ :=
        (((Pairing.scans_of_scan paired).of_paired found).resolve_left bare).resolve_left (by simp)
      exact ⟨opening, mem, group, groups, parens, stack, found, congrArg (·.close) pair,
        congrArg (·.looped) pair⟩

theorem compile_ne_defect_repeatedGroup :
    ∃ pairing ps r rest, Pairing.ofSymbols 3 (ofText "()*".toList) = .ok pairing ∧
      Reading.Run ⟨.unset, pairing, 3⟩ (.start (ofText "()*".toList)) ps r ∧
      r.rest = ⟨1, .plain ')'⟩ :: rest ∧ (∀ d, compile .unset "()*" ≠ .error (.defect d)) ∧
      ∃ opening ∈ ofText "()*".toList, ∃ group outer, opening.glyph = .plain '(' ∧
        r.opened = group :: outer ∧ pairing.pairAt? opening.offset = some group.pair ∧
          group.pair.close = 1 ∧ group.pair.looped = quantifierFollows rest := by
  let pairing : Pairing := ⟨#[some ⟨1, true⟩, none, none]⟩
  have paired : Pairing.ofSymbols 3 (ofText "()*".toList) = .ok pairing := by decide +kernel
  let first := Reading.pieceAt ⟨.unset, pairing, 3⟩ ⟨0, .plain '('⟩
    ⟨[⟨1, .plain ')'⟩, ⟨2, .plain '*'⟩], .empty, 0, [], false⟩
  have reads : first.toOption.isSome = true := by decide +kernel
  have front : first.toOption.map (·.2.rest) = some [⟨1, .plain ')'⟩, ⟨2, .plain '*'⟩] := by
    decide +kernel
  obtain ⟨⟨p, r⟩, read⟩ := Except.exists_eq_ok reads
  rw [read] at front
  have front : r.rest = [⟨1, .plain ')'⟩, ⟨2, .plain '*'⟩] := Option.some.inj front
  have run : Reading.Run ⟨.unset, pairing, 3⟩ (.start (ofText "()*".toList)) [p] r :=
    .step (by decide +kernel) read (.stay r)
  obtain ⟨total, parens⟩ := compile_ne_defect .unset "()*"
  exact ⟨pairing, [p], r, _, paired, run, front, total,
    (parens pairing paired [p] r _ _ run front).2 rfl⟩

end Compiling

end PatternGraph
