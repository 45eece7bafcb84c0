import PatternGraph.Proofs.Graph.Untagging
import PatternGraph.Proofs.Pattern.NestLimit

/-!
Compiling under limits. With a limit on the number of states every operation on a draft does what it
does without, until one more state would be too many; and states are never taken back, so this happens
just where the finished graph is too large.
-/
namespace PatternGraph

def Failure.tooLarge (limit : Nat) : Failure := .refused (.anywhere (.tooManyStates limit))

/-- If the first ends, it has got no smaller than it was with `low` states. The second, which obeys the
limit, then ends with the same, or is refused if that is too large. -/
def Capped {A : Type} (limit : Nat) (size : A → Nat) (cap : A → A) (low : Nat)
    (x y : Except Failure A) : Prop :=
  ∀ a, x = .ok a → low ≤ size a ∧
    (low ≤ limit → y = if size a ≤ limit then .ok (cap a) else .error (.tooLarge limit))

namespace Capped
variable {A B : Type} {limit low : Nat} {size : A → Nat} {cap : A → A} {size' : B → Nat}
  {cap' : B → B} {x y : Except Failure A}

theorem of_eq {a : A} (same : size a = low) : Capped limit size cap low (.ok a) (.ok (cap a)) := by
  intro _ ok
  cases ok
  exact ⟨Nat.le_of_eq same.symm, fun within => by rw [if_pos (same ▸ within)]⟩

theorem of_error (e : Failure) : Capped limit size cap low (.error e) y := by
  intro _ ok
  cases ok

theorem bind {k l : A → Except Failure B} (first : Capped limit size cap low x y)
    (next : ∀ a, Capped limit size' cap' (size a) (k a) (l (cap a))) :
    Capped limit size' cap' low (x >>= k) (y >>= l) := by
  intro b ok
  obtain ⟨a, rfl, ok'⟩ := Except.bind_eq_ok.1 ok
  obtain ⟨grows, here⟩ := first a rfl
  obtain ⟨grows', there⟩ := next a b ok'
  refine ⟨Nat.le_trans grows grows', fun within => ?_⟩
  rw [here within]
  by_cases room : size a ≤ limit
  · rw [if_pos room]
    exact there room
  · rw [if_neg room, if_neg fun room' => room (Nat.le_trans grows' room')]
    rfl

end Capped

namespace Draft
variable {d : Draft} {limit : Nat}

def capped (limit : Nat) (d : Draft) : Draft := d.withStateLimit (some limit)

abbrev CappedAdd {A : Type} (limit low : Nat) (x y : Except Failure (A × Draft)) : Prop :=
  Capped limit (·.2.size) (Prod.map id (capped limit)) low x y

theorem push_capped (d : Draft) (s : DraftState) :
    CappedAdd limit d.size (Assembly.refuse (d.push s)) (Assembly.refuse ((d.capped limit).push s)) := by
  rintro ⟨id, d'⟩ pushed
  rw [Assembly.refuse_eq_ok] at pushed
  have size : d'.size = d.size + 1 := (adds_of_push pushed).1.size
  unfold push at pushed
  split at pushed
  · cases pushed
  rename_i found
  cases pushed
  have next : (d.capped limit).nextId =
      if limit ≤ d.size then .error (.anywhere (.tooManyStates limit)) else .ok id := by
    have same : (d.capped limit).size = d.size := rfl
    have limited : (d.capped limit).stateLimit = some limit := rfl
    unfold nextId at found ⊢
    rw [same, limited]
    split at found
    · cases found
    · split at found
      · split at found <;> cases found
        rfl
      · cases found
        rfl
  refine ⟨Nat.le_trans (Nat.le_succ _) (Nat.le_of_eq size.symm), fun _ => ?_⟩
  simp only [size, push, next]
  by_cases full : limit ≤ d.size
  · rw [if_pos full, if_neg (by omega)]
    rfl
  · rw [if_neg full, if_pos (by omega)]
    rfl

theorem addTrap_of_index {trap : TrapId} (index : Index.ofNat? .trap d.trapCount = .ok trap) :
    Assembly.refuse d.addTrap =
      Assembly.refuse (d.push (.trap trap none none none)) >>= fun added =>
        .ok (added.1, { added.2 with trapCount := added.2.trapCount + 1 }) := by
  simp only [addTrap, index]
  cases d.push (.trap trap none none none) <;> rfl

theorem addTrap_capped (d : Draft) :
    CappedAdd limit d.size (Assembly.refuse d.addTrap) (Assembly.refuse (d.capped limit).addTrap) := by
  cases index : Index.ofNat? .trap d.trapCount with
  | error e =>
    rw [addTrap, index]
    exact .of_error _
  | ok trap =>
    rw [addTrap_of_index index, addTrap_of_index (d := d.capped limit) index]
    exact (d.push_capped _).bind fun added => .of_eq rfl

theorem update_capped (d : Draft) (id : StateId) (change : DraftState → Option DraftState)
    (refusal : DraftState → Misuse) :
    Capped limit size (capped limit) d.size (Assembly.trust (d.update id change refusal))
      (Assembly.trust ((d.capped limit).update id change refusal)) := by
  have states : (d.capped limit).states = d.states := rfl
  intro d' updated
  rw [Assembly.trust_eq_ok] at updated
  have size : d'.size = d.size := by
    obtain ⟨_, _, _, _, puts⟩ := puts_of_update updated
    exact puts.size
  have updated' : (d.capped limit).update id change refusal = .ok (d'.capped limit) := by
    unfold update at updated ⊢
    simp only [states]
    by_cases inside : id.val < d.states.size
    · rw [dif_pos inside] at updated ⊢
      split at updated <;> cases updated
      rename_i changed
      rw [changed]
      rfl
    · rw [dif_neg inside] at updated
      cases updated
  refine ⟨Nat.le_of_eq size.symm, fun within => ?_⟩
  rw [if_pos (size ▸ within), updated']
  rfl

theorem addClass_capped (d : Draft) (set : CharSet) :
    CappedAdd limit d.size (Assembly.refuse (d.addClass set))
      (Assembly.refuse ((d.capped limit).addClass set)) := by
  unfold addClass
  have classes : (d.capped limit).classes = d.classes := rfl
  rw [classes]
  split
  · exact .of_error _
  · exact .of_eq rfl

end Draft

namespace Assembly
variable {limit : Nat}

def capped (limit : Nat) (a : Assembly) : Assembly := { a with draft := a.draft.capped limit }

abbrev CappedStep (limit low : Nat) (x y : Except Failure Assembly) : Prop :=
  Capped limit (·.draft.size) (capped limit) low x y

theorem label_capped (d : Draft) (atom : Atom) :
    Draft.CappedAdd limit d.size (label d atom) (label (d.capped limit) atom) := by
  cases atom with
  | literal c cs => cases cs <;> exact .of_eq rfl
  | charClass set => exact (d.addClass_capped set).bind fun _ => .of_eq rfl
  | any | backref => exact .of_eq rfl

theorem addAtom_capped (a : Assembly) (atom : Atom) :
    CappedStep limit a.draft.size (a.addAtom atom) ((a.capped limit).addAtom atom) := by
  refine (label_capped a.draft atom).bind fun (label, d₁) => ?_
  refine (d₁.push_capped (.fanout #[])).bind fun (next, d₂) => ?_
  refine (d₂.update_capped _ _ _).bind fun d₃ => ?_
  exact .of_eq rfl

theorem addLoop_capped (a : Assembly) (atom : Atom) (r : Repetition) :
    CappedStep limit a.draft.size (a.addLoop atom r) ((a.capped limit).addLoop atom r) := by
  refine (label_capped a.draft atom).bind fun (label, d₁) => ?_
  refine d₁.addTrap_capped.bind fun (trap, d₂) => ?_
  refine (d₂.push_capped (.fanout #[])).bind fun (after, d₃) => ?_
  refine (d₃.update_capped _ _ _).bind fun d₄ => ?_
  refine (d₄.update_capped _ _ _).bind fun d₅ => ?_
  refine (d₅.update_capped _ _ _).bind fun d₆ => ?_
  refine (d₆.update_capped _ _ _).bind fun d₇ => ?_
  exact .of_eq rfl

theorem openGroup_capped (a : Assembly) (tag : Option TagId) (looped : Bool) :
    CappedStep limit a.draft.size (a.openGroup tag looped)
      ((a.capped limit).openGroup tag looped) := by
  refine (a.draft.push_capped (.tagOpen tag #[])).bind fun (first, d₁) => ?_
  refine (d₁.push_capped (.tagClose tag #[])).bind fun (last, d₂) => ?_
  cases looped with
  | true =>
    refine d₂.addTrap_capped.bind fun (trap, d₃) => ?_
    refine (d₃.update_capped _ _ _).bind fun d₄ => ?_
    refine (d₄.update_capped _ _ _).bind fun d₅ => ?_
    exact .of_eq rfl
  | false =>
    refine (d₂.update_capped _ _ _).bind fun d₃ => ?_
    exact .of_eq rfl

theorem closeGroup_capped (a : Assembly) (r : Option Repetition) :
    CappedStep limit a.draft.size (a.closeGroup r) ((a.capped limit).closeGroup r) := by
  obtain ⟨draft, ⟨first, last, tail, trap⟩, outer⟩ := a
  cases outer with
  | nil => exact .of_error _
  | cons around outer =>
    refine (draft.update_capped _ _ _).bind fun d₁ => ?_
    cases trap with
    | none =>
      cases r with
      | none => exact .of_eq rfl
      | some r => exact .of_error _
    | some trap =>
      cases r with
      | none => exact .of_error _
      | some r =>
        refine (d₁.push_capped (.fanout #[])).bind fun (after, d₂) => ?_
        refine (d₂.update_capped _ _ _).bind fun d₃ => ?_
        refine (d₃.update_capped _ _ _).bind fun d₄ => ?_
        refine (d₄.update_capped _ _ _).bind fun d₅ => ?_
        exact .of_eq rfl

theorem add_capped (a : Assembly) (p : Piece) :
    CappedStep limit a.draft.size (a.add p) ((a.capped limit).add p) := by
  cases p with
  | atom atom r =>
    cases r with
    | none => exact a.addAtom_capped atom
    | some r => exact a.addLoop_capped atom r
  | openGroup tag looped => exact a.openGroup_capped tag looped
  | closeGroup r => exact a.closeGroup_capped r
  | alternative => exact (a.draft.update_capped _ _ _).bind fun d₁ => .of_eq rfl

theorem foldlM_capped (limit : Nat) (ps : List Piece) (a : Assembly) :
    CappedStep limit a.draft.size (ps.foldlM add a) (ps.foldlM add (a.capped limit)) := by
  induction ps generalizing a with
  | nil => exact .of_eq rfl
  | cons p ps ih =>
    rw [List.foldlM_cons, List.foldlM_cons]
    exact (a.add_capped p).bind ih

theorem start_capped (free : Option Nat) :
    CappedStep limit 0 (start free) (start (some limit)) := by
  refine ((Draft.empty.withStateLimit free).push_capped (.fanout #[])).bind fun (first, d₁) => ?_
  refine (d₁.push_capped (.fanout #[])).bind fun (last, d₂) => ?_
  exact .of_eq rfl

theorem finish_capped (limit : Nat) (a : Assembly) (names : GroupNames) :
    Capped limit (·.states.size) id a.draft.size (a.finish names) ((a.capped limit).finish names) := by
  obtain ⟨draft, frame, outer⟩ := a
  cases outer with
  | cons => exact .of_error _
  | nil =>
    refine (draft.push_capped .terminal).bind fun (terminal, d₁) => ?_
    refine (d₁.update_capped _ _ _).bind fun d₂ => ?_
    refine (d₂.update_capped _ _ _).bind fun d₃ => ?_
    intro g finished
    rw [trust_eq_ok] at finished
    have size : g.states.size = d₃.size := (Draft.finishes_of_finish finished).size
    have finished' : (d₃.capped limit).finish frame.first names = .ok g := finished
    refine ⟨Nat.le_of_eq size.symm, fun within => ?_⟩
    simp only [size, if_pos within]
    exact trust_eq_ok.2 finished'

end Assembly

namespace Outline
variable {o o' : Outline} {limit : Nat} {free : Option Nat} {g : Graph}

theorem lay_capped (o : Outline) (free : Option Nat) :
    Assembly.CappedStep limit 0 (o.lay free) (o.lay (some limit)) :=
  (Assembly.start_capped free).bind fun a => Assembly.foldlM_capped limit o.pieces a

theorem assemble_capped (limit : Nat) (o : Outline) (free : Option Nat) :
    Capped limit (·.states.size) id 0 (o.assemble free) (o.assemble (some limit)) := by
  rw [assemble_eq, assemble_eq]
  refine (o.lay_capped free).bind fun a => ?_
  cases o.ending with
  | error e => exact .of_error e
  | ok names => exact Assembly.finish_capped limit a names

/-- A mistake after some of the pieces is reported unless these are too many. -/
theorem assemble_of_prefix {e : Failure} (assembled : o.assemble free = .ok g)
    (pieces : o'.pieces <+: o.pieces) (ending : o'.ending = .error e)
    (room : g.states.size ≤ limit) : o'.assemble (some limit) = .error e := by
  rw [assemble_eq] at assembled ⊢
  obtain ⟨a, laid, ended⟩ := Except.bind_eq_ok.1 assembled
  obtain ⟨names, _, finished⟩ := Except.bind_eq_ok.1 ended
  obtain ⟨more, pieces⟩ := pieces
  have split : o'.lay free >>= more.foldlM Assembly.add = .ok a := by
    rw [← laid, lay, lay, ← pieces, bind_assoc]
    simp only [List.foldlM_append]
  obtain ⟨a', laid', added⟩ := Except.bind_eq_ok.1 split
  have fewer := (Assembly.foldlM_capped limit more a' a added).1
  have fewer' := (Assembly.finish_capped limit a names g finished).1
  obtain ⟨_, limited⟩ := o'.lay_capped free a' laid'
  rw [limited (Nat.zero_le _), if_pos (Nat.le_trans fewer (Nat.le_trans fewer' room)), ending]
  rfl

theorem assemble_of_error {e : Failure} (ending : o.ending = .error e) :
    o.assemble free ≠ .ok g := by
  intro assembled
  rw [assemble_eq] at assembled
  obtain ⟨a, _, ended⟩ := Except.bind_eq_ok.1 assembled
  rw [ending] at ended
  cases ended

end Outline

def Options.withLimits (options : Options) (nestLimit stateLimit : Nat) : Options :=
  (options.withNestLimit nestLimit).withStateLimit (some stateLimit)

theorem nesting_le_iff {pattern : String} {limit : Nat} :
    nesting pattern ≤ limit ↔ ∀ paren ∈ parensOf pattern, paren.depth ≤ limit := by
  unfold nesting
  induction parensOf pattern with
  | nil => simp
  | cons paren parens ih =>
    rw [List.map_cons, List.foldr_cons, Nat.max_le, ih, List.forall_mem_cons]

section Compiling
variable {options : Options} {pattern : String} {g : Graph} {nestLimit stateLimit : Nat}

theorem outline_of_compile (compiled : compile options pattern = .ok g) :
    ∃ pairing names,
      Pairing.ofSymbols pattern.toList.length (Symbol.ofText pattern.toList) = .ok pairing ∧
      (Outline.ofReading ⟨options, pairing, pattern.toList.length⟩
        (.start (Symbol.ofText pattern.toList))).ending = .ok names := by
  cases paired : Pairing.ofSymbols pattern.toList.length (Symbol.ofText pattern.toList) with
  | error e =>
    simp only [compile, Outline.ofText, paired] at compiled
    cases compiled
  | ok pairing =>
    rw [compile_of_paired paired, Outline.assemble_eq] at compiled
    obtain ⟨a, _, ended⟩ := Except.bind_eq_ok.1 compiled
    obtain ⟨names, ended, _⟩ := Except.bind_eq_ok.1 ended
    exact ⟨pairing, names, rfl, ended⟩

theorem compile_shallow (compiled : compile options pattern = .ok g)
    (shallow : nesting pattern ≤ nestLimit) :
    compile (options.withLimits nestLimit stateLimit) pattern =
      if g.states.size ≤ stateLimit then .ok g else .error (.tooLarge stateLimit) := by
  obtain ⟨pairing, names, paired, ended⟩ := outline_of_compile compiled
  have read := Outline.ofReading_under (options.withLimits nestLimit stateLimit) rfl ended
    (nesting_le_iff.1 shallow)
  rw [compile_of_paired paired] at compiled ⊢
  have same := ((Outline.assemble_capped _ _ _) g compiled).2 (Nat.zero_le stateLimit)
  rw [← read] at same
  exact same

theorem compile_deep {paren : GroupParen} (stateLimit : Nat)
    (compiled : compile options pattern = .ok g)
    (first : (parensOf pattern).find? (nestLimit < ·.depth) = some paren) :
    (∀ g', compile (options.withLimits nestLimit stateLimit) pattern ≠ .ok g') ∧
      (g.states.size ≤ stateLimit → compile (options.withLimits nestLimit stateLimit) pattern =
        .error (.refused (.here (.nestLimitExceeded nestLimit) paren.offset))) := by
  obtain ⟨pairing, names, paired, ended⟩ := outline_of_compile compiled
  obtain ⟨pieces, ending⟩ :=
    Outline.ofReading_tooDeep (options.withLimits nestLimit stateLimit) rfl ended first
  rw [compile_of_paired paired] at compiled ⊢
  constructor
  · intro g'
    exact Outline.assemble_of_error ending
  · intro room
    exact Outline.assemble_of_prefix compiled pieces ending room

end Compiling

/-- A pattern that compiles at all compiles under limits just if its groups are nested no deeper and
its graph is no larger, and then to the same graph. Where it passes one of the limits only, that one
is reported: nesting at the first paren that is too deep, the number of states at no place. -/
theorem compile_withLimits {options : Options} {pattern : String} {g : Graph}
    (compiled : compile options pattern = .ok g) (nestLimit stateLimit : Nat) :
    ((∃ g', compile (options.withLimits nestLimit stateLimit) pattern = .ok g') ↔
        nesting pattern ≤ nestLimit ∧ g.states.size ≤ stateLimit) ∧
      (∀ g', compile (options.withLimits nestLimit stateLimit) pattern = .ok g' → g' = g) ∧
      (nestLimit < nesting pattern → g.states.size ≤ stateLimit →
        ∃ paren, (parensOf pattern).find? (nestLimit < ·.depth) = some paren ∧
          compile (options.withLimits nestLimit stateLimit) pattern =
            .error (.refused (.here (.nestLimitExceeded nestLimit) paren.offset))) ∧
      (nesting pattern ≤ nestLimit → stateLimit < g.states.size →
        compile (options.withLimits nestLimit stateLimit) pattern =
          .error (.refused (.anywhere (.tooManyStates stateLimit)))) := by
  by_cases shallow : nesting pattern ≤ nestLimit
  · rw [compile_shallow compiled shallow]
    by_cases room : g.states.size ≤ stateLimit
    · rw [if_pos room]
      refine ⟨⟨fun _ => ⟨shallow, room⟩, fun _ => ⟨g, rfl⟩⟩, ?_, ?_, ?_⟩
      · intro g' same
        exact (Except.ok.inj same).symm
      · intro deep
        omega
      · intro _ large
        omega
    · rw [if_neg room]
      refine ⟨⟨nofun, fun both => absurd both.2 room⟩, nofun, ?_, fun _ _ => rfl⟩
      intro deep
      omega
  · cases first : (parensOf pattern).find? (nestLimit < ·.depth) with
    | none =>
      refine absurd (nesting_le_iff.2 fun paren mem => ?_) shallow
      simpa using List.find?_eq_none.1 first paren mem
    | some paren =>
      obtain ⟨refused, deep⟩ := compile_deep stateLimit compiled first
      refine ⟨⟨?_, fun both => absurd both.1 shallow⟩, ?_, ?_, fun small => absurd small shallow⟩
      · rintro ⟨g', ok⟩
        exact absurd ok (refused g')
      · intro g' ok
        exact absurd ok (refused g')
      · intro _ room
        exact ⟨paren, rfl, deep room⟩

theorem compile_withLimits_nestedGroup :
    ∃ g, compile .unset "a([(]b(c)*)" = .ok g ∧
      (∃ g', compile (Options.unset.withLimits 2 13) "a([(]b(c)*)" = .ok g') ∧
      compile (Options.unset.withLimits 1 13) "a([(]b(c)*)" =
        .error (.refused (.here (.nestLimitExceeded 1) 6)) ∧
      compile (Options.unset.withLimits 2 12) "a([(]b(c)*)" =
        .error (.refused (.anywhere (.tooManyStates 12))) := by
  have compiles : (compile .unset "a([(]b(c)*)").toOption.map (·.states.size) = some 13 := by
    decide +kernel
  obtain ⟨g, found, size⟩ := Option.map_eq_some_iff.1 compiles
  have compiled := Except.eq_ok_of_toOption found
  have depth : nesting "a([(]b(c)*)" = 2 := by decide +kernel
  have first : (parensOf "a([(]b(c)*)").find? (1 < ·.depth) = some ⟨6, 2, .unnamed⟩ := by
    decide +kernel
  obtain ⟨accepted, -, -, -⟩ := compile_withLimits compiled 2 13
  obtain ⟨-, -, tooDeep, -⟩ := compile_withLimits compiled 1 13
  obtain ⟨-, -, -, tooLarge⟩ := compile_withLimits compiled 2 12
  rw [depth, size] at accepted tooDeep tooLarge
  obtain ⟨paren, first', refused⟩ := tooDeep (by decide) (by decide)
  cases first.symm.trans first'
  exact ⟨g, compiled, accepted.2 (by decide), refused, tooLarge (by decide) (by decide)⟩

end PatternGraph
