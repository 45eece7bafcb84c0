import PatternGraph.Proofs.Graph.Shape
import PatternGraph.Proofs.Pattern.GroupOrder

/-!
The groups of a compiled graph. They begin at its states in the order in which they open in the
pattern, and their tags and names are known from the parens alone.
-/
namespace PatternGraph

def Role.group? : Role → Option (Option TagId)
  | .tagOpen tag => some tag
  | .fanout | .tagClose _ | .trap | .terminal => none

def State.group? : State → Option (Option TagId)
  | .tagOpen tag _ => some tag
  | .relay _ | .fanout _ | .trap .. | .terminal | .tagClose .. => none

def capturing (parens : List GroupParen) : List GroupParen := parens.filter (·.mark.captures)

namespace Graph

def groups (g : Graph) : List (Option TagId) := g.states.toList.filterMap State.group?

/-- The groups of the graph are those that the parens open. A tag stands for the group that is so many
places on among those that capture. -/
structure GroupsOf (g : Graph) (parens : List GroupParen) : Prop where
  count : g.groups.length = parens.length
  tags : ∀ i (paren : GroupParen), parens[i]? = some paren → g.groups[i]? =
    some (if paren.mark.captures then some (Index.mk (capturing (parens.take i)).length) else none)
  size : g.names.size = (capturing parens).length
  named : ∀ (tag : TagId) (paren : GroupParen) name, (capturing parens)[tag.val]? = some paren →
    paren.mark = .named name → g.names.nameOf? tag = some name
  /-- A group without a name is called by its number among the groups without one. -/
  unnamed : ∀ (tag : TagId) (paren : GroupParen), (capturing parens)[tag.val]? = some paren →
    paren.mark = .unnamed → g.names.nameOf? tag =
      some (toString (((capturing parens).take (tag.val + 1)).countP (·.mark = .unnamed)))
  distinct : g.names.toList.Nodup
  found : ∀ tag name, g.names.nameOf? tag = some name → g.names.find? name = some tag
  absent : ∀ name, (∀ tag, g.names.nameOf? tag ≠ some name) → g.names.find? name = none
  closed : ∀ tag : TagId, tag.val < g.names.size → g.names.isClosed tag = true

end Graph

namespace Assembly
variable {a a' : Assembly} {p : Piece} {ps : List Piece}

theorem Step.groups (step : a.Step p a') :
    a'.draft.roles.filterMap Role.group? =
      a.draft.roles.filterMap Role.group? ++ p.group?.toList := by
  cases step with
  | atom _ _ grows | loop _ _ _ grows | group _ _ grows | loopedGroup _ _ _ grows | close _ grows
  | closeLoop _ _ _ grows | alternative grows =>
    have roles := congrArg (List.filterMap Role.group?) grows.roles
    rw [List.filterMap_append] at roles
    exact roles

theorem groups_of_foldlM (hangs : a.Hangs) (added : ps.foldlM add a = .ok a') :
    a'.draft.roles.filterMap Role.group? =
      a.draft.roles.filterMap Role.group? ++ ps.filterMap Piece.group? := by
  induction ps generalizing a with
  | nil =>
    cases added
    exact (List.append_nil _).symm
  | cons p ps ih =>
    rw [List.foldlM_cons, Except.bind_eq_ok] at added
    obtain ⟨a₁, piece, added⟩ := added
    obtain ⟨step, hangs₁⟩ := step_of_add hangs piece
    have split : (p :: ps).filterMap Piece.group? = p.group?.toList ++ ps.filterMap Piece.group? := by
      cases here : p.group? <;> simp [here]
    rw [ih hangs₁ added, step.groups, split, List.append_assoc]

theorem groups_of_start {stateLimit : Option Nat} (begun : start stateLimit = .ok a) :
    a.draft.roles.filterMap Role.group? = [] := by
  simp only [start, Except.bind_eq_ok, refuse_eq_ok, Prod.exists] at begun
  obtain ⟨first, d₁, pushed, last, d₂, pushed', ⟨⟩⟩ := begun
  obtain ⟨grows, _⟩ := Draft.grows_of_push pushed rfl
  obtain ⟨grows', _⟩ := Draft.grows_of_push pushed' rfl
  have roles : d₂.roles = [.fanout, .fanout] := (grows.trans grows').roles
  rw [roles]
  rfl

theorem groups_of_finish {names : GroupNames} {g : Graph} (finished : a.finish names = .ok g) :
    g.groups = a.draft.roles.filterMap Role.group? := by
  obtain ⟨_, terminal, d₁, d₂, d₃, pushed, arrow, arrow', finishes⟩ := finish_eq_ok finished
  obtain ⟨grows, _⟩ := Draft.grows_of_push pushed rfl
  have grows := (grows.trans (Draft.grows_of_addArrow arrow)).trans (Draft.grows_of_addArrow arrow')
  have role (s : State) : s.group? = s.draft.role.group? := by cases s <;> rfl
  have roles : g.states.toList.map (fun s => s.draft.role) = d₃.roles := by
    apply List.ext_getElem?
    intro i
    rw [List.getElem?_map, Array.getElem?_toList]
    exact (finishes.role ⟨i⟩).symm
  have groups : g.groups = d₃.roles.filterMap Role.group? := by
    rw [← roles, List.filterMap_map]
    exact List.filterMap_congr fun s _ => role s
  rw [groups, grows.roles, List.filterMap_append]
  exact List.append_nil _

end Assembly

theorem captures_of_capturing (parens : List GroupParen) :
    ∀ mark ∈ (capturing parens).map (·.mark), mark.captures = true := by
  intro mark mem
  obtain ⟨paren, chosen, rfl⟩ := List.mem_map.1 mem
  exact (List.mem_filter.1 chosen).2

section Compiling
variable {options : Options} {pattern : String} {g : Graph}

theorem marks_of_compile (captures : options.captures = true)
    (compiled : compile options pattern = .ok g) :
    g.names.toList = GroupMark.allNames 0 ((parensOf pattern).map (·.mark)) ∧
      g.groups = GroupMark.tags 0 ((parensOf pattern).map (·.mark)) := by
  simp only [compile, Outline.assemble, Except.bind_eq_ok, Assembly.refuse_eq_ok] at compiled
  obtain ⟨o, outlined, a, begun, a', added, names, ended, finished⟩ := compiled
  obtain ⟨pairing, rfl, inStep⟩ := inStep_of_ofText outlined
  obtain ⟨last, run, done, rfl⟩ := Reading.run_of_ending ended
  obtain ⟨_, _, _, _, _, _, _, _, finishes⟩ := Assembly.finish_eq_ok finished
  have hangs := (Assembly.shaped_of_start begun).1.hangs
  obtain ⟨names, tags⟩ := Reading.groups_of_run captures run done GroupNames.coherent_empty
    ⟨List.nodup_nil, Nat.zero_le _⟩
  constructor
  · rw [finishes.names]
    exact names
  · rw [Assembly.groups_of_finish finished, Assembly.groups_of_foldlM hangs added,
      Assembly.groups_of_start begun, List.nil_append]
    exact tags

theorem toList_names_of_compile (captures : options.captures = true)
    (compiled : compile options pattern = .ok g) :
    g.names.toList = GroupMark.allNames 0 ((capturing (parensOf pattern)).map (·.mark)) := by
  have marks : ((parensOf pattern).map (·.mark)).filter GroupMark.captures =
      (capturing (parensOf pattern)).map (·.mark) := List.filter_map ..
  rw [(marks_of_compile captures compiled).1, ← GroupMark.allNames_filter, marks]

/-- The two tables of names of a graph are in step. -/
theorem coherent_of_compile (compiled : compile options pattern = .ok g) : g.names.Coherent := by
  obtain ⟨t, ⟨gs, unnamed, _, spells⟩, _⟩ := realizes_of_compile compiled
  exact spells.coherent GroupNames.coherent_empty

theorem isClosed_of_compile (captures : options.captures = true)
    (compiled : compile options pattern = .ok g) (tag : TagId) (inside : tag.val < g.names.size) :
    g.names.isClosed tag = true := by
  obtain ⟨t, ⟨gs, unnamed, _, spells⟩, _⟩ := realizes_of_compile compiled
  rw [captures] at spells
  obtain ⟨e, _, after, _⟩ := spells.generates GroupNames.coherent_empty ⟨List.nodup_nil, Nat.zero_le _⟩
  have after : g.names = GroupNames.empty.append (e.names 0) true := congrArg Declared.names after
  have none (tag : TagId) (inside : tag.val < GroupNames.empty.size) :
      GroupNames.empty.isClosed tag = true := absurd inside (Nat.not_lt_zero _)
  rw [after] at inside ⊢
  exact GroupNames.isClosed_append none tag inside

end Compiling

/-- Where groups capture, the graph of a pattern has the groups of its parens. -/
theorem groupsOf_of_compile {options : Options} {pattern : String} {g : Graph}
    (captures : options.captures = true) (compiled : compile options pattern = .ok g) :
    g.GroupsOf (parensOf pattern) := by
  obtain ⟨_, groups⟩ := marks_of_compile captures compiled
  have coherent := coherent_of_compile compiled
  have list := toList_names_of_compile captures compiled
  have all := captures_of_capturing (parensOf pattern)
  have named {tag : TagId} {paren : GroupParen}
      (here : (capturing (parensOf pattern))[tag.val]? = some paren) := by
    have mark : ((capturing (parensOf pattern)).map (·.mark))[tag.val]? = some paren.mark := by
      simp [here]
    exact GroupMark.getElem?_allNames 0 all mark
  constructor
  · rw [groups, GroupMark.length_tags, List.length_map]
  · intro i paren here
    have mark : ((parensOf pattern).map (·.mark))[i]? = some paren.mark := by simp [here]
    rw [groups, GroupMark.getElem?_tags 0 mark, ← List.map_take, List.countP_map, Nat.zero_add,
      capturing, ← List.countP_eq_length_filter]
    rfl
  · have length := congrArg List.length list
    rw [GroupMark.length_allNames 0 all, List.length_map] at length
    rwa [GroupNames.length_toList] at length
  · intro tag paren name here mark
    rw [GroupNames.nameOf?_eq, list]
    exact (named here).1 name mark
  · intro tag paren here mark
    rw [GroupNames.nameOf?_eq, list, (named here).2 mark, ← List.map_take, List.countP_map,
      Nat.zero_add]
    rfl
  · exact coherent.nodup
  · intro tag name here
    exact (coherent name tag).2 here
  · intro name other
    apply Option.eq_none_iff_forall_ne_some.2
    intro tag found
    exact other tag ((coherent name tag).1 found)
  · exact isClosed_of_compile captures compiled

/-- The numeral that is a name does not count among the groups without one. -/
theorem groupsOf_of_compile_numeralName :
    ∃ g, compile .unset "(?<3>a(b))(?:c)(d)" = .ok g ∧
      g.GroupsOf [⟨0, 1, .named "3"⟩, ⟨6, 2, .unnamed⟩, ⟨10, 1, .bare⟩, ⟨15, 1, .unnamed⟩] ∧
      g.groups[3]? = some (some ⟨2⟩) ∧ g.names.find? "3" = some ⟨0⟩ ∧
      g.names.find? "2" = some ⟨2⟩ := by
  have compiles : (compile .unset "(?<3>a(b))(?:c)(d)").toOption.isSome = true := by decide +kernel
  obtain ⟨g, compiled⟩ := Except.exists_eq_ok compiles
  have parens : parensOf "(?<3>a(b))(?:c)(d)" =
      [⟨0, 1, .named "3"⟩, ⟨6, 2, .unnamed⟩, ⟨10, 1, .bare⟩, ⟨15, 1, .unnamed⟩] := by
    decide +kernel
  have groupsOf := groupsOf_of_compile rfl compiled
  rw [parens] at groupsOf
  refine ⟨g, compiled, groupsOf, groupsOf.tags 3 _ rfl, ?_, ?_⟩
  · exact groupsOf.found _ _ (groupsOf.named ⟨0⟩ _ "3" rfl rfl)
  · exact groupsOf.found _ _ (groupsOf.unnamed ⟨2⟩ _ rfl rfl)

end PatternGraph
