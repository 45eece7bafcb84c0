import PatternGraph.Proofs.Pattern.GroupParens
import PatternGraph.Proofs.Pattern.Naming

/-!
The names and the tags of the groups of a pattern in the order of its opening parens. The reading keeps
three counts, of names, of groups without a name and of open groups; here all of them are read off the
marks of the parens.
-/
namespace PatternGraph
open Symbol Grammar

namespace GroupMark

def captures : GroupMark → Bool
  | .bare => false
  | .unnamed | .named _ => true

def allNames (before : Nat) : List GroupMark → List String
  | [] => []
  | mark :: marks => mark.names before ++ allNames (before + mark.unnamedCount) marks

def tags (next : Nat) : List GroupMark → List (Option TagId)
  | [] => []
  | mark :: marks =>
    if mark.captures then some ⟨next⟩ :: tags (next + 1) marks else none :: tags next marks

theorem length_tags (next : Nat) (marks : List GroupMark) :
    (tags next marks).length = marks.length := by
  induction marks generalizing next with
  | nil => rfl
  | cons mark marks ih =>
    rw [tags]
    split <;> rw [List.length_cons, List.length_cons, ih]

theorem getElem?_tags {marks : List GroupMark} {mark : GroupMark} {i : Nat} (next : Nat)
    (found : marks[i]? = some mark) :
    (tags next marks)[i]? =
      some (if mark.captures then some ⟨next + (marks.take i).countP captures⟩ else none) := by
  induction marks generalizing next i with
  | nil => cases found
  | cons first marks ih =>
    cases i with
    | zero =>
      cases found
      rw [tags, List.take_zero, List.countP_nil]
      split <;> rfl
    | succ i =>
      have found : marks[i]? = some mark := found
      rw [tags, List.take_succ_cons, List.countP_cons]
      split
      · rw [List.getElem?_cons_succ, ih _ found, Nat.add_right_comm, Nat.add_assoc]
      · rw [List.getElem?_cons_succ, ih _ found, Nat.add_zero]

theorem allNames_filter (before : Nat) (marks : List GroupMark) :
    allNames before (marks.filter captures) = allNames before marks := by
  induction marks generalizing before with
  | nil => rfl
  | cons mark marks ih =>
    cases mark with
    | bare => exact ih before
    | unnamed | named =>
      rw [List.filter_cons_of_pos rfl, allNames, allNames, ih]

/-- Where all groups capture, each has a name: its own, or the count of groups without one up to it. -/
theorem getElem?_allNames {marks : List GroupMark} {mark : GroupMark} {i : Nat} (before : Nat)
    (capturing : ∀ mark ∈ marks, mark.captures = true) (found : marks[i]? = some mark) :
    (∀ name, mark = .named name → (allNames before marks)[i]? = some name) ∧
      (mark = .unnamed → (allNames before marks)[i]? =
        some (toString (before + (marks.take (i + 1)).countP (· = .unnamed)))) := by
  induction marks generalizing before i with
  | nil => cases found
  | cons first marks ih =>
    obtain ⟨here, later⟩ := List.forall_mem_cons.1 capturing
    rw [allNames, List.take_succ_cons, List.countP_cons]
    cases first with
    | bare => cases here
    | unnamed =>
      cases i with
      | zero =>
        cases found
        constructor
        · rintro _ ⟨⟩
        · intro _
          simp [names]
      | succ i =>
        obtain ⟨named, unnamed⟩ := ih (before + 1) later found
        refine ⟨named, fun same => (unnamed same).trans ?_⟩
        congr 2
        simp only [decide_true, if_true]
        omega
    | named name =>
      cases i with
      | zero =>
        cases found
        constructor
        · rintro _ ⟨⟩
          rfl
        · rintro ⟨⟩
      | succ i => exact ih before later found

theorem length_allNames (before : Nat) {marks : List GroupMark}
    (capturing : ∀ mark ∈ marks, mark.captures = true) :
    (allNames before marks).length = marks.length := by
  induction marks generalizing before with
  | nil => rfl
  | cons first marks ih =>
    obtain ⟨here, later⟩ := List.forall_mem_cons.1 capturing
    have one : (first.names before).length = 1 := by
      cases first with
      | bare => cases here
      | unnamed | named => rfl
    rw [allNames, List.length_append, one, ih _ later, List.length_cons, Nat.add_comm]

end GroupMark

theorem Declared.toList_close (d : Declared) (tag : Option TagId) :
    (d.close tag).names.toList = d.names.toList := by
  cases tag with
  | none => rfl
  | some tag => exact d.names.toList_close tag

theorem Declared.unnamed_close (d : Declared) (tag : Option TagId) :
    (d.close tag).unnamed = d.unnamed := by
  cases tag <;> rfl

theorem Declared.tags_opening (d : Declared) (mark : GroupMark) (marks : List GroupMark) :
    d.nextTag mark :: GroupMark.tags (d.opening mark).names.size marks =
      GroupMark.tags d.names.size (mark :: marks) := by
  have size : (d.opening mark).names.size = d.names.size + (mark.names d.unnamed).length :=
    GroupNames.size_append _ _ _
  rw [size]
  cases mark <;> rfl

namespace Reading
variable {scope : Scope} {r last : Reading} {ps : List Piece}

/-- The names and tags that the reading gives out are those of the parens ahead. -/
theorem groups_of_run (captures : scope.options.captures = true) (run : Run scope r ps last)
    (done : last.rest = []) (coherent : r.declared.names.Coherent)
    (orderly : Orderly r.declared.names.toList) :
    let marks := (groupParens false r.opened.length r.rest).map (·.mark)
    last.declared.names.toList =
        r.declared.names.toList ++ GroupMark.allNames r.declared.unnamed marks ∧
      ps.filterMap Piece.group? = GroupMark.tags r.declared.names.size marks := by
  induction run with
  | stay r =>
    rw [done]
    exact ⟨(List.append_nil _).symm, rfl⟩
  | @step r s rest p r' ps _ front read run ih =>
    simp only at ih ⊢
    rw [front]
    have coherent' : r'.declared.names.Coherent :=
      coherent_of_pieceAt (r := { r with rest := rest }) read coherent
    rcases groupParens_of_pieceAt read with ⟨_, opens, parens⟩ | ⟨bare, ⟨tag, declared⟩, parens⟩
    · obtain ⟨group, rfl, _, header⟩ := header_of_openGroup opens
      rw [captures] at header
      obtain ⟨mark, opening, orderly', tag, declared⟩ := (header_iff coherent orderly).1 header
      rw [← declared] at orderly'
      obtain ⟨names, tags⟩ := ih done coherent' orderly'
      have ahead : .ahead (glyphs rest) = mark := opening.ahead
      rw [parens, List.map_cons, ahead, List.filterMap_cons_some (f := Piece.group?) rfl, names, tags,
        declared, tag]
      constructor
      · rw [Declared.toList_opening, List.append_assoc]
        rfl
      · exact r.declared.tags_opening mark _
    · have names' : r'.declared.names.toList = r.declared.names.toList := by
        rw [declared]
        exact r.declared.toList_close tag
      have unnamed : r'.declared.unnamed = r.declared.unnamed := by
        rw [declared]
        exact r.declared.unnamed_close tag
      have size : r'.declared.names.size = r.declared.names.size := by
        rw [declared]
        exact r.declared.size_close tag
      rw [← names'] at orderly
      obtain ⟨names, tags⟩ := ih done coherent' orderly
      rw [names', unnamed] at names
      rw [size] at tags
      rw [parens, List.filterMap_cons_none bare]
      exact ⟨names, tags⟩

end Reading

end PatternGraph
