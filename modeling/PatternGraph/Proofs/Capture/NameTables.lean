import Mathlib.Data.List.Nodup
import PatternGraph.Capture.GroupNames

/-!
The two tables of group names stay in step. The table by names is only right as long as no name is
registered twice, which `register` leaves to its callers.
-/
namespace PatternGraph
namespace GroupNames
variable {names names' : GroupNames} {name other : String} {tag : TagId} {closed : Bool}

/-- A name is found at the group that has it, and nowhere else. -/
def Coherent (names : GroupNames) : Prop :=
  ∀ name tag, names.find? name = some tag ↔ names.nameOf? tag = some name

theorem coherent_empty : empty.Coherent := by
  intro name tag
  simp [find?, nameOf?, empty]

theorem nameOf?_eq (names : GroupNames) (tag : TagId) :
    names.nameOf? tag = names.toList[tag.val]? := by
  simp [nameOf?, toList]

theorem length_toList (names : GroupNames) : names.toList.length = names.size := by
  simp [toList, size]

theorem lt_size_of_nameOf? (named : names.nameOf? tag = some name) : tag.val < names.size := by
  rw [nameOf?_eq] at named
  rw [← length_toList]
  exact (List.getElem?_eq_some_iff.1 named).1

namespace Coherent
variable (h : names.Coherent)
include h

theorem lt_size_of_find? (found : names.find? name = some tag) : tag.val < names.size :=
  lt_size_of_nameOf? ((h name tag).1 found)

theorem find?_eq_none : names.find? name = none ↔ name ∉ names.toList := by
  rw [List.mem_iff_getElem?]
  constructor
  · rintro none ⟨i, here⟩
    have named : names.nameOf? ⟨i⟩ = some name := (nameOf?_eq _ _).trans here
    rw [(h name ⟨i⟩).2 named] at none
    cases none
  · intro absent
    apply Option.eq_none_iff_forall_ne_some.2
    intro tag found
    exact absent ⟨tag.val, (nameOf?_eq _ _).symm.trans ((h name tag).1 found)⟩

theorem nodup : names.toList.Nodup := by
  rw [List.nodup_iff_getElem?_ne_getElem?]
  intro i j before inside same
  have here := List.getElem?_eq_getElem (Nat.lt_trans before inside)
  rw [here] at same
  have first := (h _ ⟨i⟩).2 ((nameOf?_eq _ _).trans here)
  have second := (h _ ⟨j⟩).2 ((nameOf?_eq _ _).trans same.symm)
  rw [first, Option.some.injEq, Index.mk.injEq] at second
  omega

end Coherent

def push (names : GroupNames) (name : String) (closed : Bool) : GroupNames :=
  ⟨names.groups.push ⟨name, closed⟩, (name, ⟨names.size⟩) :: names.byName⟩

/-- A closed group that has no name of its own, and no others. -/
def single : GroupNames := empty.push "1" true

theorem register_eq_ok_iff : names.register name = .ok (tag, names') ↔
    names.size < Index.limit ∧ tag = ⟨names.size⟩ ∧ names' = names.push name false := by
  constructor
  · intro registered
    unfold register at registered
    cases index : Index.ofNat? .tag names.size with
    | error e =>
      rw [index] at registered
      cases registered
    | ok i =>
      rw [index] at registered
      cases registered
      obtain ⟨room, rfl⟩ := Index.ofNat?_eq_ok_iff.1 index
      exact ⟨Nat.lt_succ_of_le room, rfl, rfl⟩
  · rintro ⟨room, rfl, rfl⟩
    have index : Index.ofNat? .tag names.size = .ok ⟨names.size⟩ :=
      Index.ofNat?_eq_ok_iff.2 ⟨Nat.le_of_lt_succ room, rfl⟩
    rw [register, index]
    rfl

theorem size_push (names : GroupNames) (name : String) (closed : Bool) :
    (names.push name closed).size = names.size + 1 :=
  Array.size_push ..

theorem toList_push (names : GroupNames) (name : String) (closed : Bool) :
    (names.push name closed).toList = names.toList ++ [name] := by
  simp [toList, push]

theorem find?_push (names : GroupNames) (name other : String) (closed : Bool) :
    (names.push name closed).find? other =
      if other = name then some ⟨names.size⟩ else names.find? other := by
  by_cases same : other = name
  · simp [find?, push, same]
  · rw [if_neg same, find?, push, List.lookup_cons, beq_eq_false_iff_ne.2 same]
    rfl

theorem nameOf?_push (names : GroupNames) (name : String) (closed : Bool) (tag : TagId) :
    (names.push name closed).nameOf? tag =
      if tag = ⟨names.size⟩ then some name else names.nameOf? tag := by
  rw [nameOf?, push, Array.getElem?_push]
  by_cases last : tag.val = names.groups.size
  · have last' : tag = ⟨names.size⟩ := Index.eq_of_val last
    rw [if_pos last, if_pos last']
    rfl
  · have other : tag ≠ ⟨names.size⟩ := fun same => last (congrArg Index.val same)
    rw [if_neg last, if_neg other]
    rfl

theorem Coherent.push (h : names.Coherent) (new : names.find? name = none) (closed : Bool) :
    (names.push name closed).Coherent := by
  intro other tag
  rw [find?_push, nameOf?_push]
  by_cases same : other = name
  · subst same
    rw [if_pos rfl]
    by_cases last : tag = ⟨names.size⟩
    · simp [last]
    · have absent : names.nameOf? tag ≠ some other := by
        rw [ne_eq, ← h, new]
        exact nofun
      rw [if_neg last]
      simp [absent, Ne.symm last]
  · rw [if_neg same]
    by_cases last : tag = ⟨names.size⟩
    · have absent : names.find? other ≠ some tag := by
        intro found
        have inside := h.lt_size_of_find? found
        rw [last] at inside
        exact Nat.lt_irrefl _ inside
      rw [if_pos last]
      simp [absent, Ne.symm same]
    · rw [if_neg last]
      exact h other tag

section Closing

theorem size_close (names : GroupNames) (tag : TagId) : (names.close tag).size = names.size := by
  simp [close, size]

theorem toList_close (names : GroupNames) (tag : TagId) : (names.close tag).toList = names.toList := by
  apply List.ext_getElem?
  intro i
  simp only [toList, close, List.getElem?_map, Array.getElem?_toList, Array.getElem?_modify]
  split
  · cases names.groups[i]? <;> rfl
  · rfl

theorem Coherent.close (h : names.Coherent) (tag : TagId) : (names.close tag).Coherent := by
  intro name other
  rw [nameOf?_eq, toList_close, ← nameOf?_eq]
  exact h name other

theorem close_push_of_lt (inside : tag.val < names.size) (name : String) (closed : Bool) :
    (names.push name closed).close tag = (names.close tag).push name closed := by
  have groups : (names.groups.push ⟨name, closed⟩).modify tag.val ({ · with closed := true }) =
      (names.groups.modify tag.val ({ · with closed := true })).push ⟨name, closed⟩ := by
    apply Array.ext_getElem?
    intro i
    have inside : tag.val < names.groups.size := inside
    simp only [Array.getElem?_modify, Array.getElem?_push, Array.size_modify]
    grind
  rw [close, push, push, size_close]
  exact congrArg (GroupNames.mk · _) groups

theorem close_push (names : GroupNames) (name : String) :
    (names.push name false).close ⟨names.size⟩ = names.push name true := by
  have groups : (names.groups.push ⟨name, false⟩).modify names.groups.size
      ({ · with closed := true }) = names.groups.push ⟨name, true⟩ := by
    apply Array.ext_getElem?
    intro i
    simp only [Array.getElem?_modify, Array.getElem?_push]
    grind
  exact congrArg (GroupNames.mk · _) groups

end Closing

def append (names : GroupNames) (more : List String) (closed : Bool) : GroupNames :=
  more.foldl (fun names name => names.push name closed) names

theorem append_nil (names : GroupNames) (closed : Bool) : names.append [] closed = names := rfl

theorem append_cons (names : GroupNames) (name : String) (more : List String) (closed : Bool) :
    names.append (name :: more) closed = (names.push name closed).append more closed := rfl

theorem append_append (names : GroupNames) (more others : List String) (closed : Bool) :
    (names.append more closed).append others closed = names.append (more ++ others) closed :=
  List.foldl_append.symm

theorem toList_append (names : GroupNames) (more : List String) (closed : Bool) :
    (names.append more closed).toList = names.toList ++ more := by
  induction more generalizing names with
  | nil => exact (List.append_nil _).symm
  | cons name more ih => rw [append_cons, ih, toList_push, List.append_assoc, List.singleton_append]

theorem size_append (names : GroupNames) (more : List String) (closed : Bool) :
    (names.append more closed).size = names.size + more.length := by
  rw [← length_toList, toList_append, List.length_append, length_toList]

theorem close_append_of_lt (inside : tag.val < names.size) (more : List String) (closed : Bool) :
    (names.append more closed).close tag = (names.close tag).append more closed := by
  induction more generalizing names with
  | nil => rfl
  | cons name more ih =>
    rw [append_cons, append_cons, ih, close_push_of_lt inside]
    rw [size_push]
    exact Nat.lt_succ_of_lt inside

theorem close_append (names : GroupNames) (name : String) (more : List String) :
    ((names.append [name] false).append more true).close ⟨names.size⟩ =
      names.append (name :: more) true := by
  rw [append_cons, append_nil, close_append_of_lt, close_push]
  · rfl
  · rw [size_push]
    exact Nat.lt_succ_self _

def closedNames (names : GroupNames) : List String :=
  (names.groups.toList.filter (·.closed)).map (·.name)

theorem closedNames_append (names : GroupNames) (more : List String) (closed : Bool) :
    (names.append more closed).closedNames =
      names.closedNames ++ if closed then more else [] := by
  have one (names : GroupNames) (name : String) : (names.push name closed).closedNames =
      names.closedNames ++ if closed then [name] else [] := by
    cases closed <;> simp [closedNames, push, List.filter_append]
  induction more generalizing names with
  | nil => simp [append_nil]
  | cons name more ih =>
    rw [append_cons, ih, one]
    cases closed <;> simp

theorem mem_closedNames_iff (h : names.Coherent) : name ∈ names.closedNames ↔
    ∃ tag, names.find? name = some tag ∧ names.isClosed tag = true := by
  simp only [closedNames, List.mem_map, List.mem_filter]
  constructor
  · rintro ⟨group, ⟨mem, closed⟩, rfl⟩
    obtain ⟨i, inside, rfl⟩ := List.getElem_of_mem mem
    rw [Array.length_toList] at inside
    rw [Array.getElem_toList] at closed ⊢
    refine ⟨⟨i⟩, (h _ _).2 ?_, ?_⟩
    · rw [nameOf?, Array.getElem?_eq_getElem inside]
      rfl
    · rw [isClosed, Array.getElem?_eq_getElem inside]
      exact closed
  · rintro ⟨tag, found, closed⟩
    obtain ⟨group, here, rfl⟩ := Option.map_eq_some_iff.1 ((h _ _).1 found)
    rw [isClosed, here] at closed
    obtain ⟨inside, rfl⟩ := Array.getElem?_eq_some_iff.1 here
    exact ⟨_, ⟨Array.getElem_mem_toList inside, closed⟩, rfl⟩

theorem isClosed_append {more : List String}
    (all : ∀ tag : TagId, tag.val < names.size → names.isClosed tag = true) (tag : TagId)
    (inside : tag.val < (names.append more true).size) :
    (names.append more true).isClosed tag = true := by
  induction more generalizing names with
  | nil => exact all tag inside
  | cons name more ih =>
    have pushed (tag : TagId) (inside : tag.val < (names.push name true).size) :
        (names.push name true).isClosed tag = true := by
      rw [isClosed, push, Array.getElem?_push]
      by_cases last : tag.val = names.groups.size
      · rw [if_pos last]
      · rw [if_neg last]
        rw [size_push] at inside
        exact all tag (Nat.lt_of_le_of_ne (Nat.le_of_lt_succ inside) last)
    exact ih pushed inside

end GroupNames
end PatternGraph
