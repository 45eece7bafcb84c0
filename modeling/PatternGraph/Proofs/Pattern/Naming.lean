import PatternGraph.Proofs.Pattern.Expression

/-!
The names of an expression against the groups that are declared along the pattern: if the names differ
and are only referred to when closed, every declaration finds a new name and every backreference a
closed group, and the other way round.
-/
namespace PatternGraph
open Grammar

namespace Declared
variable {d d' : Declared}

/-- After the mark of a group its name is declared, but not closed. -/
def opening (d : Declared) (mark : GroupMark) : Declared :=
  ⟨d.names.append (mark.names d.unnamed) false, d.unnamed + mark.unnamedCount⟩

def nextTag (d : Declared) : GroupMark → Option TagId
  | .bare => Option.none
  | .unnamed | .named _ => some ⟨d.names.size⟩

def after (d : Declared) (e : Expression) : Declared :=
  ⟨d.names.append (e.names d.unnamed) true, d.unnamed + e.unnamedCount⟩

theorem after_of_no_groups {e : Expression} (bare : e.names d.unnamed = [])
    (none : e.unnamedCount = 0) : d.after e = d := by
  rw [after, bare, none]
  rfl

theorem after_after {e first second : Expression} (d : Declared)
    (names : e.names d.unnamed =
      first.names d.unnamed ++ second.names (d.unnamed + first.unnamedCount))
    (unnamed : e.unnamedCount = first.unnamedCount + second.unnamedCount) :
    (d.after first).after second = d.after e := by
  simp only [after, names, unnamed, GroupNames.append_append, Nat.add_assoc]

theorem closedNames_opening (d : Declared) (mark : GroupMark) :
    (d.opening mark).names.closedNames = d.names.closedNames :=
  (GroupNames.closedNames_append ..).trans (List.append_nil _)

theorem closedNames_after (d : Declared) (e : Expression) :
    (d.after e).names.closedNames = d.names.closedNames ++ e.names d.unnamed :=
  GroupNames.closedNames_append ..

theorem close_after_opening (d : Declared) (mark : GroupMark) (body : Expression) :
    ((d.opening mark).after body).close (d.nextTag mark) = d.after (.group mark body) := by
  simp only [after, opening, Expression.names, Expression.unnamedCount]
  cases mark with
  | bare => simp [close, nextTag, GroupMark.names, GroupNames.append_nil, Nat.add_assoc]
  | unnamed | named name =>
    simp [close, nextTag, GroupMark.names, GroupNames.close_append, Nat.add_assoc]

theorem declare?_eq_some_iff {name : String} {tag : Option TagId} (coherent : d.names.Coherent) :
    d.declare? true name = some (tag, d') ↔ name ∉ d.names.toList ∧ d.names.size < Index.limit ∧
      tag = some ⟨d.names.size⟩ ∧ d' = { d with names := d.names.append [name] false } := by
  rw [← coherent.find?_eq_none]
  constructor
  · intro declared
    obtain ⟨new, ⟨⟨⟩, _⟩ | ⟨_, registered⟩⟩ := declare?_eq_some declared
    exact ⟨new, registered⟩
  · rintro ⟨new, room, rfl, rfl⟩
    have registered : d.names.register name = _ := GroupNames.register_eq_ok_iff.2 ⟨room, rfl, rfl⟩
    simp only [declare?, new, registered, if_true]
    rfl

end Declared

def Orderly (names : List String) : Prop := names.Nodup ∧ names.length ≤ Index.limit

theorem Orderly.of_append {names more : List String} (h : Orderly (names ++ more)) :
    Orderly names := by
  obtain ⟨distinct, room⟩ := h
  rw [List.length_append] at room
  exact ⟨(List.nodup_append.1 distinct).1, by omega⟩

namespace Declared
variable {d : Declared}

theorem toList_opening (d : Declared) (mark : GroupMark) :
    (d.opening mark).names.toList = d.names.toList ++ mark.names d.unnamed :=
  GroupNames.toList_append _ _ _

theorem toList_after (d : Declared) (e : Expression) :
    (d.after e).names.toList = d.names.toList ++ e.names d.unnamed :=
  GroupNames.toList_append _ _ _

/-- The expression may come next: its names are new, and it only refers to closed groups. -/
def Admits (d : Declared) (e : Expression) : Prop :=
  Orderly (d.after e).names.toList ∧ e.RefsClosed d.unnamed d.names.closedNames

theorem admits_cat_iff {first second : Expression} :
    d.Admits (.cat first second) ↔ d.Admits first ∧ (d.after first).Admits second := by
  have joined : (d.after first).after second = d.after (.cat first second) := after_after d rfl rfl
  unfold Admits
  rw [joined, closedNames_after]
  constructor
  · rintro ⟨orderly, refs, refs'⟩
    have both := orderly
    rw [← joined, toList_after] at both
    exact ⟨⟨both.of_append, refs⟩, orderly, refs'⟩
  · rintro ⟨⟨_, refs⟩, orderly, refs'⟩
    exact ⟨orderly, refs, refs'⟩

theorem admits_group_iff {mark : GroupMark} {body : Expression} :
    d.Admits (.group mark body) ↔ (d.opening mark).Admits body := by
  have same : ((d.opening mark).after body).names.toList =
      (d.after (.group mark body)).names.toList := by
    rw [toList_after, toList_after, toList_opening, List.append_assoc]
    rfl
  unfold Admits
  rw [same, closedNames_opening]
  rfl

theorem Admits.opening {mark : GroupMark} {body : Expression} (h : (d.opening mark).Admits body) :
    Orderly d.names.toList ∧ Orderly (d.opening mark).names.toList := by
  have opened : Orderly (d.opening mark).names.toList := by
    have orderly := h.1
    rw [toList_after] at orderly
    exact orderly.of_append
  have before := opened
  rw [toList_opening] at before
  exact ⟨before.of_append, opened⟩

theorem orderly_opening_iff {mark : GroupMark} (orderly : Orderly d.names.toList) :
    Orderly (d.opening mark).names.toList ↔
      ∀ name ∈ mark.names d.unnamed, name ∉ d.names.toList ∧ d.names.size < Index.limit := by
  have size := d.names.length_toList
  have single (name : String) : (d.names.toList ++ [name]).Nodup ↔ name ∉ d.names.toList := by
    rw [← List.concat_eq_append, List.nodup_concat]
    exact and_iff_left orderly.1
  rw [toList_opening, Orderly, List.length_append, size]
  cases mark with
  | bare =>
    have room := orderly.2
    rw [size] at room
    simpa [GroupMark.names, orderly.1] using room
  | unnamed | named name => simp [GroupMark.names, single, Nat.succ_le_iff]

end Declared

namespace Grammar

theorem header_iff {d d' : Declared} {gs after : List Glyph} {tag : Option TagId}
    (coherent : d.names.Coherent) (orderly : Orderly d.names.toList) :
    Header true d gs tag d' after ↔ ∃ mark, Opening gs mark after ∧
      Orderly (d.opening mark).names.toList ∧ tag = d.nextTag mark ∧ d' = d.opening mark := by
  simp only [Declared.orderly_opening_iff orderly]
  have numbered := @Declared.declare?_eq_some_iff { d with unnamed := d.unnamed + 1 }
  constructor
  · intro header
    cases header with
    | unnamed plain declared =>
      obtain ⟨new, room, rfl, rfl⟩ := (numbered coherent).1 declared
      exact ⟨.unnamed, .unnamed plain, by simpa [GroupMark.names] using ⟨new, room⟩, rfl, rfl⟩
    | bare =>
      refine ⟨.bare, .bare, by simp [GroupMark.names], rfl, ?_⟩
      simp [Declared.opening, GroupMark.names, GroupMark.unnamedCount, GroupNames.append_nil]
    | named name declared =>
      obtain ⟨new, room, rfl, rfl⟩ := (Declared.declare?_eq_some_iff coherent).1 declared
      exact ⟨.named _, .named name, by simpa [GroupMark.names] using ⟨new, room⟩, rfl, rfl⟩
  · rintro ⟨mark, opening, fresh, rfl, rfl⟩
    cases opening with
    | unnamed plain =>
      obtain ⟨new, room⟩ := fresh _ List.mem_cons_self
      exact .unnamed plain ((numbered coherent).2 ⟨new, room, rfl, rfl⟩)
    | bare =>
      have same : d.opening .bare = d := by
        simp [Declared.opening, GroupMark.names, GroupMark.unnamedCount, GroupNames.append_nil]
      rw [same]
      exact .bare
    | named name =>
      obtain ⟨new, room⟩ := fresh _ List.mem_cons_self
      exact .named name ((Declared.declare?_eq_some_iff coherent).2 ⟨new, room, rfl, rfl⟩)

/-- What is spelled with its groups resolved is generated, and the names are in order. -/
theorem Spells.generates {kind : Kind} {d d' : Declared} {gs after : List Glyph} {t : Tree}
    (h : Spells true kind d gs t d' after) (coherent : d.names.Coherent)
    (orderly : Orderly d.names.toList) :
    ∃ e, Generates kind gs e after ∧ d' = d.after e ∧ d.Admits e := by
  have single {d : Declared} {e : Expression} (orderly : Orderly d.names.toList)
      (same : d.after e = d) (refs : e.RefsClosed d.unnamed d.names.closedNames) :
      d = d.after e ∧ d.Admits e := by
    refine ⟨same.symm, ?_, refs⟩
    rwa [same]
  induction h with
  | literal stands =>
    exact ⟨_, .literal stands, single orderly (Declared.after_of_no_groups rfl rfl) trivial⟩
  | any => exact ⟨_, .any, single orderly (Declared.after_of_no_groups rfl rfl) trivial⟩
  | charClass inner =>
    exact ⟨_, .charClass inner, single orderly (Declared.after_of_no_groups rfl rfl) trivial⟩
  | backref name found closed =>
    have refs := (GroupNames.mem_closedNames_iff coherent).2 ⟨_, found, closed⟩
    exact ⟨_, .backref name, single orderly (Declared.after_of_no_groups rfl rfl) refs⟩
  | done => exact ⟨_, .done, single orderly (Declared.after_of_no_groups rfl rfl) trivial⟩
  | group header _ ih =>
    have inside := header.coherent coherent
    obtain ⟨mark, opening, opened, rfl, rfl⟩ := (header_iff coherent orderly).1 header
    obtain ⟨e, body, rfl, admits⟩ := ih inside opened
    exact ⟨_, .group opening body, Declared.close_after_opening _ _ _,
      Declared.admits_group_iff.2 admits⟩
  | once item _ one other =>
    have next := item.coherent coherent
    obtain ⟨e, first, rfl, admits⟩ := one coherent orderly
    obtain ⟨e', second, rfl, admits'⟩ := other next admits.1
    exact ⟨_, .once first second, Declared.after_after _ rfl rfl,
      Declared.admits_cat_iff.2 ⟨admits, admits'⟩⟩
  | repeated item quantifier _ one other =>
    have next := item.coherent coherent
    obtain ⟨e, first, rfl, admits⟩ := one coherent orderly
    obtain ⟨e', second, rfl, admits'⟩ := other next admits.1
    exact ⟨_, .repeated first quantifier second, Declared.after_after _ rfl rfl,
      Declared.admits_cat_iff.2 ⟨admits, admits'⟩⟩
  | only _ ih =>
    obtain ⟨e, sequence, rest⟩ := ih coherent orderly
    exact ⟨e, .only sequence, rest⟩
  | either sequence _ one other =>
    have next := sequence.coherent coherent
    obtain ⟨e, first, rfl, admits⟩ := one coherent orderly
    obtain ⟨e', second, rfl, admits'⟩ := other next admits.1
    exact ⟨_, .either first second, Declared.after_after _ rfl rfl,
      Declared.admits_cat_iff.2 ⟨admits, admits'⟩⟩

theorem Generates.spells {kind : Kind} {gs after : List Glyph} {e : Expression}
    (h : Generates kind gs e after) {d : Declared} (coherent : d.names.Coherent)
    (admits : d.Admits e) :
    ∃ t, Spells true kind d gs t (d.after e) after := by
  induction h generalizing d with
  | literal stands =>
    rw [Declared.after_of_no_groups rfl rfl]
    exact ⟨_, .literal stands⟩
  | any =>
    rw [Declared.after_of_no_groups rfl rfl]
    exact ⟨_, .any⟩
  | charClass inner =>
    rw [Declared.after_of_no_groups rfl rfl]
    exact ⟨_, .charClass inner⟩
  | backref name =>
    obtain ⟨_, refs⟩ := admits
    rw [Declared.after_of_no_groups rfl rfl]
    obtain ⟨tag, found, closed⟩ := (GroupNames.mem_closedNames_iff coherent).1 refs
    exact ⟨_, .backref name found closed⟩
  | done =>
    rw [Declared.after_of_no_groups rfl rfl]
    exact ⟨_, .done⟩
  | @group _ mark _ body _ opening _ ih =>
    have inside := Declared.admits_group_iff.1 admits
    obtain ⟨orderly, opened⟩ := inside.opening
    have header := (header_iff coherent orderly).2 ⟨mark, opening, opened, rfl, rfl⟩
    obtain ⟨t, spells⟩ := ih (header.coherent coherent) inside
    rw [← Declared.close_after_opening]
    exact ⟨_, .group header spells⟩
  | once _ _ one other =>
    obtain ⟨admits, admits'⟩ := Declared.admits_cat_iff.1 admits
    obtain ⟨t, first⟩ := one coherent admits
    obtain ⟨t', second⟩ := other (first.coherent coherent) admits'
    rw [← Declared.after_after d rfl rfl]
    exact ⟨_, .once first second⟩
  | repeated _ quantifier _ one other =>
    obtain ⟨admits, admits'⟩ := Declared.admits_cat_iff.1 admits
    obtain ⟨t, first⟩ := one coherent admits
    obtain ⟨t', second⟩ := other (first.coherent coherent) admits'
    rw [← Declared.after_after d rfl rfl]
    exact ⟨_, .repeated first quantifier second⟩
  | only _ ih =>
    obtain ⟨t, sequence⟩ := ih coherent admits
    exact ⟨t, .only sequence⟩
  | either _ _ one other =>
    obtain ⟨admits, admits'⟩ := Declared.admits_cat_iff.1 admits
    obtain ⟨t, first⟩ := one coherent admits
    obtain ⟨t', second⟩ := other (first.coherent coherent) admits'
    rw [← Declared.after_after d rfl rfl]
    exact ⟨_, .either first second⟩

end Grammar

theorem wellFormed_iff_denotes {options : Options} {pattern : String}
    (captures : options.captures = true) (short : pattern.toList.length ≤ Index.limit) :
    WellFormed pattern ↔ ∃ t names, Denotes options pattern t names := by
  have names (e : Expression) : (Declared.none.after e).names.toList = e.names 0 :=
    Declared.toList_after .none e
  constructor
  · rintro ⟨gs, e, lexed, generates, distinct, refs⟩
    have fewer := generates.length_names_le 0
    have shorter := lexed.length_le
    have admits : Declared.none.Admits e := by
      refine ⟨?_, refs⟩
      rw [names]
      exact ⟨distinct, by omega⟩
    obtain ⟨t, spells⟩ := generates.spells GroupNames.coherent_empty admits
    exact ⟨t, _, gs, _, lexed, captures ▸ spells⟩
  · rintro ⟨t, _, gs, unnamed, lexed, spells⟩
    rw [captures] at spells
    obtain ⟨e, generates, _, orderly, refs⟩ := spells.generates GroupNames.coherent_empty ⟨List.nodup_nil, Nat.zero_le _⟩
    rw [names] at orderly
    exact ⟨gs, e, lexed, generates, orderly.1, refs⟩

end PatternGraph
