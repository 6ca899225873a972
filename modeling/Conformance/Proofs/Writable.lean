import Conformance.Feature.Parse
import Conformance.Proofs.Binding
import Conformance.Proofs.Tagging

/-!
# What can be written

A feature has a text, and the text needs one for each value in it.  What cannot be
written are tuples with certain mappings in them.  Reading an entry makes no tuple, so
an entry that can be written has its text if it is a feature: `Feature.parse_fault` says
that reading one fails for its grammar only.
-/

namespace Conformance

namespace Literal

/-- The value has a feature text. -/
def Writable (v : Literal) : Prop := v.unwritable? = none

/-- Values can be written together if each of them can. -/
theorem unwritableAll?_eq_none_iff {vs : List Literal} :
    unwritableAll? vs = none ↔ ∀ v ∈ vs, v.Writable := by
  induction vs with
  | nil => simp [unwritableAll?]
  | cons v vs ih =>
      rw [unwritableAll?, Option.or_eq_none_iff, ih, List.forall_mem_cons]
      rfl

/-- Entries can be written together if their values can: keys are written as texts. -/
theorem unwritableEntries?_eq_none_iff {es : List (Key × Literal)} :
    unwritableEntries? es = none ↔ ∀ e ∈ es, e.2.Writable := by
  induction es with
  | nil => simp [unwritableEntries?]
  | cons e es ih =>
      rw [unwritableEntries?, Option.or_eq_none_iff, ih, List.forall_mem_cons]
      rfl

theorem writable_list_iff {items : List Literal} :
    (list items).Writable ↔ ∀ v ∈ items, v.Writable := by
  unfold Writable
  rw [unwritable?]
  exact unwritableAll?_eq_none_iff

theorem writable_map_iff {entries : List (Key × Literal)} :
    (map entries).Writable ↔ ∀ e ∈ entries, e.2.Writable := by
  unfold Writable
  rw [unwritable?]
  exact unwritableEntries?_eq_none_iff

/-- A value that can be written can be written with its markers replaced. -/
theorem Writable.tag {v : Literal} (h : v.Writable) : v.tag.Writable := by
  induction v using tag_induction with
  | scalar s => exact h
  | reference path => exact h
  | tuple items => exact h
  | list items ih =>
      rw [tag_list, writable_list_iff, List.forall_mem_map]
      exact fun v hv => ih v hv (writable_list_iff.mp h v hv)
  | marker v path hpath =>
      rw [tag_of_marker? hpath]
      rfl
  | map entries hmarker ih =>
      rw [tag_map_of_not_isMarker hmarker, writable_map_iff, List.forall_mem_map]
      exact fun e he => ih e he (writable_map_iff.mp h e he)

end Literal

/-! ## Features -/

namespace CallItem

/-- The value of the item can be written. -/
def Writable : CallItem → Prop
  | .positional v | .keyword _ v | .expected v => v.Writable

/-- Reading an item of a call keeps what can be written. -/
theorem ofLiteral_writable {item : Literal} (h : item.Writable) : (ofLiteral item).Writable := by
  unfold ofLiteral
  split
  · have hvalue := (Literal.writable_map_iff.mp h) _ (List.mem_singleton.mpr rfl)
    split
    · exact h
    · split
      · exact hvalue
      · split
        · exact hvalue
        · exact h
  · exact h

end CallItem

namespace CallList

/-- All that the items have given can be written. -/
structure Writable (list : CallList) : Prop where
  args : ∀ v ∈ list.args, v.Writable
  kwargs : ∀ kw ∈ list.kwargs, kw.2.Writable
  expected : list.expected.Writable

theorem empty_writable : empty.Writable := ⟨nofun, nofun, rfl⟩

/-- One more item that can be written. -/
theorem Writable.add {list : CallList} (h : list.Writable) {item : Literal}
    (hitem : item.Writable) : (list.add item).Writable := by
  have hkind := CallItem.ofLiteral_writable hitem
  unfold CallList.add
  cases hof : CallItem.ofLiteral item with
  | positional value =>
      rw [hof] at hkind
      have hone : ∀ v ∈ [value.tag], v.Writable :=
        List.forall_mem_singleton.mpr (Literal.Writable.tag hkind)
      exact ⟨List.forall_mem_append.mpr ⟨h.args, hone⟩, h.kwargs, h.expected⟩
  | keyword name value =>
      rw [hof] at hkind
      exact ⟨h.args, forall_setNamed h.kwargs name (Literal.Writable.tag hkind), h.expected⟩
  | expected value =>
      rw [hof] at hkind
      exact ⟨h.args, h.kwargs, hkind⟩

/-- All items can be written. -/
theorem read_writable {items : List Literal} (h : ∀ item ∈ items, item.Writable) :
    (read items).Writable := by
  have hfrom : ∀ {list : CallList}, list.Writable → (items.foldl CallList.add list).Writable := by
    induction items with
    | nil => exact fun hlist => hlist
    | cons item items ih =>
        rw [List.forall_mem_cons] at h
        exact fun hlist => ih h.2 (hlist.add h.1)
  exact hfrom empty_writable

end CallList

namespace Feature

/-- Tagging an expectation keeps what can be written. -/
theorem tagExpected_writable {v : Literal} (h : v.Writable) : (tagExpected v).Writable := by
  unfold tagExpected
  split
  · rfl
  · exact h.tag

/-- A call can be written if its items can. -/
theorem callAction_writable {items : List Literal} (h : ∀ v ∈ items, v.Writable)
    (assign : Option String) (property : String) :
    (callAction assign property items).unwritable? = none := by
  have hread := CallList.read_writable h
  unfold callAction Action.unwritable?
  dsimp only
  rw [Option.or_eq_none_iff, Option.or_eq_none_iff]
  refine ⟨⟨Literal.unwritableAll?_eq_none_iff.mpr hread.args,
    Literal.unwritableAll?_eq_none_iff.mpr ?_⟩, tagExpected_writable hread.expected⟩
  intro v hv
  obtain ⟨kw, hkw, rfl⟩ := List.mem_map.mp hv
  exact hread.kwargs kw hkw

/-- What a key does with a value that can be written can be written. -/
theorem actionOf_writable {right : Literal} (h : right.Writable) (form : FeatureKey.Form) :
    (actionOf form right).unwritable? = none := by
  cases form with
  | value target => exact tagExpected_writable h
  | read assign property => exact tagExpected_writable h
  | operand assign property =>
      cases right with
      | list items => exact callAction_writable (Literal.writable_list_iff.mp h) assign property
      | scalar s => exact tagExpected_writable h
      | reference path => exact tagExpected_writable h
      | tuple items => exact tagExpected_writable h
      | map entries => exact tagExpected_writable h

/-- **An entry is no feature** for its grammar, or because what it says cannot be written. -/
theorem parse_error_cases {entry : Literal} {target : String} {fault : Fault}
    (hparse : parse entry target = .error fault) :
    (∃ why, fault = .malformed why) ∨ (¬ entry.Writable ∧ ∃ type, fault = .jsonKey type) := by
  unfold parse at hparse
  split at hparse
  · unfold ofEntry at hparse
    split at hparse
    · cases hparse
      exact Or.inl ⟨_, rfl⟩
    · split at hparse
      · cases hparse
        exact Or.inl ⟨_, rfl⟩
      · dsimp only at hparse
        split at hparse
        · next bad hbad =>
            cases hparse
            refine Or.inr ⟨fun h => ?_, _, rfl⟩
            have hright := Literal.writable_map_iff.mp h _ (List.mem_singleton.mpr rfl)
            cases (actionOf_writable hright _).symm.trans hbad
        · cases hparse
  · split at hparse
    · cases hparse
    · cases hparse
      exact Or.inl ⟨_, rfl⟩

/-- Reading an entry that can be written fails for its grammar only. -/
theorem parse_fault {entry : Literal} (h : entry.Writable) {target : String} {fault : Fault}
    (hparse : parse entry target = .error fault) : ∃ why, fault = .malformed why := by
  rcases parse_error_cases hparse with hwhy | ⟨hnot, -⟩
  · exact hwhy
  · exact absurd h hnot

end Feature

end Conformance
