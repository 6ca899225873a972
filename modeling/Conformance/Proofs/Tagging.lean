import Conformance.Data.Reference

/-!
# Tagged values

What tagging makes of a value.  Tagging goes into lists and mappings and leaves tuples as they are
written, so its subject are the parts of a value that no tuple is around (`Literal.Part`).  The
parts of a tagged value are the tagged parts of the value (`part_of_tag`), and nothing is tagged as
a marker (`isMarker_tag`): the one entry of a mapping has null for its value afterwards only if it
had it before.  Statements about a value and what it is tagged as go by `tag_induction`, which has
the cases of tagging: a marker is taken whole, whatever is in it.
-/

namespace Conformance

namespace Literal

/-! ## Parts of values -/

/-- The value occurs in another at some depth: it is the other, or occurs in an item of the list or
tuple that the other is, or in the value of an entry of the mapping that it is. -/
inductive Occurs (m : Literal) : Literal → Prop
  | self : Occurs m m
  | item {items : List Literal} {v : Literal} (hv : v ∈ items) (h : Occurs m v) :
      Occurs m (.list items)
  | member {items : List Literal} {v : Literal} (hv : v ∈ items) (h : Occurs m v) :
      Occurs m (.tuple items)
  | value {entries : List (Key × Literal)} {e : Key × Literal} (he : e ∈ entries)
      (h : Occurs m e.2) : Occurs m (.map entries)

/-- The value occurs in another and no tuple is around it there. -/
inductive Part (m : Literal) : Literal → Prop
  | self : Part m m
  | item {items : List Literal} {v : Literal} (hv : v ∈ items) (h : Part m v) :
      Part m (.list items)
  | value {entries : List (Key × Literal)} {e : Key × Literal} (he : e ∈ entries)
      (h : Part m e.2) : Part m (.map entries)

/-- A part of a part is a part. -/
theorem Part.trans {a b c : Literal} (hab : a.Part b) (hbc : b.Part c) : a.Part c := by
  induction hbc with
  | self => exact hab
  | item hv _ ih => exact .item hv ih
  | value he _ ih => exact .value he ih

/-- What occurs in a value is a part of it or occurs in a tuple that is. -/
theorem Occurs.part_or_in_tuple {m v : Literal} (h : m.Occurs v) :
    m.Part v ∨ ∃ items, (tuple items).Part v ∧ m.Occurs (.tuple items) := by
  induction h with
  | self => exact .inl .self
  | item hv _ ih =>
      rcases ih with hpart | ⟨items, htuple, hin⟩
      · exact .inl (.item hv hpart)
      · exact .inr ⟨items, .item hv htuple, hin⟩
  | member hv h _ => exact .inr ⟨_, .self, .member hv h⟩
  | value he _ ih =>
      rcases ih with hpart | ⟨items, htuple, hin⟩
      · exact .inl (.value he hpart)
      · exact .inr ⟨items, .value he htuple, hin⟩

/-- Every part occurs. -/
theorem Part.occurs {m v : Literal} (h : m.Part v) : m.Occurs v := by
  induction h with
  | self => exact .self
  | item hv _ ih => exact .item hv ih
  | value he _ ih => exact .value he ih

/-! ## Tagging -/

theorem tagAll_eq (items : List Literal) : tagAll items = items.map tag := by
  induction items with
  | nil => rfl
  | cons v vs ih => rw [tagAll, ih, List.map_cons]

theorem tagEntries_eq (entries : List (Key × Literal)) :
    tagEntries entries = entries.map fun e => (e.1, e.2.tag) := by
  induction entries with
  | nil => rfl
  | cons e es ih => rw [tagEntries, ih, List.map_cons]

theorem tag_list (items : List Literal) : tag (.list items) = .list (items.map tag) := by
  rw [tag, tagAll_eq]

/-- A marker is a mapping of one entry, and its value is null. -/
theorem eq_map_of_marker? {v : Literal} {path : String} (h : v.marker? = some path) :
    ∃ key, v = .map [(key, .null)] := by
  unfold marker? at h
  split at h
  · exact ⟨_, rfl⟩
  · cases h

/-- A mapping is tagged as a reference or entry by entry. -/
theorem tag_map (entries : List (Key × Literal)) :
    tag (.map entries) =
      match marker? (.map entries) with
      | some path => .reference (Name.camelize path)
      | none => .map (entries.map fun e => (e.1, e.2.tag)) := by
  rw [tag]
  cases marker? (.map entries) with
  | some path => rfl
  | none => exact congrArg Literal.map (tagEntries_eq entries)

theorem isMarker_eq_true_iff {v : Literal} :
    v.isMarker = true ↔ ∃ path, v.marker? = some path :=
  Option.isSome_iff_exists

theorem marker?_eq_none {v : Literal} (h : v.isMarker = false) : v.marker? = none :=
  Option.isNone_iff_eq_none.mp (Option.isSome_eq_false_iff.mp h)

/-- A marker is tagged as a reference to its path in camel style. -/
theorem tag_of_marker? {v : Literal} {path : String} (h : v.marker? = some path) :
    v.tag = .reference (Name.camelize path) := by
  obtain ⟨key, rfl⟩ := eq_map_of_marker? h
  rw [tag_map, h]

/-- In any other mapping the values are tagged. -/
theorem tag_map_of_not_isMarker {entries : List (Key × Literal)}
    (h : isMarker (.map entries) = false) :
    tag (.map entries) = .map (entries.map fun e => (e.1, e.2.tag)) := by
  rw [tag_map, marker?_eq_none h]

/-- Induction on a value in the cases of tagging: markers are taken whole, lists are built of their
items and other mappings of the values of their entries. -/
@[elab_as_elim]
theorem tag_induction {motive : Literal → Prop} (scalar : ∀ s, motive (.scalar s))
    (reference : ∀ path, motive (.reference path)) (tuple : ∀ items, motive (.tuple items))
    (list : ∀ items, (∀ v ∈ items, motive v) → motive (.list items))
    (marker : ∀ v path, v.marker? = some path → motive v)
    (map : ∀ entries, isMarker (.map entries) = false → (∀ e ∈ entries, motive e.2) →
      motive (.map entries)) :
    ∀ v, motive v
  | .scalar s => scalar s
  | .reference path => reference path
  | .tuple items => tuple items
  | .list items => list items fun v _ => tag_induction scalar reference tuple list marker map v
  | .map entries => by
      cases hmarker : isMarker (.map entries) with
      | true =>
          obtain ⟨path, hpath⟩ := isMarker_eq_true_iff.mp hmarker
          exact marker _ path hpath
      | false =>
          refine map entries hmarker fun e he => ?_
          have hsmaller : sizeOf e.2 < 1 + sizeOf entries := by
            have hentry := List.sizeOf_lt_of_mem he
            rw [Prod.mk.sizeOf_spec] at hentry
            omega
          exact tag_induction scalar reference tuple list marker map e.2

section Inversion

variable {v : Literal}

/-- Nothing but null is tagged as null. -/
theorem eq_null_of_tag (h : v.tag = .null) : v = .null := by
  cases v with
  | scalar s => exact h
  | map entries =>
      rw [tag_map] at h
      split at h <;> cases h
  | _ => cases h

/-- Nothing but a tuple is tagged as a tuple, and it is left as it is. -/
theorem eq_tuple_of_tag {items : List Literal} (h : v.tag = .tuple items) : v = .tuple items := by
  cases v with
  | tuple items => exact h
  | map entries =>
      rw [tag_map] at h
      split at h <;> cases h
  | _ => cases h

/-- Nothing but a list is tagged as a list. -/
theorem eq_list_of_tag {items : List Literal} (h : v.tag = .list items) :
    ∃ written, v = .list written ∧ items = written.map tag := by
  cases v with
  | list written => exact ⟨written, rfl, (Literal.list.inj h).symm.trans (tagAll_eq written)⟩
  | map entries =>
      rw [tag_map] at h
      split at h <;> cases h
  | _ => cases h

/-- Nothing but a mapping that is no marker is tagged as a mapping. -/
theorem eq_map_of_tag {entries : List (Key × Literal)} (h : v.tag = .map entries) :
    ∃ written, v = .map written ∧ v.isMarker = false ∧
      entries = written.map fun e => (e.1, e.2.tag) := by
  cases v with
  | map written =>
      rw [tag_map] at h
      unfold isMarker
      cases hmarker : marker? (.map written) with
      | some path =>
          rw [hmarker] at h
          cases h
      | none =>
          rw [hmarker] at h
          exact ⟨written, rfl, rfl, (Literal.map.inj h).symm⟩
  | _ => cases h

end Inversion

/-- **No value is tagged as a marker.** -/
theorem isMarker_tag (v : Literal) : v.tag.isMarker = false := by
  unfold isMarker
  cases htagged : v.tag.marker? with
  | none => rfl
  | some path =>
      obtain ⟨key, htag⟩ := eq_map_of_marker? htagged
      obtain ⟨written, rfl, hmarker, hone⟩ := eq_map_of_tag htag
      -- The single value is tagged as null, so it is null and the mapping was a marker before.
      obtain ⟨⟨k, u⟩, rfl, hentry⟩ := List.map_eq_singleton_iff.mp hone.symm
      obtain ⟨rfl, hnull⟩ := Prod.mk.inj hentry
      obtain rfl : u = .null := eq_null_of_tag hnull
      unfold isMarker at hmarker
      rw [← htag, htagged] at hmarker
      cases hmarker

/-- **The parts of a tagged value** are the parts of the value, tagged. -/
theorem part_of_tag {u v : Literal} (h : u.Part v.tag) : ∃ w : Literal, w.Part v ∧ u = w.tag := by
  generalize htag : v.tag = t at h
  induction h generalizing v with
  | self => exact ⟨v, .self, htag.symm⟩
  | item hmem _ ih =>
      obtain ⟨written, rfl, rfl⟩ := eq_list_of_tag htag
      obtain ⟨item, hitem, rfl⟩ := List.mem_map.mp hmem
      obtain ⟨w, hw, hu⟩ := ih rfl
      exact ⟨w, .item hitem hw, hu⟩
  | value hmem _ ih =>
      obtain ⟨written, rfl, -, rfl⟩ := eq_map_of_tag htag
      obtain ⟨e, he, rfl⟩ := List.mem_map.mp hmem
      obtain ⟨w, hw, hu⟩ := ih rfl
      exact ⟨w, .value he hw, hu⟩

end Literal

end Conformance
