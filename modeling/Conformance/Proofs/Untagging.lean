import Conformance.Proofs.Relocation
import Conformance.Proofs.Tagging

/-!
# Untagging tagged values

Untagging writes every reference as a marker again.  A tagged value has references where the value
had markers, and nowhere else if the value had none before; so untagging it gives the value with
its markers in camel style (`untag_tagged`), and whether it has references tells whether the value
has markers.

Tagging, untagging and the search for references are recursions of their own over the same nested
values.  They agree because each of them says the same of a marker, and of a list or another
mapping what it says of its members (`markerIn_of_marker?`, `markerIn_list_iff`,
`markerIn_map_iff`); each statement is then an induction in the cases of tagging.
-/

namespace Conformance

namespace Literal

/-! ## Markers in a value -/

/-- The first value is a marker and a part of the second. -/
def MarkerIn (m v : Literal) : Prop := m.Part v ∧ m.isMarker = true

variable {m v : Literal} {items : List Literal} {entries : List (Key × Literal)}

/-- There is no marker in a scalar. -/
theorem not_markerIn_scalar {s : Scalar} : ¬ MarkerIn m (.scalar s) := by
  rintro ⟨hpart, hmarker⟩
  cases hpart
  cases hmarker

/-- Nor is one looked for in a tuple. -/
theorem not_markerIn_tuple : ¬ MarkerIn m (.tuple items) := by
  rintro ⟨hpart, hmarker⟩
  cases hpart
  cases hmarker

/-- The markers in a list are those in its items. -/
theorem markerIn_list_iff : MarkerIn m (.list items) ↔ ∃ v ∈ items, MarkerIn m v := by
  constructor
  · rintro ⟨hpart, hmarker⟩
    cases hpart with
    | self => cases hmarker
    | item hv h => exact ⟨_, hv, h, hmarker⟩
  · rintro ⟨v, hv, h, hmarker⟩
    exact ⟨.item hv h, hmarker⟩

/-- The markers in a mapping that is none itself are those in the values of its entries. -/
theorem markerIn_map_iff (hnone : isMarker (.map entries) = false) :
    MarkerIn m (.map entries) ↔ ∃ e ∈ entries, MarkerIn m e.2 := by
  constructor
  · rintro ⟨hpart, hmarker⟩
    cases hpart with
    | self => exact absurd hmarker (by rw [hnone]; decide)
    | value he h => exact ⟨_, he, h, hmarker⟩
  · rintro ⟨e, he, h, hmarker⟩
    exact ⟨.value he h, hmarker⟩

/-- In a marker there is no marker but itself. -/
theorem markerIn_of_marker? {path : String} (h : v.marker? = some path) :
    MarkerIn m v ↔ m = v := by
  constructor
  · rintro ⟨hpart, hmarker⟩
    obtain ⟨key, rfl⟩ := eq_map_of_marker? h
    cases hpart with
    | self => rfl
    | value he hnull =>
        obtain rfl := List.mem_singleton.mp he
        exact absurd ⟨hnull, hmarker⟩ not_markerIn_scalar
  · rintro rfl
    exact ⟨.self, isMarker_eq_true_iff.mpr ⟨path, h⟩⟩

/-- The path of a marker that is written for a path. -/
theorem eq_of_marker?_marker {path path' : String} (h : (marker path).marker? = some path') :
    path = path' := by
  have hfilter : (some path).filter (fun path => path != "") = some path' := h
  exact Option.some.inj (Option.filter_eq_some_iff.mp hfilter).1

/-! ## The traversals, member by member -/

theorem untagAll_eq (items : List Literal) : untagAll items = items.map untag := by
  induction items with
  | nil => rfl
  | cons v vs ih => rw [untagAll, ih, List.map_cons]

theorem untagEntries_eq (entries : List (Key × Literal)) :
    untagEntries entries = entries.map fun e => (e.1, e.2.untag) := by
  induction entries with
  | nil => rfl
  | cons e es ih => rw [untagEntries, ih, List.map_cons]

theorem hasReferenceAny_eq (items : List Literal) :
    hasReferenceAny items = items.any hasReference := by
  induction items with
  | nil => rfl
  | cons v vs ih => rw [hasReferenceAny, ih, List.any_cons]

theorem hasReferenceEntries_eq (entries : List (Key × Literal)) :
    hasReferenceEntries entries = entries.any fun e => e.2.hasReference := by
  induction entries with
  | nil => rfl
  | cons e es ih => rw [hasReferenceEntries, ih, List.any_cons]

theorem untag_list (items : List Literal) : untag (.list items) = .list (items.map untag) := by
  rw [untag, untagAll_eq]

theorem untag_map (entries : List (Key × Literal)) :
    untag (.map entries) = .map (entries.map fun e => (e.1, e.2.untag)) := by
  rw [untag, untagEntries_eq]

theorem hasReference_list (items : List Literal) :
    hasReference (.list items) = items.any hasReference := by
  rw [hasReference, hasReferenceAny_eq]

theorem hasReference_map (entries : List (Key × Literal)) :
    hasReference (.map entries) = entries.any fun e => e.2.hasReference := by
  rw [hasReference, hasReferenceEntries_eq]

/-- A list has no references if none of its items has. -/
theorem not_hasReference_list_iff :
    hasReference (.list items) = false ↔ ∀ v ∈ items, v.hasReference = false := by
  simp only [hasReference_list, List.any_eq_false, Bool.not_eq_true]

/-- A mapping has no references if none of its values has. -/
theorem not_hasReference_map_iff :
    hasReference (.map entries) = false ↔ ∀ e ∈ entries, e.2.hasReference = false := by
  simp only [hasReference_map, List.any_eq_false, Bool.not_eq_true]

/-! ## Markers spelled anew -/

mutual

/-- The value with the path of every marker spelled by `f`. -/
def respell (f : String → String) : Literal → Literal
  | .map entries =>
    match marker? (.map entries) with
    | some path => marker (f path)
    | none => .map (respellEntries f entries)
  | .list items => .list (respellAll f items)
  | v => v

/-- Values with the path of every marker spelled by `f`. -/
def respellAll (f : String → String) : List Literal → List Literal
  | [] => []
  | v :: vs => respell f v :: respellAll f vs

/-- Entries with the path of every marker among the values spelled by `f`. -/
def respellEntries (f : String → String) : List (Key × Literal) → List (Key × Literal)
  | [] => []
  | (k, v) :: es => (k, respell f v) :: respellEntries f es

end

variable {f : String → String}

theorem respellAll_eq (items : List Literal) : respellAll f items = items.map (respell f) := by
  induction items with
  | nil => rfl
  | cons v vs ih => rw [respellAll, ih, List.map_cons]

theorem respellEntries_eq (entries : List (Key × Literal)) :
    respellEntries f entries = entries.map fun e => (e.1, e.2.respell f) := by
  induction entries with
  | nil => rfl
  | cons e es ih => rw [respellEntries, ih, List.map_cons]

theorem respell_list (items : List Literal) :
    respell f (.list items) = .list (items.map (respell f)) := by
  rw [respell, respellAll_eq]

/-- A marker becomes that of its path spelled anew. -/
theorem respell_of_marker? {path : String} (h : v.marker? = some path) :
    v.respell f = marker (f path) := by
  obtain ⟨key, rfl⟩ := eq_map_of_marker? h
  rw [respell, h]

/-- In any other mapping the values are spelled anew. -/
theorem respell_map_of_not_isMarker (h : isMarker (.map entries) = false) :
    respell f (.map entries) = .map (entries.map fun e => (e.1, e.2.respell f)) := by
  rw [respell, marker?_eq_none h, respellEntries_eq]

/-- A marker keeps its spelling exactly if it is that of a path which `f` keeps. -/
theorem respell_marker_eq_self_iff {path : String} (hpath : v.marker? = some path) :
    v.respell f = v ↔ ∃ path, v = marker path ∧ f path = path := by
  rw [respell_of_marker? hpath]
  constructor
  · intro hself
    have hkept : f path = path := eq_of_marker?_marker (hself ▸ hpath)
    exact ⟨path, by rw [← hself, hkept], hkept⟩
  · rintro ⟨path', rfl, hkept⟩
    rw [← eq_of_marker?_marker hpath, hkept]

/-- A list is mapped to itself exactly if each of its members is. -/
theorem map_eq_self_iff {α : Type} {g : α → α} {l : List α} :
    l.map g = l ↔ ∀ a ∈ l, g a = a := by
  have hinj := List.map_inj_left (l := l) (f := g) (g := id)
  rwa [List.map_id] at hinj

/-- **A value keeps its spelling exactly if its markers do.** -/
theorem respell_eq_self_iff (f : String → String) (v : Literal) :
    v.respell f = v ↔ ∀ m, MarkerIn m v → ∃ path, m = marker path ∧ f path = path := by
  induction v using tag_induction with
  | scalar s => exact iff_of_true rfl fun m hm => absurd hm not_markerIn_scalar
  | reference path =>
      refine iff_of_true rfl fun m hm => ?_
      obtain ⟨hpart, hmarker⟩ := hm
      cases hpart
      cases hmarker
  | tuple items => exact iff_of_true rfl fun m hm => absurd hm not_markerIn_tuple
  | list items ih =>
      rw [respell_list, Literal.list.injEq, map_eq_self_iff]
      simp only [markerIn_list_iff]
      constructor
      · rintro hall m ⟨v, hv, hm⟩
        exact (ih v hv).mp (hall v hv) m hm
      · exact fun hall v hv => (ih v hv).mpr fun m hm => hall m ⟨v, hv, hm⟩
  | marker v path hpath =>
      rw [respell_marker_eq_self_iff hpath]
      simp only [markerIn_of_marker? hpath, forall_eq]
  | map entries hmarker ih =>
      rw [respell_map_of_not_isMarker hmarker, Literal.map.injEq, map_eq_self_iff]
      simp only [markerIn_map_iff hmarker, Prod.ext_iff, true_and]
      constructor
      · rintro hall m ⟨e, he, hm⟩
        exact (ih e he).mp (hall e he) m hm
      · exact fun hall e he => (ih e he).mpr fun m hm => hall m ⟨e, he, hm⟩

/-! ## What was tagged -/

/-- **A tagged value is tagged as itself.** -/
theorem tag_tag (v : Literal) : v.tag.tag = v.tag := by
  induction v using tag_induction with
  | scalar s => rfl
  | reference path => rfl
  | tuple items => rfl
  | list items ih =>
      rw [tag_list, tag_list, List.map_map]
      exact congrArg Literal.list (List.map_congr_left ih)
  | marker v path hpath =>
      rw [tag_of_marker? hpath]
      rfl
  | map entries hmarker ih =>
      have htagged := isMarker_tag (.map entries)
      rw [tag_map_of_not_isMarker hmarker] at htagged ⊢
      rw [tag_map_of_not_isMarker htagged, List.map_map]
      exact congrArg Literal.map (List.map_congr_left fun e he => congrArg (e.1, ·) (ih e he))

/-- **Untagging a tagged value** gives the value with its markers in camel style. -/
theorem untag_tag (v : Literal) (hreference : v.hasReference = false) :
    v.tag.untag = v.respell Name.camelize := by
  induction v using tag_induction with
  | scalar s => rfl
  | reference path => cases hreference
  | tuple items => rfl
  | list items ih =>
      have hitems := not_hasReference_list_iff.mp hreference
      rw [tag_list, untag_list, respell_list, List.map_map]
      exact congrArg Literal.list (List.map_congr_left fun v hv => ih v hv (hitems v hv))
  | marker v path hpath => rw [tag_of_marker? hpath, respell_of_marker? hpath, untag]
  | map entries hmarker ih =>
      have hvalues := not_hasReference_map_iff.mp hreference
      rw [tag_map_of_not_isMarker hmarker, untag_map, respell_map_of_not_isMarker hmarker,
        List.map_map]
      exact congrArg Literal.map
        (List.map_congr_left fun e he => congrArg (e.1, ·) (ih e he (hvalues e he)))

/-- **A tagged value has references exactly if the value has markers.** -/
theorem hasReference_tag_iff (v : Literal) (hreference : v.hasReference = false) :
    v.tag.hasReference = true ↔ ∃ m, MarkerIn m v := by
  induction v using tag_induction with
  | scalar s => exact iff_of_false nofun fun ⟨_, hm⟩ => not_markerIn_scalar hm
  | reference path => cases hreference
  | tuple items => exact iff_of_false nofun fun ⟨_, hm⟩ => not_markerIn_tuple hm
  | list items ih =>
      have hitems := not_hasReference_list_iff.mp hreference
      rw [tag_list, hasReference_list, List.any_map, List.any_eq_true]
      simp only [markerIn_list_iff]
      constructor
      · rintro ⟨v, hv, h⟩
        obtain ⟨m, hm⟩ := (ih v hv (hitems v hv)).mp h
        exact ⟨m, v, hv, hm⟩
      · rintro ⟨m, v, hv, hm⟩
        exact ⟨v, hv, (ih v hv (hitems v hv)).mpr ⟨m, hm⟩⟩
  | marker v path hpath =>
      rw [tag_of_marker? hpath]
      exact iff_of_true rfl ⟨v, (markerIn_of_marker? hpath).mpr rfl⟩
  | map entries hmarker ih =>
      have hvalues := not_hasReference_map_iff.mp hreference
      rw [tag_map_of_not_isMarker hmarker, hasReference_map, List.any_map, List.any_eq_true]
      simp only [markerIn_map_iff hmarker]
      constructor
      · rintro ⟨e, he, h⟩
        obtain ⟨m, hm⟩ := (ih e he (hvalues e he)).mp h
        exact ⟨m, e, he, hm⟩
      · rintro ⟨m, e, he, hm⟩
        exact ⟨e, he, (ih e he (hvalues e he)).mpr ⟨m, hm⟩⟩

/-! ## Values of documents -/

/-- No tuple is around anything in a value made of scalars, lists and mappings. -/
theorem Occurs.part (h : m.Occurs v) (hshape : v.isYamlShaped = true) : m.Part v := by
  induction h with
  | self => exact .self
  | item hv _ ih => exact .item hv (ih (isYamlShapedAll_iff.mp hshape _ hv))
  | member => cases hshape
  | value he _ ih => exact .value he (ih (isYamlShapedEntries_iff.mp hshape _ he).2)

/-- In a value of a document every marker that occurs is one that tagging finds. -/
theorem markerIn_iff (hshape : v.isYamlShaped = true) :
    MarkerIn m v ↔ m.Occurs v ∧ m.isMarker = true :=
  and_congr_left fun _ => ⟨Part.occurs, fun h => h.part hshape⟩

/-- **Untagging reverses tagging.**  For a value made of scalars, lists and mappings, untagging what
it is tagged as gives it with the paths of its markers in camel style and all else as it was, which
is the value itself exactly if every marker at any depth is that of a path in camel style; what it
is tagged as has references exactly if there is a marker at some depth; and tagging that again
changes nothing. -/
theorem untag_tagged (v : Literal) (hshape : v.isYamlShaped = true)
    (hreference : v.hasReference = false) :
    v.tag.untag = v.respell Name.camelize ∧
      (v.tag.untag = v ↔ ∀ m : Literal, m.Occurs v → m.isMarker = true →
        ∃ path, m = marker path ∧ Name.camelize path = path) ∧
      (v.tag.hasReference = true ↔ ∃ m : Literal, m.Occurs v ∧ m.isMarker = true) ∧
      v.tag.tag = v.tag := by
  have huntag := untag_tag v hreference
  refine ⟨huntag, ?_, ?_, tag_tag v⟩
  · rw [huntag, respell_eq_self_iff]
    simp only [markerIn_iff hshape, and_imp]
  · rw [hasReference_tag_iff v hreference]
    simp only [markerIn_iff hshape]

/-- Markers, alone and as the value of a single entry, and mappings that look like one: with an
empty key, with a key that is no text and with two entries. -/
def likeMarkers : Literal :=
  .list [marker "x_y", .map [(.str "a_b", marker "to_upper")], .map [(.str "", .null)],
    .map [(.scalar (.int 1), .null)], .map [(.str "p_q", .null), (.str "r_s", .null)]]

/-- The two markers come back in camel style, and no key but theirs is spelled anew. -/
theorem likeMarkers_untagged :
    likeMarkers.isYamlShaped = true ∧ likeMarkers.hasReference = false ∧
      likeMarkers.tag.untag = .list [marker "xY", .map [(.str "a_b", marker "toUpper")],
        .map [(.str "", .null)], .map [(.scalar (.int 1), .null)],
        .map [(.str "p_q", .null), (.str "r_s", .null)]] ∧
      likeMarkers.tag.untag ≠ likeMarkers ∧ likeMarkers.tag.hasReference = true ∧
      likeMarkers.tag.tag = likeMarkers.tag := by
  have hmarker : (marker "x_y").Occurs likeMarkers := .item List.mem_cons_self .self
  obtain ⟨huntag, hself, hhas, htag⟩ := untag_tagged likeMarkers rfl rfl
  refine ⟨rfl, rfl, huntag, fun hback => ?_, hhas.mpr ⟨_, hmarker, rfl⟩, htag⟩
  obtain ⟨path, hpath, hkept⟩ := hself.mp hback _ hmarker rfl
  obtain rfl : path = "x_y" := eq_of_marker?_marker (hpath ▸ rfl)
  exact absurd hkept (by decide +kernel)

end Literal

end Conformance
