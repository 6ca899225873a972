import Conformance.Proofs.CallLists
import Conformance.Proofs.KeyGrammar
import Conformance.Proofs.Tagging

/-!
# Well-formed features

Executing and rendering a feature rely on what parsing has made of it: that it is of one kind,
that only calls have arguments, that targets and operands are paths that can be walked, and that
references are tagged.  `parse_wellFormed` says that every feature that is parsed has these
properties.

Two passes make them.  A key is split at the first `=`, its parts are trimmed, and the read mark is
cut off and what is before it is trimmed again; `Form.WellFormed` is what this leaves.  Values are
tagged: what a tagged value is made of are the tagged parts of the written one
(`Literal.part_of_tag`), and nothing is tagged as a marker.  Tagging goes into lists and mappings;
tuples are left as they are written, and a marker in one of them stays.
-/

namespace Conformance

/-! ## The parts of a key -/

namespace Text

/-- Trimming drops characters and adds none. -/
theorem mem_of_mem_trim {c : Char} {cs : List Char} (h : c ∈ trim cs) : c ∈ cs := by
  have hright : c ∈ trimLeft cs := (List.rdropWhile_prefix isBlank (trimLeft cs)).subset h
  exact (List.dropWhile_suffix isBlank).subset hright

/-- A trimmed text is left as it is. -/
theorem trim_trim (cs : List Char) : trim (trim cs) = trim cs := by
  have hleft : trimLeft (trim cs) = trim cs := by
    cases htrim : trim cs with
    | nil => rfl
    | cons c rest =>
        -- What comes first is first in the text that is trimmed on the left alone.
        obtain ⟨after, hafter⟩ := List.rdropWhile_prefix isBlank (trimLeft cs)
        change trim cs ++ after = cs.dropWhile isBlank at hafter
        have hblank := List.head?_dropWhile_not isBlank cs
        rw [← hafter, htrim] at hblank
        exact List.dropWhile_cons_of_neg (by simpa using hblank)
  change trimRight (trimLeft (trim cs)) = trim cs
  rw [hleft]
  exact List.rdropWhile_idempotent isBlank (trimLeft cs)

end Text

/-- A path of the scope as a key gives it: there is something, and no white space around it. -/
structure IsPath (path : String) : Prop where
  nonempty : path ≠ ""
  trimmed : Text.trim path.toList = path.toList

/-- A path that something can be bound to. -/
structure IsTarget (path : String) : Prop extends IsPath path where
  unmarked : '=' ∉ path.toList

theorem isPath_ofList {cs : List Char} (hne : cs ≠ []) (htrim : Text.trim cs = cs) :
    IsPath (String.ofList cs) where
  nonempty := by simpa using hne
  trimmed := by rwa [String.toList_ofList]

namespace FeatureKey

/-- The target of a key is what comes before the first `=`. -/
theorem unmarked_of_body? {cs assign : List Char} {property : Option (List Char)}
    (h : body? cs = some (some assign, property)) : '=' ∉ assign := by
  unfold body? at h
  rcases Option.or_eq_some_iff.mp h with hassign | ⟨-, hnone⟩
  · obtain ⟨⟨before, after⟩, hsplit, hassign⟩ := Option.bind_eq_some_iff.mp hassign
    obtain ⟨rest, -, heq⟩ := Option.bind_eq_some_iff.mp hassign
    cases heq
    exact (splitAt?_eq_some_iff.mp hsplit).1
  · obtain ⟨property, -, heq⟩ := Option.map_eq_some_iff.mp hnone
    cases heq

theorem unmarked_of_split? {cs assign : List Char} {parts : Parts} (h : split? cs = some parts)
    (hassign : parts.assign = some assign) : '=' ∉ assign := by
  unfold split? at h
  rcases Option.or_eq_some_iff.mp h with hfilter | ⟨-, hnone⟩
  · obtain ⟨⟨filter, rest⟩, -, hfilter⟩ := Option.bind_eq_some_iff.mp hfilter
    obtain ⟨⟨target, property⟩, hbody, heq⟩ := Option.bind_eq_some_iff.mp hfilter
    cases heq
    cases hassign
    exact unmarked_of_body? hbody
  · obtain ⟨⟨target, property⟩, hbody, rfl⟩ := Option.map_eq_some_iff.mp hnone
    cases hassign
    exact unmarked_of_body? hbody

/-- What trimming leaves of a part of a key is a path. -/
theorem trimmed?_eq_some {part : Option (List Char)} {cs : List Char}
    (h : trimmed? part = some cs) :
    cs ≠ [] ∧ Text.trim cs = cs ∧ ∃ whole, part = some whole ∧ ∀ c ∈ cs, c ∈ whole := by
  obtain ⟨hmap, hne⟩ := Option.filter_eq_some_iff.mp h
  obtain ⟨whole, rfl, rfl⟩ := Option.map_eq_some_iff.mp hmap
  exact ⟨by simpa using hne, Text.trim_trim whole, whole, rfl, fun c hc => Text.mem_of_mem_trim hc⟩

/-- What is known of the paths in the form of a key. -/
inductive Form.WellFormed : Form → Prop
  | value {target : String} (htarget : IsTarget target) : WellFormed (.value target)
  | read {assign : Option String} {property : String} (hassign : ∀ t ∈ assign, IsTarget t)
      (hproperty : IsPath property) : WellFormed (.read assign property)
  | operand {assign : Option String} {property : String} (hassign : ∀ t ∈ assign, IsTarget t)
      (hproperty : IsPath property) (hunmarked : ¬ readMark <:+ property.toList) :
      WellFormed (.operand assign property)

theorem isTarget_packageKey : IsTarget packageKey :=
  ⟨⟨by decide, by decide +kernel⟩, by decide⟩

/-- **The form of a key** is made of paths. -/
theorem wellFormed_of_read? {key : String} {filter : Option (List Char)} {form : Form}
    (h : read? key = some (filter, form)) : form.WellFormed := by
  obtain ⟨parts, hparts, h⟩ := Option.bind_eq_some_iff.mp h
  obtain ⟨form', hform, heq⟩ := Option.bind_eq_some_iff.mp h
  cases heq
  have htarget : ∀ t ∈ (trimmed? parts.assign).map String.ofList, IsTarget t := by
    intro t ht
    obtain ⟨cs, hcs, rfl⟩ := Option.map_eq_some_iff.mp ht
    obtain ⟨hne, htrim, whole, hwhole, hsub⟩ := trimmed?_eq_some hcs
    refine ⟨isPath_ofList hne htrim, ?_⟩
    rw [String.toList_ofList]
    exact fun hmem => unmarked_of_split? hparts hwhole (hsub _ hmem)
  unfold form? at hform
  cases hproperty : trimmed? parts.property with
  | none =>
      rw [hproperty] at hform
      obtain ⟨t, ht, rfl⟩ := Option.map_eq_some_iff.mp hform
      exact .value (htarget t ht)
  | some property =>
      obtain ⟨hne, htrim, -⟩ := trimmed?_eq_some hproperty
      rw [hproperty] at hform
      dsimp only at hform
      cases hmark : beforeReadMark? property with
      | some marked =>
          rw [hmark] at hform
          dsimp only at hform
          by_cases hempty : (Text.trim marked).isEmpty = true
          · rw [if_pos hempty] at hform
            cases hform
          · rw [if_neg hempty] at hform
            cases hform
            exact .read htarget (isPath_ofList (by simpa using hempty) (Text.trim_trim marked))
      | none =>
          rw [hmark] at hform
          dsimp only at hform
          by_cases hpackage :
              (String.ofList property = packageKey && (trimmed? parts.assign).isNone) = true
          · rw [if_pos hpackage] at hform
            cases hform
            exact .value isTarget_packageKey
          · rw [if_neg hpackage] at hform
            cases hform
            refine .operand htarget (isPath_ofList hne htrim) fun hsuffix => ?_
            rw [String.toList_ofList] at hsuffix
            unfold beforeReadMark? at hmark
            rw [if_pos (List.isSuffixOf_iff_suffix.mpr hsuffix)] at hmark
            cases hmark

end FeatureKey

/-! ## Features -/

namespace Feature

/-- The operand is called. -/
def isCall (f : Feature) : Bool :=
  match f.action with
  | .call _ _ _ _ _ => true
  | _ => false

/-- The positional arguments. -/
def args (f : Feature) : List Literal :=
  match f.action with
  | .call _ _ args _ _ => args
  | _ => []

/-- The keyword arguments. -/
def kwargs (f : Feature) : List (String × Literal) :=
  match f.action with
  | .call _ _ _ kwargs _ => kwargs
  | _ => []

/-- All values of a feature: its arguments and the expected value. -/
def values (f : Feature) : List Literal := f.args ++ f.kwargs.map (·.2) ++ [f.expected]

/-- The feature of an entry has all that belongs to a kind, and nothing that does not. -/
def Shows (entry : Literal) (f : Feature) : Kind → Prop
  | .comment => f.isComment = true ∧ f.assign? = none ∧ f.property? = none ∧ f.args = [] ∧
      f.kwargs = [] ∧ f.expected = .null
  | .value => f.isComment = false ∧ f.assign?.isSome = true ∧ f.property? = none
  | .read => f.isComment = false ∧ f.property?.isSome = true ∧ f.isCall = false
  | .call => f.isCall = true ∧
      (∃ path, f.property? = some path ∧ ¬ FeatureKey.readMark <:+ path.toList) ∧
      ∃ key items, entry = .map [(key, .list items)]

/-- **A feature is well-formed** if it is of exactly one kind, has arguments only if it is a call,
binds to a target and reads or calls a path, if it does, and if no marker is left in its values at
any depth but in tuples, which are left as they are written in the entry. -/
structure WellFormed (entry : Literal) (f : Feature) : Prop where
  kind : ∀ kind, f.Shows entry kind ↔ kind = f.kind
  arguments : f.kind ≠ .call → f.args = [] ∧ f.kwargs = []
  target : ∀ path ∈ f.assign?, IsTarget path
  operand : ∀ path ∈ f.property?, IsPath path
  markers : ∀ v ∈ f.values, ∀ u : Literal, u.Part v → u.isMarker = false
  tuples : ∀ v ∈ f.values, ∀ items, (Literal.tuple items).Part v → (Literal.tuple items).Part entry
  left : ∀ v ∈ f.values, ∀ m : Literal, m.Occurs v → m.isMarker = true →
    ∃ items, (Literal.tuple items).Part entry ∧ m.Occurs (.tuple items)

/-! ### Values -/

/-- The value is made of a part of the entry by tagging, or there is none. -/
inductive Tagged (entry : Literal) : Literal → Prop
  | absent : Tagged entry .null
  | sentinel (s : Sentinel) : Tagged entry (.scalar (.sentinel s))
  | tag {v : Literal} (h : v.Part entry) : Tagged entry v.tag

theorem tagged_expected {entry v : Literal} (h : v.Part entry) : Tagged entry (tagExpected v) := by
  unfold tagExpected
  split
  · exact .sentinel _
  · exact .tag h

/-- The parts of a tagged value are tagged. -/
theorem Tagged.part {entry u v : Literal} (h : Tagged entry v) (hpart : u.Part v) :
    Tagged entry u := by
  cases h with
  | absent =>
      cases hpart
      exact .absent
  | sentinel s =>
      cases hpart
      exact .sentinel s
  | tag hwritten =>
      obtain ⟨w, hw, rfl⟩ := Literal.part_of_tag hpart
      exact .tag (hw.trans hwritten)

theorem Tagged.isMarker {entry v : Literal} (h : Tagged entry v) : v.isMarker = false := by
  cases h with
  | absent => rfl
  | sentinel s => rfl
  | tag hwritten => exact Literal.isMarker_tag _

theorem Tagged.tuple {entry : Literal} {items : List Literal} (h : Tagged entry (.tuple items)) :
    (Literal.tuple items).Part entry := by
  generalize htag : Literal.tuple items = v at h
  cases h with
  | absent => cases htag
  | sentinel s => cases htag
  | tag hwritten =>
      rw [Literal.eq_tuple_of_tag htag.symm] at hwritten
      exact htag ▸ hwritten

end Feature

/-! ### The values of a call -/

namespace Literal

theorem part_of_textEntry {item value : Literal} {text : String}
    (h : item.textEntry? = some (text, value)) : value.Part item := by
  unfold textEntry? at h
  split at h
  · obtain ⟨text', -, heq⟩ := Option.map_eq_some_iff.mp h
    cases heq
    exact .value List.mem_cons_self .self
  · cases h

theorem part_of_expectation {item value : Literal} (h : item.expectation? = some value) :
    value.Part item := by
  obtain ⟨⟨text, value'⟩, hentry, heq⟩ := Option.bind_eq_some_iff.mp h
  obtain ⟨-, heq⟩ := Option.ite_none_right_eq_some.mp heq
  cases heq
  exact part_of_textEntry hentry

theorem part_of_keyword {item value : Literal} {name : String}
    (h : item.keyword? = some (name, value)) : value.Part item := by
  obtain ⟨⟨text, value'⟩, hentry, heq⟩ := Option.bind_eq_some_iff.mp h
  obtain ⟨-, heq⟩ := Option.ite_none_right_eq_some.mp heq
  cases heq
  exact part_of_textEntry hentry

end Literal

/-- What holds of the tagged values of all keyword items holds of the keyword arguments. -/
theorem CallList.forall_kwargs {P : Literal → Prop} {items : List Literal}
    (h : ∀ item ∈ items, ∀ name value, item.keyword? = some (name, value) → P value.tag) :
    ∀ kw ∈ (read items).kwargs, P kw.2 := by
  rw [read_kwargs]
  refine forall_setAllNamed (fun kw hkw => absurd hkw List.not_mem_nil) ?_
  rw [List.forall_mem_map]
  intro kw hkw
  obtain ⟨item, hmem, hkeyword⟩ := List.mem_filterMap.mp hkw
  exact h item hmem kw.1 kw.2 hkeyword

namespace Feature

/-- Arguments, keyword arguments and the expected value of a call are tagged items. -/
theorem tagged_of_call {entry : Literal} {items : List Literal}
    (hitems : ∀ item ∈ items, item.Part entry) (skip : Bool) (assign : Option String)
    (property : String) :
    ∀ v ∈ (ofAction skip (callAction assign property items)).values, Tagged entry v := by
  intro v hv
  rcases List.mem_append.mp hv with hv | hexpected
  · rcases List.mem_append.mp hv with harg | hkwarg
    · change v ∈ (CallList.read items).args at harg
      rw [CallList.read_args] at harg
      obtain ⟨item, hmem, rfl⟩ := List.mem_map.mp harg
      exact .tag (hitems item (List.mem_of_mem_filter hmem))
    · obtain ⟨kw, hkw, rfl⟩ := List.mem_map.mp hkwarg
      refine CallList.forall_kwargs (P := Tagged entry) ?_ kw hkw
      intro item hmem name value hkeyword
      exact .tag ((Literal.part_of_keyword hkeyword).trans (hitems item hmem))
  · rw [List.mem_singleton] at hexpected
    change v = tagExpected (CallList.read items).expected at hexpected
    rw [hexpected, CallList.read_expected]
    cases hlast : (items.filterMap Literal.expectation?).getLast? with
    | none => exact .absent
    | some value =>
        obtain ⟨item, hmem, hvalue⟩ := List.mem_filterMap.mp (List.mem_of_getLast? hlast)
        exact tagged_expected ((Literal.part_of_expectation hvalue).trans (hitems item hmem))

/-- **All values of a feature are tagged.** -/
theorem tagged_of_parse {entry : Literal} {target : String} {f : Feature}
    (h : parse entry target = .ok f) : ∀ v ∈ f.values, Tagged entry v := by
  rcases parse_cases h with ⟨text, -, rfl⟩ | ⟨key, right, rfl⟩
  · intro v hv
    obtain rfl := List.mem_singleton.mp hv
    exact .absent
  · obtain ⟨text, filter, form, -, -, -, rfl⟩ := parse_entry_eq_ok_iff.mp h
    have hright : right.Part (.map [(key, right)]) := .value List.mem_cons_self .self
    have hsingle : ∀ v ∈ [tagExpected right], Tagged (.map [(key, right)]) v :=
      List.forall_mem_singleton.mpr (tagged_expected hright)
    cases form with
    | value path => exact hsingle
    | read assign property => exact hsingle
    | operand assign property =>
        cases right with
        | list items =>
            refine tagged_of_call (fun item hmem => ?_) _ assign property
            exact Literal.Part.trans (.item hmem .self) hright
        | scalar s => exact hsingle
        | reference path => exact hsingle
        | tuple items => exact hsingle
        | map entries => exact hsingle

/-! ### All facts together -/

/-- A feature shows no kind but its own. -/
theorem kind_of_shows {entry : Literal} {f : Feature} {kind : Kind} (h : f.Shows entry kind) :
    kind = f.kind := by
  obtain ⟨text, skip, action⟩ := f
  cases action with
  | comment text => cases kind <;> simp_all [Shows, Feature.kind, isComment, isCall]
  | bind target value => cases kind <;> simp_all [Shows, Feature.kind, isComment, isCall, property?]
  | read assign property expected =>
      cases kind <;> simp_all [Shows, Feature.kind, isComment, isCall, property?]
  | call assign property args kwargs expected =>
      cases kind <;> simp_all [Shows, Feature.kind, isComment, isCall, property?]

/-- Only a call has arguments. -/
theorem args_of_not_call {f : Feature} (h : f.kind ≠ .call) : f.args = [] ∧ f.kwargs = [] := by
  obtain ⟨text, skip, action⟩ := f
  cases action with
  | comment text => exact ⟨rfl, rfl⟩
  | bind target value => exact ⟨rfl, rfl⟩
  | read assign property expected => exact ⟨rfl, rfl⟩
  | call assign property args kwargs expected => exact absurd rfl h

section Form

variable {form : FeatureKey.Form} (hform : form.WellFormed) (skip : Bool) (key : Key)
  (right : Literal)

include hform

/-- The feature of a key is of the kind that the form of the key and the value on its right
make. -/
theorem shows_of_form :
    (ofAction skip (actionOf form right)).Shows (.map [(key, right)])
      (ofAction skip (actionOf form right)).kind := by
  cases hform with
  | value htarget => exact ⟨rfl, rfl, rfl⟩
  | read hassign hproperty => exact ⟨rfl, rfl, rfl⟩
  | operand hassign hproperty hunmarked =>
      cases right with
      | list items => exact ⟨rfl, ⟨_, rfl, hunmarked⟩, key, items, rfl⟩
      | scalar s => exact ⟨rfl, rfl, rfl⟩
      | reference path => exact ⟨rfl, rfl, rfl⟩
      | tuple items => exact ⟨rfl, rfl, rfl⟩
      | map entries => exact ⟨rfl, rfl, rfl⟩

/-- Target and operand of the feature are those of the form. -/
theorem paths_of_form :
    (∀ path ∈ (ofAction skip (actionOf form right)).assign?, IsTarget path) ∧
      ∀ path ∈ (ofAction skip (actionOf form right)).property?, IsPath path := by
  have hsome : ∀ {property : String}, IsPath property → ∀ path ∈ some property, IsPath path :=
    fun hproperty path hpath => Option.some.inj hpath ▸ hproperty
  cases hform with
  | value htarget => exact ⟨fun path hpath => Option.some.inj hpath ▸ htarget, nofun⟩
  | read hassign hproperty => exact ⟨hassign, hsome hproperty⟩
  | operand hassign hproperty hunmarked =>
      cases right with
      | list items => exact ⟨hassign, hsome hproperty⟩
      | scalar s => exact ⟨hassign, hsome hproperty⟩
      | reference path => exact ⟨hassign, hsome hproperty⟩
      | tuple items => exact ⟨hassign, hsome hproperty⟩
      | map entries => exact ⟨hassign, hsome hproperty⟩

end Form

/-- **What is parsed is well-formed**, for every entry and every target. -/
theorem parse_wellFormed {entry : Literal} {target : String} {f : Feature}
    (h : parse entry target = .ok f) : f.WellFormed entry := by
  have hparts : ∀ v ∈ f.values, ∀ u : Literal, u.Part v → Tagged entry u :=
    fun v hv u hu => (tagged_of_parse h v hv).part hu
  have hmarkers := fun v hv u hu => (hparts v hv u hu).isMarker
  have htuples := fun v hv items hu => (hparts v hv (.tuple items) hu).tuple
  have hleft : ∀ v ∈ f.values, ∀ m : Literal, m.Occurs v → m.isMarker = true →
      ∃ items, (Literal.tuple items).Part entry ∧ m.Occurs (.tuple items) := by
    intro v hv m hoccurs hm
    rcases hoccurs.part_or_in_tuple with hpart | ⟨items, htuple, hin⟩
    · cases hm.symm.trans (hmarkers v hv m hpart)
    · exact ⟨items, htuples v hv items htuple, hin⟩
  rcases parse_cases h with ⟨text, -, rfl⟩ | ⟨key, right, rfl⟩
  · refine ⟨fun kind => ⟨kind_of_shows, ?_⟩, args_of_not_call, nofun, nofun, hmarkers, htuples,
      hleft⟩
    rintro rfl
    exact ⟨rfl, rfl, rfl, rfl, rfl, rfl⟩
  · obtain ⟨text, filter, form, -, hread, -, rfl⟩ := parse_entry_eq_ok_iff.mp h
    have hform := FeatureKey.wellFormed_of_read? hread
    obtain ⟨htarget, hoperand⟩ := paths_of_form hform (Filter.skips? filter target) right
    refine ⟨fun kind => ⟨kind_of_shows, ?_⟩, args_of_not_call, htarget, hoperand, hmarkers,
      htuples, hleft⟩
    rintro rfl
    exact shows_of_form hform _ key right

/-! ### A marker in a tuple -/

/-- `{"x=": [("a", {y: null}), {z: null}]}`, with a tuple as the first item of the list. -/
def tupleEntry : Literal :=
  .map [(.str "x=", .list [.tuple [.str "a", .marker "y"], .marker "z"])]

/-- The feature of the entry: the marker in the list is tagged, the one in the tuple is not. -/
def tupleFeature : Feature :=
  .ofAction false (.bind "x" (.list [.tuple [.str "a", .marker "y"], .reference "z"]))

theorem parse_tupleEntry (target : String) : parse tupleEntry target = .ok tupleFeature := rfl

/-- The feature is well-formed. -/
theorem tupleFeature_wellFormed :
    parse tupleEntry "py" = .ok tupleFeature ∧ tupleFeature.WellFormed tupleEntry :=
  ⟨parse_tupleEntry "py", parse_wellFormed (parse_tupleEntry "py")⟩

/-- **Not every marker is tagged.**  The one in the tuple is left. -/
theorem markers_remain :
    ¬ ∀ (entry : Literal) (target : String) (f : Feature), parse entry target = .ok f →
      ∀ v ∈ f.values, ∀ m : Literal, m.Occurs v → m.isMarker = false := by
  intro halways
  have hmarker := halways tupleEntry "py" tupleFeature (parse_tupleEntry "py") _
    List.mem_cons_self (.marker "y")
    (.item List.mem_cons_self (.member (List.mem_cons_of_mem _ List.mem_cons_self) .self))
  cases hmarker

end Feature

end Conformance
