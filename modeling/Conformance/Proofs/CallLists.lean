import Conformance.Proofs.NamedUnion
import Conformance.Proofs.OwnSpelling

/-!
# Call lists in any order

A call list mixes three kinds of items: `==: v` for the expected value, `name=: v` for a
keyword argument, and everything else.  It is read item by item; each item touches what
its own kind has given so far and leaves the rest alone (`CallList.add_eq`).  So what the
whole list gives is found kind by kind: the arguments are the items of neither mark, a
keyword stands where it first occurs with the value that it has last, and the last
expected value counts.  How the three kinds are mixed plays no part (`read_congr`).
-/

namespace Conformance

/-! ## The kinds of items -/

namespace Literal

/-- Text and value of a mapping of one entry whose key is a text. -/
def textEntry? : Literal → Option (String × Literal)
  | .map [(key, value)] => key.text?.map fun text => (text, value)
  | _ => none

/-- The value of an item `==: value`. -/
def expectation? (item : Literal) : Option Literal :=
  item.textEntry?.bind fun (text, value) => if text = "==" then some value else none

/-- Name and value of an item `name=: value`: the key is a text of two characters at
least that ends with `=`, other than `==`. -/
def keyword? (item : Literal) : Option (String × Literal) :=
  item.textEntry?.bind fun (text, value) =>
    if text ≠ "==" ∧ 1 < text.length ∧ text.toList.getLast? = some '=' then
      some (String.ofList text.toList.dropLast, value)
    else none

/-- An item of neither kind. -/
def isPositional (item : Literal) : Bool := item.expectation?.isNone && item.keyword?.isNone

/-- The two marks exclude each other. -/
theorem keyword?_of_expectation {item value : Literal} (h : item.expectation? = some value) :
    item.keyword? = none := by
  unfold expectation? at h
  unfold keyword?
  obtain ⟨⟨text, other⟩, hentry, h⟩ := Option.bind_eq_some_iff.mp h
  dsimp only at h
  split at h
  · next hmark => simp [hentry, hmark]
  · cases h

end Literal

namespace CallItem

/-- The name of a keyword is its key without the final `=`. -/
theorem keywordName?_eq (text : String) :
    keywordName? text =
      if 1 < text.length ∧ text.toList.getLast? = some '=' then
        some (String.ofList text.toList.dropLast)
      else none := by
  unfold keywordName?
  have hlength : text.length = text.toList.reverse.length := by
    rw [List.length_reverse, String.length_toList]
  have hlast : text.toList.getLast? = text.toList.reverse.head? := by simp
  have hdrop : text.toList.dropLast = text.toList.reverse.tail.reverse := by simp
  rw [hlength, hlast, hdrop]
  split
  · next c rest heq =>
      rw [heq]
      simp
  · next hnot =>
      refine (if_neg ?_).symm
      rintro ⟨hlong, hhead⟩
      obtain ⟨rest, heq⟩ := List.head?_eq_some_iff.mp hhead
      cases rest with
      | nil => simp [heq] at hlong
      | cons c rest => exact hnot c rest heq

/-- The kind of a mapping of one entry whose key is a text. -/
theorem ofLiteral_of_textEntry {item value : Literal} {text : String}
    (h : item.textEntry? = some (text, value)) :
    ofLiteral item =
      if text = "==" then .expected value
      else match keywordName? text with
        | some name => .keyword name value
        | none => .positional item := by
  unfold Literal.textEntry? at h
  split at h
  · next key other =>
      obtain ⟨text', htext, heq⟩ := Option.map_eq_some_iff.mp h
      cases heq
      unfold ofLiteral
      cases hname : keywordName? text with
      | none => simp only [htext, hname]
      | some name => simp only [htext, hname]
  · cases h

/-- Everything else is positional. -/
theorem ofLiteral_of_textEntry_none {item : Literal} (h : item.textEntry? = none) :
    ofLiteral item = .positional item := by
  unfold Literal.textEntry? at h
  unfold ofLiteral
  split
  · next key value =>
      rw [Option.map_eq_none_iff] at h
      rw [h]
  · rfl

/-- **The kind of an item**, read off its key. -/
theorem ofLiteral_eq (item : Literal) :
    ofLiteral item =
      match item.expectation?, item.keyword? with
      | some value, _ => .expected value
      | none, some (name, value) => .keyword name value
      | none, none => .positional item := by
  unfold Literal.expectation? Literal.keyword?
  cases hentry : item.textEntry? with
  | none => exact ofLiteral_of_textEntry_none hentry
  | some entry =>
      obtain ⟨text, value⟩ := entry
      rw [ofLiteral_of_textEntry hentry]
      by_cases hmark : text = "=="
      · simp [hmark]
      · rw [keywordName?_eq]
        by_cases hname : 1 < text.length ∧ text.toList.getLast? = some '='
        · simp [hmark, hname]
        · simp [hmark, hname]

end CallItem

namespace CallList

/-! ## One item -/

/-- **One more item** touches what its kind has given so far, and nothing else. -/
theorem add_eq (list : CallList) (item : Literal) :
    list.add item =
      { args := if item.isPositional then list.args ++ [item.tag] else list.args
        kwargs :=
          match item.keyword? with
          | some (name, value) => setNamed list.kwargs name value.tag
          | none => list.kwargs
        expected := item.expectation?.getD list.expected } := by
  unfold add Literal.isPositional
  rw [CallItem.ofLiteral_eq]
  cases hexpected : item.expectation? with
  | some value =>
      have hkeyword : item.keyword? = none := Literal.keyword?_of_expectation hexpected
      simp [hkeyword]
  | none =>
      cases item.keyword? with
      | some kw => simp
      | none => simp

theorem read_concat (items : List Literal) (item : Literal) :
    read (items ++ [item]) = (read items).add item :=
  List.foldl_concat ..

/-! ## All items -/

/-- The arguments are the positional items in order. -/
theorem read_args (items : List Literal) :
    (read items).args = (items.filter Literal.isPositional).map Literal.tag := by
  induction items using List.reverseRecOn with
  | nil => rfl
  | append_singleton items item ih =>
      rw [read_concat, add_eq, ih]
      by_cases h : item.isPositional = true
      · simp [h]
      · simp [h]

/-- The last expected value counts. -/
theorem read_expected (items : List Literal) :
    (read items).expected = (items.filterMap Literal.expectation?).getLast?.getD .null := by
  induction items using List.reverseRecOn with
  | nil => rfl
  | append_singleton items item ih =>
      rw [read_concat, add_eq, ih, List.filterMap_append]
      cases h : item.expectation? with
      | none => simp [h]
      | some value => simp [h]

/-- The keywords are set one after another. -/
theorem read_kwargs (items : List Literal) :
    (read items).kwargs =
      setAllNamed [] ((items.filterMap Literal.keyword?).map fun kw => (kw.1, kw.2.tag)) := by
  induction items using List.reverseRecOn with
  | nil => rfl
  | append_singleton items item ih =>
      rw [read_concat, add_eq, List.filterMap_append, List.map_append, setAllNamed_append, ← ih]
      cases h : item.keyword? with
      | none => simp [h, setAllNamed]
      | some kw => simp [h, setAllNamed]

/-- Keywords stand in the order in which they first occur. -/
theorem read_names (items : List Literal) :
    (read items).kwargs.map (·.1) = ((items.filterMap Literal.keyword?).map (·.1)).eraseDups := by
  have hnone : (([] : List (String × Literal)).map (·.1)).Nodup := List.nodup_nil
  rw [read_kwargs, names_setAllNamed hnone, List.map_map]
  rfl

/-- A keyword has the value that it has last. -/
theorem read_keyword (items : List Literal) (name : String) :
    named? (read items).kwargs name =
      ((items.filterMap Literal.keyword?).filter (fun kw => kw.1 = name)).getLast?.map
        fun kw => kw.2.tag := by
  rw [read_kwargs, named?_setAllNamed, named?_nil, Option.or_none, List.filter_map,
    List.getLast?_map, Option.map_map]
  rfl

end CallList

/-! ## Lists that are mixed differently -/

/-- The lists have the same positional items, the same keywords and the same expected
values, each in the same order. -/
structure SameByKind (items items' : List Literal) : Prop where
  positional : items'.filter Literal.isPositional = items.filter Literal.isPositional
  keywords : items'.filterMap Literal.keyword? = items.filterMap Literal.keyword?
  expectations : items'.filterMap Literal.expectation? = items.filterMap Literal.expectation?

/-- Such lists are read alike. -/
theorem CallList.read_congr {items items' : List Literal} (h : SameByKind items items') :
    read items' = read items := by
  have hargs : (read items').args = (read items).args := by
    rw [read_args, read_args, h.positional]
  have hkwargs : (read items').kwargs = (read items).kwargs := by
    rw [read_kwargs, read_kwargs, h.keywords]
  have hexpected : (read items').expected = (read items).expected := by
    rw [read_expected, read_expected, h.expectations]
  calc read items' = ⟨(read items').args, (read items').kwargs, (read items').expected⟩ := rfl
    _ = read items := by rw [hargs, hkwargs, hexpected]

namespace Feature

variable {key : Key} {items : List Literal} {target : String} {f : Feature}

/-- A key that makes a call of a list asks for an operand. -/
theorem operand_of_call {form : FeatureKey.Form} {skip : Bool}
    (hcall : (ofAction skip (actionOf form (.list items))).kind = .call) :
    ∃ assign property, form = .operand assign property := by
  cases form with
  | value target => cases hcall
  | read assign property => cases hcall
  | operand assign property => exact ⟨assign, property, rfl⟩

/-- **A call list is read kind by kind.**  The arguments are the tagged positional items
in order; the keywords stand in the order in which they first occur, each with the
tagged value of its last item; the expected value is that of the last item `==: v`.  So
another list that has the same items of each kind in the same order makes the same
feature, with the same text, however the kinds are mixed in it. -/
theorem call_read_by_kind (hparse : parse (.map [(key, .list items)]) target = .ok f)
    (hcall : f.kind = .call) :
    (∃ assign property args kwargs expected,
      f.action = .call assign property args kwargs expected ∧
      args = (items.filter Literal.isPositional).map Literal.tag ∧
      kwargs.map (·.1) = ((items.filterMap Literal.keyword?).map (·.1)).eraseDups ∧
      (∀ name, named? kwargs name =
        ((items.filterMap Literal.keyword?).filter (fun kw => kw.1 = name)).getLast?.map
          fun kw => kw.2.tag) ∧
      expected = tagExpected ((items.filterMap Literal.expectation?).getLast?.getD .null)) ∧
    ∀ items', SameByKind items items' → parse (.map [(key, .list items')]) target = .ok f := by
  obtain ⟨text, filter, form, htext, hread, hwritable, rfl⟩ := parse_entry_eq_ok_iff.mp hparse
  obtain ⟨assign, property, rfl⟩ := operand_of_call hcall
  refine ⟨⟨assign, property, _, _, _, rfl, CallList.read_args items, CallList.read_names items,
    CallList.read_keyword items, congrArg tagExpected (CallList.read_expected items)⟩, ?_⟩
  intro items' hsame
  have haction : actionOf (.operand assign property) (.list items') =
      actionOf (.operand assign property) (.list items) := by
    change callAction assign property items' = callAction assign property items
    unfold callAction
    rw [CallList.read_congr hsame]
  rw [← haction] at hwritable ⊢
  exact parse_entry_eq_ok_iff.mpr ⟨text, filter, _, htext, hread, hwritable, rfl⟩

/-! ### A list with all kinds of items -/

/-- `[1, {by=: 2}, {==: 3}, {by=: {x: null}}, {x: null}, {==: ERROR}, {at=: 5}]` -/
def mixedItems : List Literal :=
  [.scalar (.int 1), .map [(.str "by=", .scalar (.int 2))], .map [(.str "==", .scalar (.int 3))],
    .map [(.str "by=", .marker "x")], .marker "x", .map [(.str "==", .str "ERROR")],
    .map [(.str "at=", .scalar (.int 5))]]

/-- The same items, kind by kind. -/
def sortedItems : List Literal :=
  [.scalar (.int 1), .marker "x", .map [(.str "by=", .scalar (.int 2))],
    .map [(.str "by=", .marker "x")], .map [(.str "at=", .scalar (.int 5))],
    .map [(.str "==", .scalar (.int 3))], .map [(.str "==", .str "ERROR")]]

/-- What the list asks for. -/
def mixedCall : Action :=
  .call none "divide" [.scalar (.int 1), .reference "x"]
    [("by", .reference "x"), ("at", .scalar (.int 5))] (.scalar (.sentinel .error))

theorem sortedItems_same : SameByKind mixedItems sortedItems := ⟨rfl, rfl, rfl⟩

/-- The list with the items in another order makes the same feature. -/
theorem sorted_read_alike :
    parse (.map [(.str "divide", .list mixedItems)]) "py" = .ok (ofAction false mixedCall) ∧
      (ofAction false mixedCall).kind = .call ∧ SameByKind mixedItems sortedItems ∧
      parse (.map [(.str "divide", .list sortedItems)]) "py" = .ok (ofAction false mixedCall) := by
  have hparse : parse (.map [(.str "divide", .list mixedItems)]) "py" =
      .ok (ofAction false mixedCall) := rfl
  have hread := call_read_by_kind hparse rfl
  exact ⟨hparse, rfl, sortedItems_same, hread.2 sortedItems sortedItems_same⟩

end Feature

end Conformance
