import Conformance.Proofs.KeptEntries
import Conformance.Proofs.Verdict

/-!
# Comparing a value with itself

A value that is compared with itself is brought into the same form twice, and a form is the same
as itself, so that the only thing that can go wrong is that there is no form.  With all instants
in the calendar this leaves mappings with tuples as keys: a tuple becomes a list, which is no key,
and this mistake counts as a difference.  `compare_self_iff` states that a value without such a
key equals itself and one with such a key does not, and what follows for a feature that reads a
value and expects a reference to it.
-/

namespace Conformance

namespace Datum

/-- A mapping in the datum has a tuple as a key. -/
inductive TupleKeyed : Datum → Prop
  | key {entries : List (Key × Datum)} {e : Key × Datum} {items : List Key} (he : e ∈ entries)
      (hk : e.1 = .tuple items) : TupleKeyed (.map entries)
  | value {entries : List (Key × Datum)} {e : Key × Datum} (he : e ∈ entries)
      (h : TupleKeyed e.2) : TupleKeyed (.map entries)
  | tuple {items : List Datum} {d : Datum} (hd : d ∈ items) (h : TupleKeyed d) :
      TupleKeyed (.tuple items)
  | list {items : List Datum} {d : Datum} (hd : d ∈ items) (h : TupleKeyed d) :
      TupleKeyed (.list items)

/-- Every instant that the datum is compared by is in the calendar. -/
inductive Representable : Datum → Prop
  | scalar {s : Scalar} (h : ¬ s.OffCalendar) : Representable (.scalar s)
  | reference (path : String) : Representable (.reference path)
  | tuple {items : List Datum} (h : ∀ d ∈ items, Representable d) : Representable (.tuple items)
  | list {items : List Datum} (h : ∀ d ∈ items, Representable d) : Representable (.list items)
  | map {entries : List (Key × Datum)} (hkeys : ∀ e ∈ entries, ¬ e.1.OffCalendar)
      (hvalues : ∀ e ∈ entries, Representable e.2) : Representable (.map entries)
  | frozen (entries : List (Key × Datum)) : Representable (.frozen entries)

/-- A datum with a tuple as a key has no form. -/
theorem TupleKeyed.not_formable {d : Datum} (h : d.TupleKeyed) : ¬ d.Formable := by
  induction h with
  | key he hk => exact fun hform => (formable_map_iff.mp hform _ he).1.2 _ hk
  | value he _ ih => exact fun hform => ih (formable_map_iff.mp hform _ he).2
  | tuple hd _ ih => exact fun hform => ih (formable_tuple_iff.mp hform _ hd)
  | list hd _ ih => exact fun hform => ih (formable_list_iff.mp hform _ hd)

/-- **A datum has a form** if its instants are in the calendar and no key is a tuple. -/
theorem Representable.formable_iff {d : Datum} (h : d.Representable) :
    d.Formable ↔ ¬ d.TupleKeyed := by
  refine ⟨fun hform hkeyed => hkeyed.not_formable hform, ?_⟩
  induction h with
  | scalar h => exact fun _ => .scalar h
  | reference path => exact fun _ => .reference path
  | tuple _ ih =>
      intro hnone
      exact .tuple fun d hd => ih d hd fun hkeyed => hnone (.tuple hd hkeyed)
  | list _ ih =>
      intro hnone
      exact .list fun d hd => ih d hd fun hkeyed => hnone (.list hd hkeyed)
  | map hkeys _ ih =>
      intro hnone
      refine .map (fun e he => ⟨hkeys e he, fun items hk => hnone (.key he hk)⟩) fun e he => ?_
      exact ih e he fun hkeyed => hnone (.value he hkeyed)
  | frozen entries => exact fun _ => .frozen entries

mutual

/-- The only fault of a datum with its instants in the calendar is a tuple as a key. -/
theorem Breaks.of_representable {d : Datum} {fault : Fault} :
    d.Breaks fault → d.Representable → fault = .unhashable "list"
  | .instant hoff, .scalar h => absurd hoff h
  | .tuple hbreaks, .tuple h => hbreaks.of_representable h
  | .list hbreaks, .list h => hbreaks.of_representable h
  | .map hbreaks, .map hkeys hvalues => hbreaks.of_representable hkeys hvalues

theorem BreaksAll.of_representable {ds : List Datum} {fault : Fault} :
    BreaksAll ds fault → (∀ d ∈ ds, d.Representable) → fault = .unhashable "list"
  | .here hbreaks, h => hbreaks.of_representable (List.forall_mem_cons.mp h).1
  | .later _ hbreaks, h => hbreaks.of_representable (List.forall_mem_cons.mp h).2

theorem BreaksEntries.of_representable {es : List (Key × Datum)} {fault : Fault} :
    BreaksEntries es fault → (∀ e ∈ es, ¬ e.1.OffCalendar) → (∀ e ∈ es, e.2.Representable) →
      fault = .unhashable "list"
  | .key hoff, hkeys, _ => absurd hoff (List.forall_mem_cons.mp hkeys).1
  | .value _ hbreaks, _, h => hbreaks.of_representable (List.forall_mem_cons.mp h).1
  | .tupleKey _ _, _, _ => rfl
  | .later _ _ hbreaks, hkeys, h =>
      hbreaks.of_representable (List.forall_mem_cons.mp hkeys).2 (List.forall_mem_cons.mp h).2

end

/-- A datum with its instants in the calendar has a form, or a tuple where no key can be one. -/
theorem Representable.canonical_cases {d : Datum} (h : d.Representable) :
    (∃ c, d.canonical = .ok c) ∨ d.canonical = .error (.unhashable "list") := by
  cases hcanonical : d.canonical with
  | ok c => exact Or.inl ⟨c, rfl⟩
  | error fault =>
      have hbreaks := (canonical_eq_error_iff d).mp hcanonical
      rw [hbreaks.of_representable h]
      exact Or.inr rfl

/-- The detail of a failure can show such a datum. -/
theorem Representable.detail_ok {d : Datum} (h : d.Representable) :
    ∃ text, d.detail = .ok text := by
  unfold detail
  rcases h.canonical_cases with ⟨c, hcanonical⟩ | hcanonical
  · rw [hcanonical]
    exact ⟨_, rfl⟩
  · rw [hcanonical]
    exact ⟨_, rfl⟩

end Datum

namespace Run

variable {ω : Type} {impl : Implementation ω} {v : Datum}

/-- An open expected value meets itself. -/
theorem not_isError_of_isOpen (h : isOpen v = true) : v.isError = false := by
  unfold isOpen at h
  split at h
  · rfl
  · rfl
  · cases h

/-- A value that has no form but for a tuple as a key differs from everything. -/
theorem compare_unhashable (h : v.canonical = .error (.unhashable "list")) {expected : Datum}
    (hopen : isOpen expected = false) (store : Store ω) :
    runFrom (compare impl v expected) store = (.ok false, store) := by
  rw [runFrom_compare, hopen, runFrom_canonicallyEqual, h]
  rfl

/-- An open expected value is no mapping. -/
theorem not_tupleKeyed_of_isOpen (h : isOpen v = true) : ¬ v.TupleKeyed := by
  intro hkeyed
  cases hkeyed <;> cases h

/-- **Comparing a value with itself** says whether no key in it is a tuple. -/
theorem compare_self_decides (hv : v.IsData) (hinstants : v.Representable) (hnumber : ¬ v.IsNaN) :
    Decides (compare impl v v) (¬ v.TupleKeyed) := by
  cases hopen : isOpen v with
  | true =>
      intro store
      refine ⟨true, ?_, iff_of_true rfl (not_tupleKeyed_of_isOpen hopen)⟩
      rw [runFrom_compare, hopen, not_isError_of_isOpen hopen]
      rfl
  | false =>
      by_cases hform : v.Formable
      · refine (compare_formable_decides hv hv hopen hform hform).congr ?_
        have hsame := Datum.same_refl (hv.comparable_formed hform)
        exact iff_of_true ⟨hnumber, hsame⟩ (hinstants.formable_iff.mp hform)
      · intro store
        refine ⟨false, compare_unhashable ?_ hopen store, ?_⟩
        · rcases hinstants.canonical_cases with hok | herror
          · exact absurd ((Datum.canonical_eq_ok_iff v).mp hok) hform
          · exact herror
        · rw [← hinstants.formable_iff]
          simp [hform]

/-- The detail of a failure is there if both values have one. -/
theorem failureDetail_ok {u e : Value} {w : World ω} {text text' : String}
    (hactual : (impl.datum w.names w.store u).detail = .ok text)
    (hexpected : (impl.datum w.names w.store e).detail = .ok text') :
    runFrom (failureDetail impl (.done u e)) w =
      (.ok ("Assertion: " ++ text ++ " != " ++ text'), w) := by
  unfold failureDetail
  have hu : runFrom (impl.datumNow u) w = (.ok (impl.datum w.names w.store u), w) := rfl
  have he : runFrom (expectationDatum impl (Outcome.done u e).expected) w =
      (.ok (impl.datum w.names w.store e), w) := runFrom_expectationDatum impl _ w
  dsimp only [Outcome.done] at he ⊢
  rw [runFrom_bind_of_ok hu, runFrom_bind_of_ok he, hactual, hexpected]
  rfl

/-- A value judged by itself passes unless a key in it is a tuple. -/
theorem judge_self (f : Feature) {u : Value} {w : World ω} (hv : (impl.datum w.names w.store u).IsData)
    (hinstants : (impl.datum w.names w.store u).Representable) (hnumber : ¬ (impl.datum w.names w.store u).IsNaN) :
    ∃ r w', runFrom (judge impl f (.done u u)) w = (.ok r, w') ∧ r.outcome = u ∧
      (r.status = .passed ↔ ¬ (impl.datum w.names w.store u).TupleKeyed) := by
  have hself : Decides (compare impl (impl.datum w.names w.store u) (impl.datum w.names w.store u))
      (¬ (impl.datum w.names w.store u).TupleKeyed) := compare_self_decides hv hinstants hnumber
  obtain ⟨same, hrun, hsame⟩ := hself w.store
  obtain ⟨text, htext⟩ := hinstants.detail_ok
  have hexpected : runFrom (expectationDatum impl (Outcome.done u u).expected) w =
      (.ok (impl.datum w.names w.store u), w) := runFrom_expectationDatum impl _ w
  have hvalue : (Outcome.done u u).value = u := rfl
  rw [judge_stages hexpected, hvalue, hrun]
  cases same with
  | true => exact ⟨_, _, rfl, rfl, iff_of_true rfl (hsame.mp rfl)⟩
  | false =>
      dsimp only
      rw [failureDetail_ok htext htext]
      exact ⟨_, _, rfl, rfl, iff_of_false nofun fun h => nomatch hsame.mpr h⟩

/-- **A value compared with itself.**  With all instants in the calendar, a value without objects
that is no not-a-number equals itself exactly if no mapping in it has a tuple as a key.  So a
feature that reads a value and expects a reference to the same value passes exactly if, once the
outcome is bound, the value has no such key; it has a result in any case. -/
theorem compare_self_iff (impl : Implementation ω) {v : Datum} (hv : v.IsData)
    (hinstants : v.Representable) (hnumber : ¬ v.IsNaN) :
    Decides (compare impl v v) (¬ v.TupleKeyed) ∧
    ∀ {scope : ScopeId} {f : Feature} {assign : Option String} {property path : String} {u : Value}
      {w w₁ w₂ w₃ : World ω}, f.action = .read assign property (.reference path) → f.skip = false →
      runFrom (Scope.get impl scope path) w = (.ok u, w₁) →
      runFrom (readOperand impl scope property) w₁ = (.ok u, w₂) →
      runFrom (bindOutcome impl scope f u) w₂ = (.ok (), w₃) → impl.datum w₃.names w₃.store u = v →
      ∃ r w', runFrom (runFeature impl scope f) w = (.ok r, w') ∧ r.outcome = u ∧
        (r.status = .passed ↔ ¬ v.TupleKeyed) := by
  refine ⟨compare_self_decides hv hinstants hnumber, ?_⟩
  intro scope f assign property path u w w₁ w₂ w₃ haction hskip hbound hread hassigned hdatum
  subst hdatum
  have hcomment : f.isComment = false := by
    unfold Feature.isComment
    rw [haction]
  have hresolved : runFrom (Scope.resolve impl scope (.reference path)) w = (.ok u, w₁) := by
    rw [Scope.resolve]
    exact hbound
  have hexecuted : runFrom (execute impl scope f) w = (.ok (.done u u), w₂) := by
    rw [execute_read haction hresolved, hread]
  rw [runFeature_of_bound ⟨hcomment, hskip⟩ hexecuted hassigned]
  exact judge_self f hv hinstants hnumber

/-! ### A diary and a table of pairs -/

/-- A mapping from a day to a tuple. -/
def diary : Datum :=
  .map [(.scalar (.date ⟨2020, 1, 2⟩), .tuple [.scalar (.bool true), .null])]

/-- The world of a scope in which `diary` is that mapping. -/
def diaryWorld : World Sample.Object :=
  ⟨⟨#[.map [(.scalar (.date ⟨2020, 1, 2⟩), .tuple [.scalar (.bool true), .null])]], fun _ => []⟩,
    #[[("diary", .map 0)]], #[], #[]⟩

/-- Reads the mapping and expects a reference to it. -/
def diaryFeature : Feature := .ofAction false (.read none "diary" (.reference "diary"))

/-- The feature passes: the mapping equals itself. -/
theorem diary_passes :
    Decides (compare (Sample.implementation []) diary diary) (¬ diary.TupleKeyed) ∧
      ∃ r w', runFrom (runFeature (Sample.implementation []) 0 diaryFeature) diaryWorld =
        (.ok r, w') ∧ r.status = .passed := by
  have hpair : ∀ d ∈ [Datum.scalar (.bool true), .null], d.IsData ∧ d.Representable := by
    refine forall_mem_pair ⟨.scalar _, .scalar ?_⟩ ⟨.scalar _, .scalar ?_⟩
    · rintro ⟨t, ⟨⟩, -⟩
    · rintro ⟨t, ⟨⟩, -⟩
  have hv : diary.IsData := Datum.isData_map_singleton nofun (.tuple fun d hd => (hpair d hd).1)
  have hinstants : diary.Representable := by
    refine .map (List.forall_mem_singleton.mpr ?_) ?_
    · rintro ⟨t, ⟨⟩, -⟩
    · exact List.forall_mem_singleton.mpr (.tuple fun d hd => (hpair d hd).2)
  have hself := compare_self_iff (Sample.implementation []) hv hinstants id
  refine ⟨hself.1, ?_⟩
  have hbound : runFrom (Scope.get (Sample.implementation []) 0 "diary") diaryWorld =
      (.ok (.map 0), diaryWorld) :=
    Scope.get_of_bound _ (by decide) (by decide) rfl
  have hread : runFrom (readOperand (Sample.implementation []) 0 "diary") diaryWorld =
      (.ok (.map 0), diaryWorld) :=
    readOperand_of_bound _ (by decide) (by decide) rfl
  obtain ⟨r, w', hrun, -, hpassed⟩ := hself.2 (f := diaryFeature) rfl rfl hbound hread rfl rfl
  refine ⟨r, w', hrun, hpassed.mpr fun hkeyed => ?_⟩
  -- The only key is a day, and what is under it holds no mapping.
  cases hkeyed with
  | key he hk =>
      obtain rfl := List.mem_singleton.mp he
      cases hk
  | value he h =>
      obtain rfl := List.mem_singleton.mp he
      cases h with
      | tuple hd h =>
          rcases List.mem_pair.mp hd with rfl | rfl
          · cases h
          · cases h

/-- A mapping from a pair of numbers to a number. -/
def pairTable : Datum :=
  .map [(.tuple [.scalar (.int 1), .scalar (.int 2)], .scalar (.int 3))]

/-- Not every value equals itself: a mapping with a pair as its key does not. -/
theorem compare_not_always_reflexive :
    ¬ ∀ v : Datum, v.IsData → v.Representable → ¬ v.IsNaN →
      (runFrom (compare (Sample.implementation []) v v) Store.empty).1 = .ok true := by
  intro h
  have hv : pairTable.IsData := Datum.isData_map_singleton nofun (.scalar _)
  have hinstants : pairTable.Representable := by
    refine .map (List.forall_mem_singleton.mpr ?_) (List.forall_mem_singleton.mpr (.scalar ?_))
    · intro hoff
      obtain ⟨k, hk, hoff⟩ := Key.offCalendar_tuple_iff.mp hoff
      rcases List.mem_pair.mp hk with rfl | rfl
      · obtain ⟨t, ⟨⟩, -⟩ := Key.offCalendar_scalar_iff.mp hoff
      · obtain ⟨t, ⟨⟩, -⟩ := Key.offCalendar_scalar_iff.mp hoff
    · rintro ⟨t, ⟨⟩, -⟩
  have hunhashable : pairTable.canonical = .error (.unhashable "list") := rfl
  have htrue := h pairTable hv hinstants id
  rw [compare_unhashable hunhashable rfl] at htrue
  cases htrue

end Run

end Conformance
