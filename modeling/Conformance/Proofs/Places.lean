import Conformance.Proofs.KeptEntries

/-!
# Places in data

`Datum.Place` is a datum with one place left open, at any depth inside lists, tuples and values of
mappings, and `Datum.Place.fill` puts a datum there.  Whether what stands at a place matters in a
comparison depends on the rest of the datum alone: the canonical form keeps the place unless, in a
mapping on the way to it, a later key collides with the one that leads there.

`formed_fill_same_iff` compares two data at one place of one datum, and
`Interchangeable.fill` states that data which no comparison tells apart stay so at every place.
-/

namespace Conformance

/-- A datum with one place left open. -/
inductive Datum.Place
  | hole
  | list (before : List Datum) (inner : Place) (after : List Datum)
  | tuple (before : List Datum) (inner : Place) (after : List Datum)
  | map (before : List (Key × Datum)) (key : Key) (inner : Place)
      (after : List (Key × Datum))

namespace Datum.Place

/-- The datum with another at its open place. -/
def fill : Place → Datum → Datum
  | hole, d => d
  | list before inner after, d => .list (before ++ inner.fill d :: after)
  | tuple before inner after, d => .tuple (before ++ inner.fill d :: after)
  | map before key inner after, d => .map (before ++ (key, inner.fill d) :: after)

/-- No key on the way to the open place collides with a later one of its mapping. -/
def Keeps : Place → Prop
  | hole => True
  | list _ inner _ => inner.Keeps
  | tuple _ inner _ => inner.Keeps
  | map _ key inner after => (∀ e ∈ after, key.collides e.1 = false) ∧ inner.Keeps

end Datum.Place

/-! ## Entries around a value -/

namespace Entries

variable {α : Type}

/-- Whether keys are different does not depend on the values. -/
theorem different_around {before after : List (Key × α)} {key : Key} {x y : α}
    (h : Different (before ++ (key, x) :: after)) : Different (before ++ (key, y) :: after) := by
  have hkeys : ∀ z : α, Different (before ++ (key, z) :: after) ↔
      ((before ++ (key, x) :: after).map Prod.fst).Pairwise fun k k' => k.same k' = false := by
    intro z
    have hmap : (before ++ (key, x) :: after).map Prod.fst =
        (before ++ (key, z) :: after).map Prod.fst := by simp
    rw [hmap, List.pairwise_map]
    rfl
  exact (hkeys y).mpr ((hkeys x).mp h)

/-- A value under a key that collides with a later one is not kept. -/
theorem kept_around_lost {key : Key} {after : List (Key × α)}
    (hlost : ∃ e ∈ after, key.collides e.1 = true) (before : List (Key × α)) (x y : α) :
    kept (before ++ (key, x) :: after) = kept (before ++ (key, y) :: after) := by
  have hany : after.any (fun e => key.collides e.1) = true := by simpa using hlost
  induction before with
  | nil => rw [List.nil_append, List.nil_append, kept, kept, hany, if_pos rfl, if_pos rfl]
  | cons e before ih =>
      have hkeys : (before ++ (key, x) :: after).any (fun e' => e.1.collides e'.1) =
          (before ++ (key, y) :: after).any fun e' => e.1.collides e'.1 := by simp
      rw [List.cons_append, List.cons_append, kept, kept, hkeys, ih]

/-- A value under a key that collides with no later one is kept, among the same others whatever
it is. -/
theorem kept_around_kept {key : Key} {after : List (Key × α)}
    (hkept : ∀ e ∈ after, key.collides e.1 = false) (before : List (Key × α)) :
    ∃ earlier later, ∀ x : α,
      kept (before ++ (key, x) :: after) = earlier ++ (key, x) :: later := by
  have hany : after.any (fun e => key.collides e.1) = false := by simpa using hkept
  induction before with
  | nil => exact ⟨[], kept after, fun x => by rw [List.nil_append, kept, hany]; rfl⟩
  | cons e before ih =>
      obtain ⟨earlier, later, hall⟩ := ih
      -- Whether the first entry is kept is decided by the later keys.
      let again := before.any (fun e' => e.1.collides e'.1) || (e.1.collides key ||
        after.any fun e' => e.1.collides e'.1)
      have hagain : ∀ x : α, (before ++ (key, x) :: after).any (fun e' => e.1.collides e'.1) =
          again := fun x => by simp [again]
      cases hcase : again with
      | true =>
          refine ⟨earlier, later, fun x => ?_⟩
          rw [List.cons_append, kept, hagain, hcase, if_pos rfl, hall]
      | false =>
          refine ⟨e :: earlier, later, fun x => ?_⟩
          rw [List.cons_append, kept, hagain, hcase, hall]
          rfl

end Entries

/-- A list with one member in place of another has a property that both members have. -/
theorem forall_mem_around {α : Type} {P : α → Prop} {before after : List α} {x y : α}
    (h : ∀ z ∈ before ++ x :: after, P z) (hy : P x → P y) : ∀ z ∈ before ++ y :: after, P z := by
  rw [List.forall_mem_append, List.forall_mem_cons] at h ⊢
  exact ⟨h.1, hy h.2.1, h.2.2⟩

/-- A relation that holds of each other member of a list and itself holds of the list with one
member in place of another exactly if it holds of these. -/
theorem forall₂_around_iff {α : Type} {R : α → α → Prop} {before after : List α} {x y : α}
    (hbefore : ∀ z ∈ before, R z z) (hafter : ∀ z ∈ after, R z z) :
    List.Forall₂ R (before ++ x :: after) (before ++ y :: after) ↔ R x y := by
  induction before with
  | nil => simpa using fun _ => hafter
  | cons z before ih =>
      obtain ⟨hz, hothers⟩ := List.forall_mem_cons.mp hbefore
      simp [hz, ih hothers]

namespace Datum

/-! ## Forms of mappings -/

/-- **Forms of mappings** are the same if equally many entries are kept, and each kept one has a
partner among the kept ones of the other. -/
theorem formed_map_same_iff {xs ys : List (Key × Datum)} (hxs : (map xs).IsData)
    (hys : (map ys).IsData) (hx : (map xs).Formable) (hy : (map ys).Formable) :
    (map xs).formed.Same (map ys).formed ↔
      (Entries.kept xs).length = (Entries.kept ys).length ∧
        ∀ e ∈ Entries.kept xs, ∃ e' ∈ Entries.kept ys,
          e.1.form.same e'.1.form = true ∧ e.2.formed.Same e'.2.formed := by
  obtain ⟨fs, hfs, hperm⟩ := formed_map (isData_map_iff.mp hxs).1 hx
  obtain ⟨gs, hgs, hperm'⟩ := formed_map (isData_map_iff.mp hys).1 hy
  have hlength : fs.length = (Entries.kept xs).length := by
    rw [hperm.length_eq, List.length_map]
  have hlength' : gs.length = (Entries.kept ys).length := by
    rw [hperm'.length_eq, List.length_map]
  rw [hfs, hgs, same_entries_iff rfl rfl, sameIn_iff, hlength, hlength']
  refine and_congr_right fun _ => ?_
  simp only [hperm.mem_iff, hperm'.mem_iff, List.forall_mem_map]
  simp only [List.mem_map, exists_exists_and_eq_and]

/-- Two kept entries of a mapping whose keys have the same form are one. -/
theorem IsData.eq_of_same_form {entries : List (Key × Datum)} (h : (Datum.map entries).IsData)
    {e e' : Key × Datum} (he : e ∈ Entries.kept entries) (he' : e' ∈ Entries.kept entries)
    (hsame : e.1.form.same e'.1.form = true) : e = e' := by
  obtain ⟨-, hflags, -⟩ := isData_map_iff.mp h
  by_contra hne
  have hdifferent := Key.form_not_same (hflags _ (Entries.mem_of_mem_kept he))
    (hflags _ (Entries.mem_of_mem_kept he')) ((Entries.kept_apart entries).not_collides he he' hne)
  rw [hsame] at hdifferent
  cases hdifferent

/-! ## Data at a place -/

variable {p : Place} {d d' : Datum}

theorem isData_of_fill (h : (p.fill d).IsData) : d.IsData := by
  induction p with
  | hole => exact h
  | list before inner after ih => exact ih (isData_list_iff.mp h _ (by simp))
  | tuple before inner after ih => exact ih (isData_tuple_iff.mp h _ (by simp))
  | map before key inner after ih =>
      exact ih ((isData_map_iff.mp h).2.2 (key, inner.fill d) (by simp))

theorem formable_of_fill (h : (p.fill d).Formable) : d.Formable := by
  induction p with
  | hole => exact h
  | list before inner after ih => exact ih (formable_list_iff.mp h _ (by simp))
  | tuple before inner after ih => exact ih (formable_tuple_iff.mp h _ (by simp))
  | map before key inner after ih =>
      exact ih (formable_map_iff.mp h (key, inner.fill d) (by simp)).2

/-- Data may be put in the place of data. -/
theorem isData_fill (h : (p.fill d).IsData) (hd' : d'.IsData) : (p.fill d').IsData := by
  induction p with
  | hole => exact hd'
  | list before inner after ih =>
      exact isData_list_iff.mpr (forall_mem_around (isData_list_iff.mp h) ih)
  | tuple before inner after ih =>
      exact isData_tuple_iff.mpr (forall_mem_around (isData_tuple_iff.mp h) ih)
  | map before key inner after ih =>
      obtain ⟨hkeys, hflags, hvalues⟩ := isData_map_iff.mp h
      refine isData_map_iff.mpr ⟨Entries.different_around hkeys, ?_, forall_mem_around hvalues ih⟩
      exact forall_mem_around hflags id

/-- What has a form may be put in the place of what has one. -/
theorem formable_fill (h : (p.fill d).Formable) (hd' : d'.Formable) : (p.fill d').Formable := by
  induction p with
  | hole => exact hd'
  | list before inner after ih =>
      exact formable_list_iff.mpr (forall_mem_around (formable_list_iff.mp h) ih)
  | tuple before inner after ih =>
      exact formable_tuple_iff.mpr (forall_mem_around (formable_tuple_iff.mp h) ih)
  | map before key inner after ih =>
      refine formable_map_iff.mpr (forall_mem_around (formable_map_iff.mp h) fun hentry => ?_)
      exact ⟨hentry.1, ih hentry.2⟩

/-- A list with one item in place of another has the same form as before if the items have. -/
theorem formed_items_around_iff {before after : List Datum} {a b x y : Datum}
    (ha : a.items? = some (before ++ x :: after)) (hb : b.items? = some (before ++ y :: after))
    (hdata : a.IsData) (hform : a.Formable) (hform' : b.Formable) :
    a.formed.Same b.formed ↔ x.formed.Same y.formed := by
  have hrefl : ∀ z ∈ before ++ x :: after, z.formed.Same z.formed := by
    intro z hz
    exact same_refl ((hdata.items ha z hz).comparable_formed (hform.items ha z hz))
  rw [formed_of_items ha hform, formed_of_items hb hform', Same, sameAll_iff,
    List.forall₂_map_left_iff, List.forall₂_map_right_iff]
  rw [List.forall_mem_append, List.forall_mem_cons] at hrefl
  exact forall₂_around_iff (R := fun u v : Datum => u.formed.Same v.formed) hrefl.1 hrefl.2.2

section MapAround

variable {before after : List (Key × Datum)} {key : Key} {x y : Datum}

/-- A mapping whose value is not kept has the same form with another in its place. -/
theorem formed_map_around_lost (hx : (map (before ++ (key, x) :: after)).IsData)
    (hy : (map (before ++ (key, y) :: after)).IsData)
    (hform : (map (before ++ (key, x) :: after)).Formable)
    (hform' : (map (before ++ (key, y) :: after)).Formable)
    (hlost : ∃ e ∈ after, key.collides e.1 = true) :
    (map (before ++ (key, x) :: after)).formed.Same
      (map (before ++ (key, y) :: after)).formed := by
  have hkept := Entries.kept_around_lost hlost before x y
  rw [formed_map_same_iff hx hy hform hform', ← hkept]
  refine ⟨rfl, fun e he => ⟨e, he, Key.same_refl _, ?_⟩⟩
  have hmem := Entries.mem_of_mem_kept he
  exact same_refl (((isData_map_iff.mp hx).2.2 e hmem).comparable_formed
    (formable_map_iff.mp hform e hmem).2)

/-- A mapping whose value is kept has the same form with another in its place exactly if the two
have. -/
theorem formed_map_around_kept (hx : (map (before ++ (key, x) :: after)).IsData)
    (hy : (map (before ++ (key, y) :: after)).IsData)
    (hform : (map (before ++ (key, x) :: after)).Formable)
    (hform' : (map (before ++ (key, y) :: after)).Formable)
    (hkeep : ∀ e ∈ after, key.collides e.1 = false) :
    (map (before ++ (key, x) :: after)).formed.Same
      (map (before ++ (key, y) :: after)).formed ↔ x.formed.Same y.formed := by
  obtain ⟨earlier, later, hall⟩ := Entries.kept_around_kept hkeep before
  have hothers : ∀ e ∈ earlier ++ (key, x) :: later, e.2.formed.Same e.2.formed := by
    intro e he
    rw [← hall] at he
    have hmem := Entries.mem_of_mem_kept he
    exact same_refl (((isData_map_iff.mp hx).2.2 e hmem).comparable_formed
      (formable_map_iff.mp hform e hmem).2)
  -- The partner of the value can only be the other value.
  have hown : ∀ e ∈ earlier ++ (key, y) :: later, key.form.same e.1.form = true →
      e = (key, y) := by
    intro e he hsame
    rw [← hall] at he
    refine (hy.eq_of_same_form ?_ he hsame).symm
    rw [hall]
    simp
  rw [formed_map_same_iff hx hy hform hform', hall, hall]
  constructor
  · rintro ⟨-, hpartners⟩
    obtain ⟨e, he, hsame, hvalue⟩ := hpartners (key, x) (by simp)
    rw [hown e he hsame] at hvalue
    exact hvalue
  · intro hvalue
    refine ⟨by simp, ?_⟩
    rw [List.forall_mem_append, List.forall_mem_cons] at hothers ⊢
    refine ⟨fun e he => ⟨e, by simp [he], Key.same_refl _, hothers.1 e he⟩,
      ⟨(key, y), by simp, Key.same_refl _, hvalue⟩,
      fun e he => ⟨e, by simp [he], Key.same_refl _, hothers.2.2 e he⟩⟩

/-- A mapping with one value in place of another has the same form as before if the values have,
or if the value is not kept. -/
theorem formed_map_around_iff (hx : (map (before ++ (key, x) :: after)).IsData)
    (hy : (map (before ++ (key, y) :: after)).IsData)
    (hform : (map (before ++ (key, x) :: after)).Formable)
    (hform' : (map (before ++ (key, y) :: after)).Formable) :
    (map (before ++ (key, x) :: after)).formed.Same (map (before ++ (key, y) :: after)).formed ↔
      ((∀ e ∈ after, key.collides e.1 = false) → x.formed.Same y.formed) := by
  by_cases hkeep : ∀ e ∈ after, key.collides e.1 = false
  · rw [formed_map_around_kept hx hy hform hform' hkeep, imp_iff_right hkeep]
  · have hlost : ∃ e ∈ after, key.collides e.1 = true := by simpa using hkeep
    have hsame := formed_map_around_lost hx hy hform hform' hlost
    exact iff_of_true hsame fun h => absurd h hkeep

end MapAround

/-- **One place of a datum.**  With two data at it, the forms of the datum are the same exactly if
the forms of the two are, or the place is not kept. -/
theorem formed_fill_same_iff (hdata : (p.fill d).IsData) (hdata' : (p.fill d').IsData)
    (hform : (p.fill d).Formable) (hform' : (p.fill d').Formable) :
    (p.fill d).formed.Same (p.fill d').formed ↔ (p.Keeps → d.formed.Same d'.formed) := by
  induction p with
  | hole => simp [Place.fill, Place.Keeps]
  | list before inner after ih =>
      rw [Place.fill, Place.fill] at *
      rw [formed_items_around_iff rfl rfl hdata hform hform']
      exact ih (isData_list_iff.mp hdata _ (by simp)) (isData_list_iff.mp hdata' _ (by simp))
        (formable_list_iff.mp hform _ (by simp)) (formable_list_iff.mp hform' _ (by simp))
  | tuple before inner after ih =>
      rw [Place.fill, Place.fill] at *
      rw [formed_items_around_iff rfl rfl hdata hform hform']
      exact ih (isData_tuple_iff.mp hdata _ (by simp)) (isData_tuple_iff.mp hdata' _ (by simp))
        (formable_tuple_iff.mp hform _ (by simp)) (formable_tuple_iff.mp hform' _ (by simp))
  | map before key inner after ih =>
      rw [Place.fill, Place.fill] at *
      have hvalue := ih ((isData_map_iff.mp hdata).2.2 (key, inner.fill d) (by simp))
        ((isData_map_iff.mp hdata').2.2 (key, inner.fill d') (by simp))
        (formable_map_iff.mp hform (key, inner.fill d) (by simp)).2
        (formable_map_iff.mp hform' (key, inner.fill d') (by simp)).2
      rw [formed_map_around_iff hdata hdata' hform hform', hvalue, Place.Keeps, and_imp]

/-! ## Data that no comparison tells apart -/

/-- Two data that have forms in the same cases, fault alike where they have none, and have the
same form otherwise. -/
structure Interchangeable (d d' : Datum) : Prop where
  breaks : ∀ fault, d.Breaks fault ↔ d'.Breaks fault
  same : d.Formable → d'.Formable → d.formed.Same d'.formed

theorem formable_iff_not_breaks : d.Formable ↔ ∀ fault, ¬ d.Breaks fault := by
  refine ⟨fun h fault => h.not_breaks, fun h => ?_⟩
  cases hcanonical : d.canonical with
  | ok c => exact (canonical_eq_ok_iff d).mp ⟨c, hcanonical⟩
  | error fault => exact absurd ((canonical_eq_error_iff d).mp hcanonical) (h fault)

theorem Interchangeable.formable_iff (h : d.Interchangeable d') : d.Formable ↔ d'.Formable := by
  simp only [formable_iff_not_breaks, h.breaks]

theorem interchangeable_of_formable (hd : d.Formable) (hd' : d'.Formable)
    (h : d.formed.Same d'.formed) : d.Interchangeable d' :=
  ⟨fun _ => iff_of_false hd.not_breaks hd'.not_breaks, fun _ _ => h⟩

theorem breaks_tuple_iff {items : List Datum} {fault : Fault} :
    (tuple items).Breaks fault ↔ BreaksAll items fault := by
  constructor
  · rintro ⟨⟩
    assumption
  · exact .tuple

theorem breaks_list_iff {items : List Datum} {fault : Fault} :
    (list items).Breaks fault ↔ BreaksAll items fault := by
  constructor
  · rintro ⟨⟩
    assumption
  · exact .list

theorem breaks_map_iff {entries : List (Key × Datum)} {fault : Fault} :
    (map entries).Breaks fault ↔ BreaksEntries entries fault := by
  constructor
  · rintro ⟨⟩
    assumption
  · exact .map

/-- Whatever first breaks a list breaks it with an item in place of one that breaks alike. -/
theorem BreaksAll.around {before after : List Datum} {x y : Datum}
    (h : ∀ fault, x.Breaks fault ↔ y.Breaks fault) {fault : Fault}
    (hbreaks : BreaksAll (before ++ x :: after) fault) :
    BreaksAll (before ++ y :: after) fault := by
  have hform : x.Formable → y.Formable := by
    simp only [formable_iff_not_breaks, h, imp_self]
  induction before with
  | nil =>
      cases hbreaks with
      | here hx => exact .here ((h fault).mp hx)
      | later hx hafter => exact .later (hform hx) hafter
  | cons z before ih =>
      cases hbreaks with
      | here hz => exact .here hz
      | later hz hrest => exact .later hz (ih hrest)

@[inherit_doc BreaksAll.around]
theorem BreaksEntries.around {before after : List (Key × Datum)} {key : Key} {x y : Datum}
    (h : ∀ fault, x.Breaks fault ↔ y.Breaks fault) {fault : Fault}
    (hbreaks : BreaksEntries (before ++ (key, x) :: after) fault) :
    BreaksEntries (before ++ (key, y) :: after) fault := by
  have hform : x.Formable → y.Formable := by
    simp only [formable_iff_not_breaks, h, imp_self]
  induction before with
  | nil =>
      cases hbreaks with
      | key hk => exact .key hk
      | value hk hx => exact .value hk ((h fault).mp hx)
      | tupleKey hk hx => exact .tupleKey hk (hform hx)
      | later hk hx hafter => exact .later hk (hform hx) hafter
  | cons e before ih =>
      cases hbreaks with
      | key hk => exact .key hk
      | value hk hz => exact .value hk hz
      | tupleKey hk hz => exact .tupleKey hk hz
      | later hk hz hrest => exact .later hk hz (ih hrest)

theorem breaksAll_around_iff {before after : List Datum} {x y : Datum}
    (h : ∀ fault, x.Breaks fault ↔ y.Breaks fault) (fault : Fault) :
    BreaksAll (before ++ x :: after) fault ↔ BreaksAll (before ++ y :: after) fault :=
  ⟨fun hbreaks => hbreaks.around h, fun hbreaks => hbreaks.around fun fault => (h fault).symm⟩

theorem breaksEntries_around_iff {before after : List (Key × Datum)} {key : Key} {x y : Datum}
    (h : ∀ fault, x.Breaks fault ↔ y.Breaks fault) (fault : Fault) :
    BreaksEntries (before ++ (key, x) :: after) fault ↔
      BreaksEntries (before ++ (key, y) :: after) fault :=
  ⟨fun hbreaks => hbreaks.around h, fun hbreaks => hbreaks.around fun fault => (h fault).symm⟩

/-- Data that break alike do so at every place. -/
theorem breaks_fill (h : ∀ fault, d.Breaks fault ↔ d'.Breaks fault) (fault : Fault) :
    (p.fill d).Breaks fault ↔ (p.fill d').Breaks fault := by
  induction p generalizing fault with
  | hole => exact h fault
  | list before inner after ih =>
      rw [Place.fill, Place.fill, breaks_list_iff, breaks_list_iff]
      exact breaksAll_around_iff ih fault
  | tuple before inner after ih =>
      rw [Place.fill, Place.fill, breaks_tuple_iff, breaks_tuple_iff]
      exact breaksAll_around_iff ih fault
  | map before key inner after ih =>
      rw [Place.fill, Place.fill, breaks_map_iff, breaks_map_iff]
      exact breaksEntries_around_iff ih fault

/-- **Interchangeable data are so at every place.** -/
theorem Interchangeable.fill (h : d.Interchangeable d') (hdata : (p.fill d).IsData)
    (hdata' : (p.fill d').IsData) : (p.fill d).Interchangeable (p.fill d') := by
  refine ⟨breaks_fill h.breaks, fun hform hform' => ?_⟩
  refine (formed_fill_same_iff hdata hdata' hform hform').mpr fun _ => ?_
  exact h.same (formable_of_fill hform) (formable_of_fill hform')

/-- What is the same as a not-a-number is one. -/
theorem isNaN_of_same (h : d.Same d') (hd : d.IsNaN) : d'.IsNaN := by
  cases d with
  | scalar s =>
      cases d' with
      | scalar t =>
          have hessence : s.essence = t.essence := Scalar.same_iff.mp h
          cases s with
          | float x =>
              cases x with
              | nan origin =>
                  cases t with
                  | float y =>
                      cases y with
                      | nan _ => trivial
                      | _ => cases hessence
                  | _ => cases hessence
              | _ => cases hd
          | _ => cases hd
      | _ => cases h
  | _ => cases hd

end Datum

variable {ω : Type} {impl : Implementation ω}

/-- Steps that decide the same run the same. -/
theorem Decides.runFrom_eq {step step' : Code ω Bool} {p q : Prop} (h : Decides step p)
    (h' : Decides step' q) (hpq : p ↔ q) (store : Store ω) :
    runFrom step store = runFrom step' store := by
  obtain ⟨same, hrun, hsame⟩ := h store
  obtain ⟨same', hrun', hsame'⟩ := h' store
  have hequal : same = same' := Bool.eq_iff_iff.mpr (hsame.trans (hpq.trans hsame'.symm))
  rw [hrun, hrun', hequal]

namespace Run

variable {actual actual' expected : Datum}

/-- Without a form of both sides, comparing ends with the fault of the first that has none, and
interchangeable data have one fault. -/
theorem canonicallyEqual_interchangeable (h : actual.Interchangeable actual')
    (hforms : ¬ (actual.Formable ∧ expected.Formable)) (store : Store ω) :
    runFrom (canonicallyEqual impl actual expected) store =
      runFrom (canonicallyEqual impl actual' expected) store := by
  rw [runFrom_canonicallyEqual, runFrom_canonicallyEqual]
  cases hactual : actual.canonical with
  | error fault =>
      have hbreaks := (Datum.canonical_eq_error_iff actual).mp hactual
      rw [(Datum.canonical_eq_error_iff actual').mpr ((h.breaks fault).mp hbreaks)]
  | ok a =>
      have hform := (Datum.canonical_eq_ok_iff actual).mp ⟨a, hactual⟩
      rw [(h.formable_iff.mp hform).canonical_eq]
      cases hexpected : expected.canonical with
      | error fault => rfl
      | ok e =>
          have hform' := (Datum.canonical_eq_ok_iff expected).mp ⟨e, hexpected⟩
          exact absurd ⟨hform, hform'⟩ hforms

/-- **Interchangeable data are judged alike** against everything. -/
theorem compare_interchangeable (ha : actual.IsData) (ha' : actual'.IsData) (he : expected.IsData)
    (h : actual.Interchangeable actual') (herror : actual.isError = actual'.isError)
    (store : Store ω) :
    runFrom (compare impl actual expected) store =
      runFrom (compare impl actual' expected) store := by
  cases hopen : isOpen expected with
  | true =>
      rw [runFrom_compare, runFrom_compare, hopen, herror]
      rfl
  | false =>
      by_cases hforms : actual.Formable ∧ expected.Formable
      · obtain ⟨hform, hexpected⟩ := hforms
        have hform' := h.formable_iff.mp hform
        have hcomparable := ha.comparable_formed hform
        have hcomparable' := ha'.comparable_formed hform'
        have hsame := h.same hform hform'
        have hsame' := Datum.same_symm hcomparable hsame
        have hnumber : actual.IsNaN ↔ actual'.IsNaN := by
          rw [← Datum.isNaN_formed_iff ha hform, ← Datum.isNaN_formed_iff ha' hform']
          exact ⟨Datum.isNaN_of_same hsame, Datum.isNaN_of_same hsame'⟩
        have hverdict : actual.formed.Same expected.formed ↔ actual'.formed.Same expected.formed :=
          ⟨Datum.same_trans hcomparable' hsame', Datum.same_trans hcomparable hsame⟩
        exact (compare_formable_decides ha he hopen hform hexpected).runFrom_eq
          (compare_formable_decides ha' he hopen hform' hexpected)
          (and_congr (not_congr hnumber) hverdict) store
      · rw [runFrom_compare, runFrom_compare, hopen,
          canonicallyEqual_interchangeable h hforms store]
        rfl

end Run

end Conformance
