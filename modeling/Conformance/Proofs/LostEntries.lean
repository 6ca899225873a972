import Conformance.Proofs.Places

/-!
# Entries that a comparison loses

A canonical form keeps one of the entries whose keys collide, and the others are lost before
anything is compared.  So what a comparison counts are the kept entries: mappings that stand
opposite each other in data that are found equal keep equally many, and have equally many if no
keys collide.  Where keys do collide a mapping equals one with fewer entries, whatever the data
around it.
-/

namespace Conformance

namespace Datum

/-- Two mappings stand opposite each other in two data: they are the data, or do so in items of
one index, or in values that are kept under keys of the same form. -/
inductive Opposite (xs ys : List (Key × Datum)) : Datum → Datum → Prop
  | here : Opposite xs ys (.map xs) (.map ys)
  | item {a b x y : Datum} {as bs : List Datum} (ha : a.items? = some as) (hb : b.items? = some bs)
      (hxy : (x, y) ∈ as.zip bs) (h : Opposite xs ys x y) : Opposite xs ys a b
  | value {as bs : List (Key × Datum)} {e e' : Key × Datum} (he : e ∈ Entries.kept as)
      (he' : e' ∈ Entries.kept bs) (hkey : e.1.form.same e'.1.form = true)
      (h : Opposite xs ys e.2 e'.2) : Opposite xs ys (.map as) (.map bs)

/-- **Mappings opposite each other** keep equally many entries if the data have the same form. -/
theorem Opposite.length_kept {xs ys : List (Key × Datum)} {a b : Datum} (h : Opposite xs ys a b)
    (ha : a.IsData) (hb : b.IsData) (hform : a.Formable) (hform' : b.Formable)
    (hsame : a.formed.Same b.formed) : (Entries.kept xs).length = (Entries.kept ys).length := by
  induction h with
  | here => exact ((formed_map_same_iff ha hb hform hform').mp hsame).1
  | @item a b x y as bs has hbs hxy _ ih =>
      have hx : x ∈ as := (List.of_mem_zip hxy).1
      have hy : y ∈ bs := (List.of_mem_zip hxy).2
      refine ih (ha.items has x hx) (hb.items hbs y hy) (hform.items has x hx)
        (hform'.items hbs y hy) ?_
      rw [formed_of_items has hform, formed_of_items hbs hform', Same, sameAll_iff,
        List.forall₂_map_left_iff, List.forall₂_map_right_iff, List.forall₂_iff_zip] at hsame
      exact hsame.2 hxy
  | @value as bs e e' he he' hkey _ ih =>
      have hmem := Entries.mem_of_mem_kept he
      have hmem' := Entries.mem_of_mem_kept he'
      refine ih ((isData_map_iff.mp ha).2.2 e hmem) ((isData_map_iff.mp hb).2.2 e' hmem')
        (formable_map_iff.mp hform e hmem).2 (formable_map_iff.mp hform' e' hmem').2 ?_
      -- The partner of the entry has a key of the same form as well.
      obtain ⟨-, hpartners⟩ := (formed_map_same_iff ha hb hform hform').mp hsame
      obtain ⟨f, hf, hkey', hvalue⟩ := hpartners e he
      have hkeys : f.1.form.same e'.1.form = true := Key.same_trans (Key.same_symm hkey') hkey
      rw [← hb.eq_of_same_form hf he' hkeys]
      exact hvalue

/-- No comparison tells a mapping from its kept entries. -/
theorem interchangeable_kept {xs : List (Key × Datum)} (hdata : (map xs).IsData)
    (hform : (map xs).Formable) : (map xs).Interchangeable (map (Entries.kept xs)) := by
  have hkept : (map (Entries.kept xs)).Formable := formable_map_iff.mpr fun e he =>
    formable_map_iff.mp hform e (Entries.mem_of_mem_kept he)
  refine interchangeable_of_formable hform hkept ?_
  rw [formed_map_same_iff hdata (isData_map_kept hdata) hform hkept,
    Entries.kept_eq_self_iff.mpr (Entries.kept_apart xs)]
  refine ⟨rfl, fun e he => ⟨e, he, Key.same_refl _, ?_⟩⟩
  have hmem := Entries.mem_of_mem_kept he
  exact same_refl (((isData_map_iff.mp hdata).2.2 e hmem).comparable_formed
    (formable_map_iff.mp hform e hmem).2)

end Datum

namespace Run

variable {ω : Type} {impl : Implementation ω}

/-- No mapping stands in an open expected value. -/
theorem isOpen_of_opposite {xs ys : List (Key × Datum)} {actual expected : Datum}
    (h : Datum.Opposite xs ys actual expected) : isOpen expected = false := by
  cases h with
  | here => rfl
  | item _ hitems _ _ =>
      cases expected with
      | tuple _ | list _ => rfl
      | _ => cases hitems
  | value _ _ _ _ => rfl

theorem isOpen_fill_mapping (p : Datum.Place) (entries : List (Key × Datum)) :
    isOpen (p.fill (.map entries)) = false := by
  cases p <;> rfl

theorem not_isNaN_fill_mapping (p : Datum.Place) (entries : List (Key × Datum)) :
    ¬ (p.fill (.map entries)).IsNaN := by
  cases p <;> exact id

/-- A mapping is found equal to its kept entries, at every place. -/
theorem compare_fill_kept {p : Datum.Place} {xs : List (Key × Datum)}
    (hdata : (p.fill (.map xs)).IsData) (hform : (p.fill (.map xs)).Formable) (store : Store ω) :
    (runFrom (compare impl (p.fill (.map xs)) (p.fill (.map (Entries.kept xs)))) store).1 =
      .ok true := by
  have hmap : (Datum.map xs).IsData := Datum.isData_of_fill hdata
  have hdata' : (p.fill (.map (Entries.kept xs))).IsData :=
    Datum.isData_fill hdata (Datum.isData_map_kept hmap)
  have halike := (Datum.interchangeable_kept hmap (Datum.formable_of_fill hform)).fill hdata hdata'
  have hform' := halike.formable_iff.mp hform
  exact (compare_data_iff hdata hdata' (isOpen_fill_mapping p _) store).mpr
    ⟨hform, hform', not_isNaN_fill_mapping p xs, halike.same hform hform'⟩

/-- Mappings that are found equal at a place that is kept keep equally many entries. -/
theorem length_kept_of_compare_fill {p : Datum.Place} (hkeeps : p.Keeps)
    {xs ys : List (Key × Datum)} (hdata : (p.fill (.map xs)).IsData) (hys : (Datum.map ys).IsData)
    {store : Store ω}
    (htrue : (runFrom (compare impl (p.fill (.map xs)) (p.fill (.map ys))) store).1 = .ok true) :
    (Entries.kept xs).length = (Entries.kept ys).length := by
  have hdata' : (p.fill (.map ys)).IsData := Datum.isData_fill hdata hys
  obtain ⟨hform, hform', -, hsame⟩ :=
    (compare_data_iff hdata hdata' (isOpen_fill_mapping p ys) store).mp htrue
  have hplace := (Datum.formed_fill_same_iff hdata hdata' hform hform').mp hsame hkeeps
  have hforms := Datum.formed_map_same_iff (Datum.isData_of_fill hdata) hys
    (Datum.formable_of_fill hform) (Datum.formable_of_fill hform')
  exact (hforms.mp hplace).1

/-- **What a comparison counts.**  If data are found equal, mappings that stand opposite each other
in them keep equally many entries, and so have equally many if no keys of one collide.  In a place
that is kept, a mapping that has a form is found equal to one with fewer entries exactly if keys
of it collide. -/
theorem compare_counts_kept (impl : Implementation ω) (store : Store ω) :
    (∀ {actual expected : Datum}, actual.IsData → expected.IsData →
      (runFrom (compare impl actual expected) store).1 = .ok true →
      ∀ {xs ys : List (Key × Datum)}, Datum.Opposite xs ys actual expected →
        (Entries.kept xs).length = (Entries.kept ys).length ∧
          (Entries.Apart xs → Entries.Apart ys → xs.length = ys.length)) ∧
    ∀ {p : Datum.Place} {xs : List (Key × Datum)}, (p.fill (.map xs)).IsData →
      (p.fill (.map xs)).Formable → p.Keeps →
      ((∃ ys, (Datum.map ys).IsData ∧ ys.length < xs.length ∧
          (runFrom (compare impl (p.fill (.map xs)) (p.fill (.map ys))) store).1 = .ok true) ↔
        ¬ Entries.Apart xs) := by
  constructor
  · intro actual expected ha he htrue xs ys hopposite
    obtain ⟨hform, hform', -, hsame⟩ :=
      (compare_data_iff ha he (isOpen_of_opposite hopposite) store).mp htrue
    have hkept := hopposite.length_kept ha he hform hform' hsame
    refine ⟨hkept, fun hxs hys => ?_⟩
    rw [← Entries.kept_eq_self_iff.mpr hxs, ← Entries.kept_eq_self_iff.mpr hys]
    exact hkept
  · intro p xs hdata hform hkeeps
    constructor
    · rintro ⟨ys, hys, hfewer, htrue⟩ hapart
      have hcount := length_kept_of_compare_fill hkeeps hdata hys htrue
      have hle := Entries.length_kept_le ys
      rw [Entries.kept_eq_self_iff.mpr hapart] at hcount
      omega
    · intro hcollide
      have hkept := Datum.isData_map_kept (Datum.isData_of_fill hdata)
      rw [Entries.apart_iff_length] at hcollide
      have hfewer : (Entries.kept xs).length < xs.length := by omega
      exact ⟨Entries.kept xs, hkept, hfewer, compare_fill_kept hdata hform store⟩

/-! ### A day and its text -/

/-- A mapping with a day and the text of the day as its keys. -/
def dayAndText : List (Key × Datum) :=
  [(.scalar (.date ⟨2020, 1, 2⟩), .scalar (.int 1)), (.str "2020-01-02", .scalar (.int 1))]

/-- A mapping with the text of the day only. -/
def textOnly : List (Key × Datum) := [(.str "2020-01-02", .scalar (.int 1))]

theorem isData_dayAndText : (Datum.map dayAndText).IsData := by
  refine .map (by decide) ?_ (forall_mem_pair (.scalar _) (.scalar _))
  exact forall_mem_pair nofun nofun

theorem formable_dayAndText : (Datum.map dayAndText).Formable :=
  (Datum.canonical_eq_ok_iff _).mp ⟨_, rfl⟩

theorem isData_textOnly : (Datum.map textOnly).IsData :=
  Datum.isData_map_singleton nofun (.scalar _)

/-- The two mappings are found equal. -/
theorem compare_dayAndText :
    (runFrom (compare (Sample.implementation []) (.map dayAndText) (.map textOnly))
      Store.empty).1 = .ok true :=
  compare_fill_kept (p := .hole) isData_dayAndText formable_dayAndText Store.empty

/-- They keep one entry each, and in a list the first of them equals a mapping with fewer
entries. -/
theorem dayAndText_counted :
    (Entries.kept dayAndText).length = (Entries.kept textOnly).length ∧
      ∃ ys, ys.length < dayAndText.length ∧
        (runFrom (compare (Sample.implementation []) (.list [.map dayAndText]) (.list [.map ys]))
          Store.empty).1 = .ok true := by
  have hcounts := compare_counts_kept (Sample.implementation []) Store.empty
  have hkept := hcounts.1 isData_dayAndText isData_textOnly compare_dayAndText .here
  have hdata : (Datum.list [.map dayAndText]).IsData :=
    .list (List.forall_mem_singleton.mpr isData_dayAndText)
  have hform : (Datum.list [.map dayAndText]).Formable :=
    .list (List.forall_mem_singleton.mpr formable_dayAndText)
  have hcollide : ¬ Entries.Apart dayAndText := by decide
  obtain ⟨ys, -, hfewer, htrue⟩ :=
    (hcounts.2 (p := .list [] .hole []) hdata hform trivial).mpr hcollide
  exact ⟨hkept.1, ys, hfewer, htrue⟩

/-- Not every comparison counts entries: a mapping of two equals one of one. -/
theorem compare_not_always_counts :
    ¬ ∀ xs ys : List (Key × Datum), (Datum.map xs).IsData → (Datum.map ys).IsData →
      (runFrom (compare (Sample.implementation []) (.map xs) (.map ys)) Store.empty).1 = .ok true →
      xs.length = ys.length := by
  intro h
  cases h dayAndText textOnly isData_dayAndText isData_textOnly compare_dayAndText

end Run

end Conformance
