import Conformance.Proofs.Places
import Conformance.Proofs.WrittenMoments

/-!
# Comparing dates and points in time

Dates and points in time are compared by their texts, those with an offset by the text of their
instant in universal time.  `Scalar.SameMoment` says when two of them are the same without any
text: dates that are one, points in time without offsets whose fields are equal, and points in
time with offsets that denote one instant.  `Scalar.momentText_eq_iff` shows that the texts decide
this, since no text belongs to two of them, and `compare_moments` that comparing does: at every
place of a datum that its canonical form keeps, and at no other.
-/

namespace Conformance

namespace DateTime

/-- What a date and time is written as to be compared: its instant in universal time if it has an
offset. -/
def compared (t : DateTime) : DateTime := if t.offset.isSome then t.universal else t

/-- What a moment is compared as needs no further settling. -/
theorem compared_isSettled (t : DateTime) : t.compared.IsSettled := by
  unfold compared
  cases hoffset : t.offset with
  | none => exact Or.inl hoffset
  | some offset => exact Or.inr rfl

/-- It is a moment of the calendar, if the calendar reaches it. -/
theorem compared_valid {t : DateTime} (h : t.Valid) (hreached : t.offset.isSome → t.InCalendar) :
    t.compared.Valid := by
  unfold compared
  split
  · next hoffset => exact universal_valid (hreached hoffset)
  · exact h

/-- The same fields, of dates and times without offsets, or the same instant, of those with. -/
def SameMoment (t u : DateTime) : Prop :=
  match t.offset, u.offset with
  | none, none => t.date = u.date ∧ t.clock = u.clock
  | some _, some _ => t.instant = u.instant
  | _, _ => False

/-- Dates and times are compared as one exactly if they are the same. -/
theorem compared_eq_iff {t u : DateTime} (ht : t.Valid) (hu : u.Valid)
    (hreached : t.offset.isSome → t.InCalendar) (hreached' : u.offset.isSome → u.InCalendar) :
    t.compared = u.compared ↔ t.SameMoment u := by
  unfold compared SameMoment
  cases hoffset : t.offset with
  | none =>
      cases hoffset' : u.offset with
      | none =>
          cases t
          cases u
          simp_all
      | some _ =>
          refine iff_of_false (fun h => ?_) id
          have hsome : t.offset = some 0 := congrArg DateTime.offset h
          rw [hoffset] at hsome
          cases hsome
  | some _ =>
      cases hoffset' : u.offset with
      | none =>
          refine iff_of_false (fun h => ?_) id
          have hsome : some 0 = u.offset := congrArg DateTime.offset h
          rw [hoffset'] at hsome
          cases hsome
      | some _ =>
          rw [hoffset] at hreached
          rw [hoffset'] at hreached'
          exact universal_eq_iff (hreached rfl) (hreached' rfl)

end DateTime

namespace Scalar

/-- A date, or a point in time that the calendar has in universal time if it has an offset. -/
inductive IsMoment : Scalar → Prop
  | date {d : Date} (h : d.Valid) : IsMoment (.date d)
  | datetime {t : DateTime} (h : t.Valid) (hreached : t.offset.isSome → t.InCalendar) :
      IsMoment (.datetime t)

/-- The same date, or points in time that are the same.  A date is no point in time. -/
def SameMoment : Scalar → Scalar → Prop
  | .date d, .date e => d = e
  | .datetime t, .datetime u => t.SameMoment u
  | _, _ => False

/-- The text that a date or a point in time is compared by. -/
def momentText : Scalar → List Char
  | .date d => d.iso
  | .datetime t => t.compared.iso
  | _ => []

/-- A moment is compared by its text. -/
theorem IsMoment.comparedText?_eq {s : Scalar} (h : s.IsMoment) :
    s.comparedText? = some (String.ofList s.momentText) := by
  cases h with
  | date _ => rfl
  | @datetime t _ hreached =>
      unfold comparedText? momentText DateTime.compared
      cases hoffset : t.offset with
      | none => simp [hoffset]
      | some offset =>
          have huniversal := DateTime.toUniversal?_eq_some (hreached (by rw [hoffset]; rfl))
          simp [hoffset, huniversal]

/-- **The texts of dates and points in time** are equal exactly if these are the same. -/
theorem momentText_eq_iff {a b : Scalar} (ha : a.IsMoment) (hb : b.IsMoment) :
    a.momentText = b.momentText ↔ a.SameMoment b := by
  cases ha with
  | date hd =>
      cases hb with
      | date he => exact Date.iso_inj hd he
      | datetime hu hreached =>
          exact iff_of_false (DateTime.date_iso_ne hd (DateTime.compared_valid hu hreached)) id
  | @datetime t ht hreached =>
      cases hb with
      | date he =>
          have hne := DateTime.date_iso_ne he (DateTime.compared_valid ht hreached)
          exact iff_of_false hne.symm id
      | @datetime u hu hreached' =>
          have htext := DateTime.iso_inj (DateTime.compared_valid ht hreached)
            (DateTime.compared_valid hu hreached') t.compared_isSettled u.compared_isSettled
          exact htext.trans (DateTime.compared_eq_iff ht hu hreached hreached')

/-- That text is its form. -/
theorem IsMoment.form_eq {s : Scalar} (h : s.IsMoment) :
    s.form = .str (String.ofList s.momentText) := by
  rw [form, h.comparedText?_eq]

theorem IsMoment.not_offCalendar {s : Scalar} (h : s.IsMoment) : ¬ s.OffCalendar := by
  rintro ⟨t, rfl, hoffset, hnone⟩
  cases h with
  | datetime _ hreached =>
      rw [DateTime.toUniversal?_eq_some (hreached hoffset)] at hnone
      cases hnone

end Scalar

namespace Datum

/-- Moments have canonical forms. -/
theorem formable_moment {s : Scalar} (h : s.IsMoment) : (scalar s).Formable :=
  .scalar h.not_offCalendar

/-- The forms of dates and points in time are the same exactly if these are. -/
theorem formed_moment_same_iff {a b : Scalar} (ha : a.IsMoment) (hb : b.IsMoment) :
    (scalar a).formed.Same (scalar b).formed ↔ a.SameMoment b := by
  rw [formed_scalar (formable_moment ha), formed_scalar (formable_moment hb), ha.form_eq,
    hb.form_eq, ← Scalar.momentText_eq_iff ha hb]
  constructor
  · intro h
    exact String.ofList_injective (eq_of_beq h)
  · intro h
    rw [h]
    exact same_refl (.scalar _)

end Datum

namespace Run

variable {ω : Type}

/-- A place filled with a moment expects something. -/
theorem isOpen_fill_moment (p : Datum.Place) {b : Scalar} (hb : b.IsMoment) :
    isOpen (p.fill (.scalar b)) = false := by
  cases p with
  | hole => cases hb <;> rfl
  | _ => rfl

/-- A place filled with a moment is no not-a-number. -/
theorem not_isNaN_fill_moment (p : Datum.Place) {a : Scalar} (ha : a.IsMoment) :
    ¬ (p.fill (.scalar a)).IsNaN := by
  cases p with
  | hole => cases ha <;> exact id
  | _ => exact id

/-- Starts of two years in universal time. -/
def newYears : DateTime × DateTime :=
  (⟨⟨2020, 1, 1⟩, ⟨0, 0, 0, 0⟩, some 0⟩, ⟨⟨2021, 1, 1⟩, ⟨0, 0, 0, 0⟩, some 0⟩)

theorem isMoment_newYears :
    (Scalar.datetime newYears.1).IsMoment ∧ (Scalar.datetime newYears.2).IsMoment :=
  ⟨.datetime ⟨⟨by decide, by decide, by decide⟩, ⟨by decide, by decide, by decide, by decide⟩⟩
      fun _ => by decide,
    .datetime ⟨⟨by decide, by decide, by decide⟩, ⟨by decide, by decide, by decide, by decide⟩⟩
      fun _ => by decide⟩

theorem newYears_differ : newYears.1.instant ≠ newYears.2.instant := by decide

/-- At a place of a datum that has a form, comparing says whether dates and points in time are the
same, or that the place is lost. -/
theorem compare_fill_moments (impl : Implementation ω) {p : Datum.Place}
    (hdata : (p.fill .null).IsData) (hform : (p.fill .null).Formable) {a b : Scalar}
    (ha : a.IsMoment) (hb : b.IsMoment) :
    Decides (compare impl (p.fill (.scalar a)) (p.fill (.scalar b)))
      (p.Keeps → a.SameMoment b) := by
  have hdataA : (p.fill (.scalar a)).IsData := Datum.isData_fill hdata (.scalar a)
  have hdataB : (p.fill (.scalar b)).IsData := Datum.isData_fill hdata (.scalar b)
  have hformA := Datum.formable_fill hform (Datum.formable_moment ha)
  have hformB := Datum.formable_fill hform (Datum.formable_moment hb)
  refine (compare_formable_decides hdataA hdataB (isOpen_fill_moment p hb) hformA hformB).congr ?_
  rw [Datum.formed_fill_same_iff hdataA hdataB hformA hformB, Datum.formed_moment_same_iff ha hb]
  exact and_iff_right (not_isNaN_fill_moment p ha)

/-- **Comparing dates and points in time** says whether they are the same: dates that are one,
points in time without offsets whose fields are equal, and points in time with offsets, however
written, that denote one instant.  It says so at a place of a datum exactly if the rest of the
datum has a form and that form keeps the place. -/
theorem compare_moments (impl : Implementation ω) :
    (∀ a b : Scalar, a.IsMoment → b.IsMoment →
      Decides (compare impl (.scalar a) (.scalar b)) (a.SameMoment b)) ∧
    ∀ p : Datum.Place, (p.fill .null).IsData →
      ((∀ a b : Scalar, a.IsMoment → b.IsMoment →
        Decides (compare impl (p.fill (.scalar a)) (p.fill (.scalar b))) (a.SameMoment b)) ↔
      (p.fill .null).Formable ∧ p.Keeps) := by
  have hnull : Datum.null.Formable := .scalar fun ⟨_, h, _⟩ => nomatch h
  constructor
  · intro a b ha hb
    have hplain := compare_fill_moments impl (p := .hole) (.scalar .null) hnull ha hb
    exact hplain.congr (imp_iff_right trivial)
  · intro p hdata
    constructor
    · intro h
      obtain ⟨hfirst, hsecond⟩ := isMoment_newYears
      have hdata' : (p.fill (.scalar (.datetime newYears.1))).IsData :=
        Datum.isData_fill hdata (.scalar _)
      -- A point in time equals itself, so there is a form.
      obtain ⟨same, hrun, hsame⟩ := h _ _ hfirst hfirst Store.empty
      rw [hsame.mpr rfl] at hrun
      have htrue := congrArg Prod.fst hrun
      obtain ⟨hform', -⟩ :=
        (compare_data_iff hdata' hdata' (isOpen_fill_moment p hfirst) Store.empty).mp htrue
      have hform : (p.fill .null).Formable := Datum.formable_fill hform' hnull
      refine ⟨hform, ?_⟩
      -- At a place that is lost another one would equal it.
      by_contra hlost
      obtain ⟨other, hrun', hother⟩ := h _ _ hfirst hsecond Store.empty
      obtain ⟨placed, hrun'', hplaced⟩ :=
        compare_fill_moments impl hdata hform hfirst hsecond Store.empty
      rw [hrun', hplaced.mpr fun hkeeps => absurd hkeeps hlost] at hrun''
      cases hrun''
      exact newYears_differ (hother.mp rfl)
    · rintro ⟨hform, hkeeps⟩ a b ha hb
      exact (compare_fill_moments impl hdata hform ha hb).congr (imp_iff_right hkeeps)

/-! ### A leap day and a new year -/

/-- Half past midnight of the first of March, an hour ahead of universal time. -/
def march : DateTime := ⟨⟨2020, 3, 1⟩, ⟨0, 30, 0, 0⟩, some 3600000000⟩

/-- Six in the evening of the leap day before, five and a half hours behind. -/
def february : DateTime := ⟨⟨2020, 2, 29⟩, ⟨18, 0, 0, 0⟩, some (-19800000000)⟩

theorem isMoment_march : (Scalar.datetime march).IsMoment :=
  .datetime ⟨⟨by decide, by decide, by decide⟩, ⟨by decide, by decide, by decide, by decide⟩⟩
    fun _ => by decide

theorem isMoment_february : (Scalar.datetime february).IsMoment :=
  .datetime ⟨⟨by decide, by decide, by decide⟩, ⟨by decide, by decide, by decide, by decide⟩⟩
    fun _ => by decide

/-- The two are one instant, and equal, also in a mapping in a list. -/
theorem leapDay_equals :
    (runFrom (compare (Sample.implementation []) (.scalar (.datetime march))
      (.scalar (.datetime february))) Store.empty).1 = .ok true ∧
    (runFrom (compare (Sample.implementation [])
      (.list [.map [(.str "at", .scalar (.datetime march))]])
      (.list [.map [(.str "at", .scalar (.datetime february))]])) Store.empty).1 = .ok true := by
  have hinstant : march.instant = february.instant := by decide
  have hsame : (Scalar.datetime march).SameMoment (.datetime february) := hinstant
  have hdata : (Datum.list [.map [(.str "at", .null)]]).IsData :=
    .list (List.forall_mem_singleton.mpr (Datum.isData_map_singleton nofun (.scalar _)))
  have hform : (Datum.list [.map [(.str "at", .null)]]).Formable :=
    (Datum.canonical_eq_ok_iff _).mp ⟨_, rfl⟩
  obtain ⟨hplain, hplaced⟩ := compare_moments (Sample.implementation [])
  have hinside := (hplaced (.list [] (.map [] (.str "at") .hole []) []) hdata).mpr
    ⟨hform, nofun, trivial⟩
  obtain ⟨same, hrun, hequal⟩ := hplain _ _ isMoment_march isMoment_february Store.empty
  obtain ⟨same', hrun', hequal'⟩ := hinside _ _ isMoment_march isMoment_february Store.empty
  obtain rfl := hequal.mpr hsame
  obtain rfl := hequal'.mpr hsame
  exact ⟨congrArg Prod.fst hrun, congrArg Prod.fst hrun'⟩

/-- A value under a day, in front of an entry under the text of the day. -/
def lostPlace : Datum.Place :=
  .map [] (.scalar (.date ⟨2020, 1, 2⟩)) .hole [(.str "2020-01-02", .scalar (.int 1))]

/-- Not every place tells points in time apart: here the starts of two years are found equal. -/
theorem compare_not_always_by_instant :
    newYears.1.instant ≠ newYears.2.instant ∧
      (runFrom (compare (Sample.implementation [])
        (lostPlace.fill (.scalar (.datetime newYears.1)))
        (lostPlace.fill (.scalar (.datetime newYears.2)))) Store.empty).1 = .ok true := by
  obtain ⟨hfirst, hsecond⟩ := isMoment_newYears
  have hdata : (lostPlace.fill .null).IsData :=
    .map (by decide) (forall_mem_pair nofun nofun) (forall_mem_pair (.scalar _) (.scalar _))
  have hform : (lostPlace.fill .null).Formable := (Datum.canonical_eq_ok_iff _).mp ⟨_, rfl⟩
  have hlost : ¬ lostPlace.Keeps := fun hkeeps => absurd hkeeps.1 (by decide)
  have hdata₁ := Datum.isData_fill hdata (.scalar (.datetime newYears.1))
  have hdata₂ := Datum.isData_fill hdata (.scalar (.datetime newYears.2))
  have hform₁ := Datum.formable_fill hform (Datum.formable_moment hfirst)
  have hform₂ := Datum.formable_fill hform (Datum.formable_moment hsecond)
  refine ⟨newYears_differ, (compare_data_iff hdata₁ hdata₂ rfl _).mpr ⟨hform₁, hform₂, id, ?_⟩⟩
  rw [Datum.formed_fill_same_iff hdata₁ hdata₂ hform₁ hform₂]
  exact fun hkeeps => absurd hkeeps hlost

end Run

end Conformance
