import Conformance.Data.Canonical
import Conformance.Proofs.Binding
import Mathlib.Data.List.Basic

/-!
# Data without a canonical form

Three things have no canonical form: an instant whose universal time is outside the calendar, a
value that contains itself, and a tuple as the key of a mapping, since it would become a list.
The form of a datum is made part by part, and the first part without one decides the fault.

`Datum.Formable` and `Datum.Breaks` say this of a datum without making the form, and
`Datum.canonical_eq_ok_iff` and `Datum.canonical_eq_error_iff` that it is so.
-/

namespace Conformance

/-! ## Instants outside the calendar -/

/-- A date and time with an offset whose universal time is outside the calendar. -/
def Scalar.OffCalendar (s : Scalar) : Prop :=
  ∃ t : DateTime, s = .datetime t ∧ t.offset.isSome ∧ t.toUniversal? = none

/-- A scalar without a canonical form is a moment that the calendar does not reach. -/
theorem Scalar.canonical_eq_error_iff {s : Scalar} {fault : Fault} :
    s.canonical = .error fault ↔ s.OffCalendar ∧ fault = .dateRange := by
  constructor
  · intro h
    unfold canonical at h
    split at h
    case h_4 t =>
      split at h
      · cases h
      · next offset hoffset =>
          split at h
          · cases h
          · next huniversal =>
              cases h
              exact ⟨⟨t, rfl, by rw [hoffset]; rfl, huniversal⟩, rfl⟩
    all_goals cases h
  · rintro ⟨⟨t, rfl, hoffset, huniversal⟩, rfl⟩
    obtain ⟨offset, hoffset⟩ := Option.isSome_iff_exists.mp hoffset
    unfold canonical
    dsimp only
    rw [hoffset, huniversal]

namespace Key

/-- A key that is such an instant, or a tuple that holds one. -/
inductive OffCalendar : Key → Prop
  | scalar {s : Scalar} (h : s.OffCalendar) : OffCalendar (.scalar s)
  | tuple {items : List Key} {k : Key} (hk : k ∈ items) (h : OffCalendar k) :
      OffCalendar (.tuple items)

theorem offCalendar_scalar_iff {s : Scalar} : (scalar s).OffCalendar ↔ s.OffCalendar := by
  constructor
  · rintro ⟨h⟩
    exact h
  · exact .scalar

theorem offCalendar_tuple_iff {items : List Key} :
    (tuple items).OffCalendar ↔ ∃ k ∈ items, k.OffCalendar := by
  constructor
  · intro h
    cases h with
    | tuple hk h => exact ⟨_, hk, h⟩
  · rintro ⟨k, hk, h⟩
    exact .tuple hk h

mutual

/-- A key faults for an instant outside the calendar only. -/
theorem canonical_eq_error_iff : ∀ (k : Key) {fault : Fault},
    k.canonical = .error fault ↔ k.OffCalendar ∧ fault = .dateRange
  | .scalar s, fault => by
      rw [canonical, map_eq_error_iff, Scalar.canonical_eq_error_iff,
        offCalendar_scalar_iff]
  | .tuple items, fault => by
      rw [canonical, map_eq_error_iff, canonicalAll_eq_error_iff items,
        offCalendar_tuple_iff]
  | .reference _, fault => ⟨nofun, fun h => nomatch h.1⟩
  | .object _, fault => ⟨nofun, fun h => nomatch h.1⟩
  | .flag _, fault => ⟨nofun, fun h => nomatch h.1⟩

/-- The items of a key have forms, or one of them leaves the calendar. -/
theorem canonicalAll_eq_error_iff : ∀ (ks : List Key) {fault : Fault},
    canonicalAll ks = .error fault ↔ (∃ k ∈ ks, k.OffCalendar) ∧ fault = .dateRange
  | [], fault => by simp [canonicalAll]
  | k :: ks, fault => by
      have hks : canonicalAll ks = .error fault ↔ (∃ k ∈ ks, k.OffCalendar) ∧ fault = .dateRange :=
        canonicalAll_eq_error_iff ks
      rw [canonicalAll, error_of_bind_iff, List.exists_mem_cons_iff, hks,
        canonical_eq_error_iff k, or_and_right]
      constructor
      · rintro (hk | ⟨-, -, hrest⟩)
        · exact Or.inl hk
        · exact Or.inr hrest
      · rintro (hk | hrest)
        · exact Or.inl hk
        · cases hcanonical : k.canonical with
          | error other =>
              obtain ⟨hk, -⟩ := (canonical_eq_error_iff k).mp hcanonical
              exact Or.inl ⟨hk, hrest.2⟩
          | ok c => exact Or.inr ⟨c, rfl, hrest⟩

end

/-- A key that can be one of a canonical form. -/
def Formable (k : Key) : Prop := ¬ k.OffCalendar ∧ ∀ items, k ≠ .tuple items

/-- A key without such an instant has a form unless it is a tuple. -/
theorem canonical_of_not_offCalendar {k : Key} (h : ¬ k.OffCalendar) :
    (∃ items, k = .tuple items ∧ k.canonical = .ok none) ∨
      ∃ c, k.Formable ∧ k.canonical = .ok (some c) := by
  cases hcanonical : k.canonical with
  | error fault => exact absurd ((canonical_eq_error_iff k).mp hcanonical).1 h
  | ok c =>
      cases k with
      | tuple items =>
          rw [canonical] at hcanonical
          cases hall : canonicalAll items with
          | error fault => simp [hall, Except.map] at hcanonical
          | ok u =>
              rw [hall] at hcanonical
              cases hcanonical
              exact Or.inl ⟨items, rfl, rfl⟩
      | scalar s =>
          rw [canonical] at hcanonical
          cases hscalar : s.canonical with
          | error fault => simp [hscalar, Except.map] at hcanonical
          | ok c =>
              rw [hscalar] at hcanonical
              cases hcanonical
              exact Or.inr ⟨_, ⟨h, nofun⟩, rfl⟩
      | reference path =>
          cases hcanonical
          exact Or.inr ⟨_, ⟨h, nofun⟩, rfl⟩
      | object location =>
          cases hcanonical
          exact Or.inr ⟨_, ⟨h, nofun⟩, rfl⟩
      | flag b =>
          cases hcanonical
          exact Or.inr ⟨_, ⟨h, nofun⟩, rfl⟩

end Key

/-! ## Data with a form -/

namespace Datum

/-- Every part of the datum has a form. -/
inductive Formable : Datum → Prop
  | scalar {s : Scalar} (h : ¬ s.OffCalendar) : Formable (.scalar s)
  | tuple {items : List Datum} (h : ∀ d ∈ items, Formable d) : Formable (.tuple items)
  | list {items : List Datum} (h : ∀ d ∈ items, Formable d) : Formable (.list items)
  | map {entries : List (Key × Datum)} (hkeys : ∀ e ∈ entries, e.1.Formable)
      (hvalues : ∀ e ∈ entries, Formable e.2) : Formable (.map entries)
  | flag (b : Bool) : Formable (.flag b)
  | reference (path : String) : Formable (.reference path)
  | frozen (entries : List (Key × Datum)) : Formable (.frozen entries)
  | object (location : Loc) (shown : String) : Formable (.object location shown)
  | method (owner : Key) (name : String) : Formable (.method owner name)

mutual

/-- The datum has no form: its first part without one is the reason for the fault. -/
inductive Breaks : Datum → Fault → Prop
  | instant {s : Scalar} (h : s.OffCalendar) : Breaks (.scalar s) .dateRange
  | endless (shown : String) : Breaks (.endless shown) .endless
  | tuple {items : List Datum} {fault : Fault} (h : BreaksAll items fault) :
      Breaks (.tuple items) fault
  | list {items : List Datum} {fault : Fault} (h : BreaksAll items fault) :
      Breaks (.list items) fault
  | map {entries : List (Key × Datum)} {fault : Fault} (h : BreaksEntries entries fault) :
      Breaks (.map entries) fault

/-- One of the data is the first without a form. -/
inductive BreaksAll : List Datum → Fault → Prop
  | here {d : Datum} {ds : List Datum} {fault : Fault} (hd : Breaks d fault) :
      BreaksAll (d :: ds) fault
  | later {d : Datum} {ds : List Datum} {fault : Fault} (hd : Formable d)
      (hds : BreaksAll ds fault) : BreaksAll (d :: ds) fault

/-- One of the keys and values is the first without a form.  A tuple is refused as a key only
after the value under it. -/
inductive BreaksEntries : List (Key × Datum) → Fault → Prop
  | key {k : Key} {d : Datum} {es : List (Key × Datum)} (hk : k.OffCalendar) :
      BreaksEntries ((k, d) :: es) .dateRange
  | value {k : Key} {d : Datum} {es : List (Key × Datum)} {fault : Fault}
      (hk : ¬ k.OffCalendar) (hd : Breaks d fault) : BreaksEntries ((k, d) :: es) fault
  | tupleKey {items : List Key} {d : Datum} {es : List (Key × Datum)}
      (hk : ¬ (Key.tuple items).OffCalendar) (hd : Formable d) :
      BreaksEntries ((.tuple items, d) :: es) (.unhashable "list")
  | later {k : Key} {d : Datum} {es : List (Key × Datum)} {fault : Fault} (hk : k.Formable)
      (hd : Formable d) (hes : BreaksEntries es fault) : BreaksEntries ((k, d) :: es) fault

end

/-! ### Taking the relations apart -/

theorem formable_tuple_iff {items : List Datum} :
    (tuple items).Formable ↔ ∀ d ∈ items, d.Formable := by
  constructor
  · rintro ⟨⟩
    assumption
  · exact .tuple

theorem formable_list_iff {items : List Datum} :
    (list items).Formable ↔ ∀ d ∈ items, d.Formable := by
  constructor
  · rintro ⟨⟩
    assumption
  · exact .list

/-- The keys of a mapping need forms as well. -/
theorem formable_map_iff {entries : List (Key × Datum)} :
    (map entries).Formable ↔ ∀ e ∈ entries, e.1.Formable ∧ e.2.Formable := by
  constructor
  · intro h
    cases h with
    | map hkeys hvalues => exact fun e he => ⟨hkeys e he, hvalues e he⟩
  · exact fun h => .map (fun e he => (h e he).1) fun e he => (h e he).2

/-- The entries from one whose key has a form on. -/
theorem canonicalEntries_of_key {k : Key} {c : Key} (hk : k.canonical = .ok (some c)) (d : Datum)
    (es : List (Key × Datum)) (done : Entries Datum) :
    canonicalEntries done ((k, d) :: es) =
      d.canonical >>= fun value => canonicalEntries (done.set c value) es := by
  rw [canonicalEntries, hk]
  rfl

/-- The entries from one with a tuple as its key on. -/
theorem canonicalEntries_of_tuple {k : Key} (hk : k.canonical = .ok none) (d : Datum)
    (es : List (Key × Datum)) (done : Entries Datum) :
    canonicalEntries done ((k, d) :: es) =
      d.canonical >>= fun _ => .error (.unhashable "list") := by
  rw [canonicalEntries, hk]
  rfl

/-- The entries from one with an instant outside the calendar in its key on. -/
theorem canonicalEntries_of_offCalendar {k : Key} (hk : k.OffCalendar) (d : Datum)
    (es : List (Key × Datum)) (done : Entries Datum) :
    canonicalEntries done ((k, d) :: es) = .error .dateRange := by
  rw [canonicalEntries, (Key.canonical_eq_error_iff k).mpr ⟨hk, rfl⟩]
  rfl

mutual

/-- **A datum has a canonical form** exactly if every part of it has one. -/
theorem canonical_eq_ok_iff : ∀ d : Datum, (∃ c, d.canonical = .ok c) ↔ d.Formable
  | .scalar s => by
      rw [canonical, exists_map_eq_ok_iff]
      cases hcanonical : s.canonical with
      | error fault =>
          have hoff := (Scalar.canonical_eq_error_iff.mp hcanonical).1
          refine ⟨nofun, ?_⟩
          rintro ⟨h⟩
          exact absurd hoff h
      | ok c =>
          refine ⟨fun _ => .scalar fun hoff => ?_, fun _ => ⟨c, rfl⟩⟩
          cases hcanonical.symm.trans (Scalar.canonical_eq_error_iff.mpr ⟨hoff, rfl⟩)
  | .tuple items => by
      rw [canonical, exists_map_eq_ok_iff, canonicalAll_eq_ok_iff items, formable_tuple_iff]
  | .list items => by
      rw [canonical, exists_map_eq_ok_iff, canonicalAll_eq_ok_iff items, formable_list_iff]
  | .map entries => by
      rw [canonical, exists_map_eq_ok_iff, canonicalEntries_eq_ok_iff entries [],
        formable_map_iff]
  | .endless shown => ⟨nofun, nofun⟩
  | .flag b => ⟨fun _ => .flag b, fun _ => ⟨_, rfl⟩⟩
  | .reference path => ⟨fun _ => .reference path, fun _ => ⟨_, rfl⟩⟩
  | .frozen entries => ⟨fun _ => .frozen entries, fun _ => ⟨_, rfl⟩⟩
  | .object location shown => ⟨fun _ => .object location shown, fun _ => ⟨_, rfl⟩⟩
  | .method owner name => ⟨fun _ => .method owner name, fun _ => ⟨_, rfl⟩⟩

/-- Items have canonical forms together if each has one. -/
theorem canonicalAll_eq_ok_iff : ∀ ds : List Datum,
    (∃ cs, canonicalAll ds = .ok cs) ↔ ∀ d ∈ ds, d.Formable
  | [] => by simp [canonicalAll]
  | d :: ds => by
      rw [canonicalAll, exists_bind_eq_ok_iff, List.forall_mem_cons,
        ← canonical_eq_ok_iff d, ← canonicalAll_eq_ok_iff ds]
      simp [exists_bind_eq_ok_iff, pure, Except.pure]

/-- Entries have canonical forms together if all their keys and values have, whatever there is
before them. -/
theorem canonicalEntries_eq_ok_iff : ∀ (es : List (Key × Datum)) (done : Entries Datum),
    (∃ cs, canonicalEntries done es = .ok cs) ↔ ∀ e ∈ es, e.1.Formable ∧ e.2.Formable
  | [], done => by simp [canonicalEntries]
  | (k, d) :: es, done => by
      rw [List.forall_mem_cons]
      by_cases hoff : k.OffCalendar
      · rw [canonicalEntries_of_offCalendar hoff]
        exact ⟨nofun, fun h => absurd hoff h.1.1.1⟩
      · rcases Key.canonical_of_not_offCalendar hoff with ⟨items, rfl, hk⟩ | ⟨c, hform, hk⟩
        · rw [canonicalEntries_of_tuple hk, exists_bind_eq_ok_iff]
          exact ⟨nofun, fun h => absurd rfl (h.1.1.2 items)⟩
        · rw [canonicalEntries_of_key hk, exists_bind_eq_ok_iff]
          simp only [canonicalEntries_eq_ok_iff es, exists_and_right, canonical_eq_ok_iff d, hform,
            true_and]

end

mutual

/-- **A datum has no canonical form** for the first part of it that has none. -/
theorem canonical_eq_error_iff : ∀ (d : Datum) {fault : Fault},
    d.canonical = .error fault ↔ d.Breaks fault
  | .scalar s, fault => by
      rw [canonical, map_eq_error_iff, Scalar.canonical_eq_error_iff]
      constructor
      · rintro ⟨hoff, rfl⟩
        exact .instant hoff
      · rintro ⟨hoff⟩
        exact ⟨hoff, rfl⟩
  | .tuple items, fault => by
      rw [canonical, map_eq_error_iff, canonicalAll_eq_error_iff items]
      constructor
      · exact .tuple
      · rintro ⟨⟩
        assumption
  | .list items, fault => by
      rw [canonical, map_eq_error_iff, canonicalAll_eq_error_iff items]
      constructor
      · exact .list
      · rintro ⟨⟩
        assumption
  | .map entries, fault => by
      rw [canonical, map_eq_error_iff, canonicalEntries_eq_error_iff entries]
      constructor
      · exact .map
      · rintro ⟨⟩
        assumption
  | .endless shown, fault => by
      constructor
      · rintro ⟨⟩
        exact .endless shown
      · rintro ⟨⟩
        rfl
  | .flag _, fault => ⟨nofun, nofun⟩
  | .reference _, fault => ⟨nofun, nofun⟩
  | .frozen _, fault => ⟨nofun, nofun⟩
  | .object _ _, fault => ⟨nofun, nofun⟩
  | .method _ _, fault => ⟨nofun, nofun⟩

/-- The first item without a form gives the fault. -/
theorem canonicalAll_eq_error_iff : ∀ (ds : List Datum) {fault : Fault},
    canonicalAll ds = .error fault ↔ BreaksAll ds fault
  | [], fault => ⟨nofun, nofun⟩
  | d :: ds, fault => by
      rw [canonicalAll]
      simp only [error_of_bind_iff, canonical_eq_error_iff d, canonicalAll_eq_error_iff ds]
      constructor
      · rintro (hd | ⟨c, hc, hds | ⟨cs, -, hnever⟩⟩)
        · exact .here hd
        · exact .later ((canonical_eq_ok_iff d).mp ⟨c, hc⟩) hds
        · cases hnever
      · intro h
        cases h with
        | here hd => exact Or.inl hd
        | later hd hds =>
            obtain ⟨c, hc⟩ := (canonical_eq_ok_iff d).mpr hd
            exact Or.inr ⟨c, hc, Or.inl hds⟩

/-- The first entry without a form gives the fault: its key, then its value, and last a key that is
a list by then. -/
theorem canonicalEntries_eq_error_iff : ∀ (es : List (Key × Datum)) {done : Entries Datum}
    {fault : Fault}, canonicalEntries done es = .error fault ↔ BreaksEntries es fault
  | [], done, fault => ⟨nofun, nofun⟩
  | (k, d) :: es, done, fault => by
      by_cases hoff : k.OffCalendar
      · rw [canonicalEntries_of_offCalendar hoff]
        constructor
        · rintro ⟨⟩
          exact .key hoff
        · intro h
          cases h with
          | key => rfl
          | value hk => exact absurd hoff hk
          | tupleKey hk => exact absurd hoff hk
          | later hk => exact absurd hoff hk.1
      · rcases Key.canonical_of_not_offCalendar hoff with ⟨items, rfl, hk⟩ | ⟨c, hform, hk⟩
        · rw [canonicalEntries_of_tuple hk, error_of_bind_iff, canonical_eq_error_iff d]
          constructor
          · rintro (hd | ⟨value, hvalue, ⟨⟩⟩)
            · exact .value hoff hd
            · exact .tupleKey hoff ((canonical_eq_ok_iff d).mp ⟨value, hvalue⟩)
          · intro h
            cases h with
            | key hk => exact absurd hk hoff
            | value _ hd => exact Or.inl hd
            | tupleKey _ hd =>
                obtain ⟨value, hvalue⟩ := (canonical_eq_ok_iff d).mpr hd
                exact Or.inr ⟨value, hvalue, rfl⟩
            | later hk => exact absurd rfl (hk.2 items)
        · rw [canonicalEntries_of_key hk, error_of_bind_iff, canonical_eq_error_iff d]
          simp only [canonicalEntries_eq_error_iff es]
          constructor
          · rintro (hd | ⟨value, hvalue, hes⟩)
            · exact .value hoff hd
            · exact .later hform ((canonical_eq_ok_iff d).mp ⟨value, hvalue⟩) hes
          · intro h
            cases h with
            | key hk => exact absurd hk hoff
            | value _ hd => exact Or.inl hd
            | tupleKey => exact absurd rfl (hform.2 _)
            | later _ hd hes =>
                obtain ⟨value, hvalue⟩ := (canonical_eq_ok_iff d).mpr hd
                exact Or.inr ⟨value, hvalue, hes⟩

end

/-- A datum with a form has no part without one. -/
theorem Formable.not_breaks {d : Datum} (h : d.Formable) {fault : Fault} : ¬ d.Breaks fault := by
  intro hbreaks
  obtain ⟨c, hc⟩ := (canonical_eq_ok_iff d).mpr h
  cases hc.symm.trans ((canonical_eq_error_iff d).mpr hbreaks)

mutual

/-- The three faults of a datum without a form. -/
theorem Breaks.fault_eq {d : Datum} {fault : Fault} :
    d.Breaks fault → fault = .dateRange ∨ fault = .endless ∨ fault = .unhashable "list"
  | .instant _ => Or.inl rfl
  | .endless _ => Or.inr (Or.inl rfl)
  | .tuple h => h.fault_eq
  | .list h => h.fault_eq
  | .map h => h.fault_eq

/-- The same of items. -/
theorem BreaksAll.fault_eq {ds : List Datum} {fault : Fault} :
    BreaksAll ds fault → fault = .dateRange ∨ fault = .endless ∨ fault = .unhashable "list"
  | .here h => h.fault_eq
  | .later _ h => h.fault_eq

/-- The same of entries. -/
theorem BreaksEntries.fault_eq {es : List (Key × Datum)} {fault : Fault} :
    BreaksEntries es fault → fault = .dateRange ∨ fault = .endless ∨ fault = .unhashable "list"
  | .key _ => Or.inl rfl
  | .value _ h => h.fault_eq
  | .tupleKey _ _ => Or.inr (Or.inr rfl)
  | .later _ _ h => h.fault_eq

end

/-! ## Objects in data -/

/-- The object at a location is a part of the datum. -/
inductive Holds (location : Loc) : Datum → Prop
  | object (shown : String) : Holds location (.object location shown)
  | tuple {items : List Datum} {d : Datum} (hd : d ∈ items) (h : Holds location d) :
      Holds location (.tuple items)
  | list {items : List Datum} {d : Datum} (hd : d ∈ items) (h : Holds location d) :
      Holds location (.list items)
  | map {entries : List (Key × Datum)} {e : Key × Datum} (he : e ∈ entries)
      (h : Holds location e.2) : Holds location (.map entries)
  | frozen {entries : List (Key × Datum)} {e : Key × Datum} (he : e ∈ entries)
      (h : Holds location e.2) : Holds location (.frozen entries)

/-- All objects in the datum are at locations of a set. -/
def Within (P : Loc → Prop) (d : Datum) : Prop := ∀ location, d.Holds location → P location

section Within

variable {P : Loc → Prop}

theorem within_tuple_iff {items : List Datum} :
    (tuple items).Within P ↔ ∀ d ∈ items, d.Within P := by
  constructor
  · exact fun h d hd location hholds => h location (.tuple hd hholds)
  · intro h location hholds
    cases hholds with
    | tuple hd hholds => exact h _ hd location hholds

theorem within_list_iff {items : List Datum} :
    (list items).Within P ↔ ∀ d ∈ items, d.Within P := by
  constructor
  · exact fun h d hd location hholds => h location (.list hd hholds)
  · intro h location hholds
    cases hholds with
    | list hd hholds => exact h _ hd location hholds

/-- Only the values of a mapping count: a key is asked for nothing. -/
theorem within_map_iff {entries : List (Key × Datum)} :
    (map entries).Within P ↔ ∀ e ∈ entries, e.2.Within P := by
  constructor
  · exact fun h e he location hholds => h location (.map he hholds)
  · intro h location hholds
    cases hholds with
    | map he hholds => exact h _ he location hholds

theorem within_frozen_iff {entries : List (Key × Datum)} :
    (frozen entries).Within P ↔ ∀ e ∈ entries, e.2.Within P := by
  constructor
  · exact fun h e he location hholds => h location (.frozen he hholds)
  · intro h location hholds
    cases hholds with
    | frozen he hholds => exact h _ he location hholds

mutual

/-- The objects in a canonical form are in the datum. -/
theorem Within.canonical : ∀ {d c : Datum}, d.Within P → d.canonical = .ok c → c.Within P
  | .scalar s, c, _, hc => by
      rw [Datum.canonical] at hc
      obtain ⟨s', -, rfl⟩ := ok_of_map_ok hc
      exact nofun
  | .tuple items, c, h, hc => by
      rw [Datum.canonical] at hc
      obtain ⟨cs, hcs, rfl⟩ := ok_of_map_ok hc
      exact within_list_iff.mpr (canonicalAll_within (within_tuple_iff.mp h) hcs)
  | .list items, c, h, hc => by
      rw [Datum.canonical] at hc
      obtain ⟨cs, hcs, rfl⟩ := ok_of_map_ok hc
      exact within_list_iff.mpr (canonicalAll_within (within_list_iff.mp h) hcs)
  | .map entries, c, h, hc => by
      rw [Datum.canonical] at hc
      obtain ⟨cs, hcs, rfl⟩ := ok_of_map_ok hc
      exact within_map_iff.mpr
        (canonicalEntries_within (within_map_iff.mp h) (List.forall_mem_nil _) hcs)
  | .endless _, c, _, hc => nomatch hc
  | .flag _, c, h, hc => by cases hc; exact h
  | .reference _, c, h, hc => by cases hc; exact h
  | .frozen _, c, h, hc => by cases hc; exact h
  | .object _ _, c, h, hc => by cases hc; exact h
  | .method _ _, c, h, hc => by cases hc; exact h

/-- The same of items. -/
theorem canonicalAll_within : ∀ {ds cs : List Datum}, (∀ d ∈ ds, d.Within P) →
    canonicalAll ds = .ok cs → ∀ c ∈ cs, c.Within P
  | [], cs, _, hcs => by
      cases hcs
      exact nofun
  | d :: ds, cs, h, hcs => by
      rw [List.forall_mem_cons] at h
      rw [canonicalAll] at hcs
      obtain ⟨c, hc, hcs⟩ := ok_of_bind_ok hcs
      obtain ⟨rest, hrest, hcs⟩ := ok_of_bind_ok hcs
      obtain rfl := Except.ok.inj hcs
      rw [List.forall_mem_cons]
      exact ⟨h.1.canonical hc, canonicalAll_within h.2 hrest⟩

/-- The same of entries, over those that are gathered before. -/
theorem canonicalEntries_within : ∀ {es : List (Key × Datum)} {done cs : Entries Datum},
    (∀ e ∈ es, e.2.Within P) → (∀ e ∈ done, e.2.Within P) →
    canonicalEntries done es = .ok cs → ∀ e ∈ cs, e.2.Within P
  | [], done, cs, _, hdone, hcs => by
      cases hcs
      exact hdone
  | (k, d) :: es, done, cs, h, hdone, hcs => by
      rw [List.forall_mem_cons] at h
      rw [canonicalEntries] at hcs
      obtain ⟨key, hkey, hcs⟩ := ok_of_bind_ok hcs
      obtain ⟨value, hvalue, hcs⟩ := ok_of_bind_ok hcs
      cases key with
      | none => cases hcs
      | some key =>
          have hset := forall_set hdone key (h.1.canonical hvalue)
          exact canonicalEntries_within h.2 hset hcs

end

mutual

/-- Telling booleans apart leaves the objects of a datum as they are. -/
theorem Within.strict : ∀ {d : Datum}, d.Within P → d.strict.Within P
  | .scalar s, _ => by cases s <;> exact nofun
  | .list items, h => within_list_iff.mpr (strictAll_within (within_list_iff.mp h))
  | .map entries, h => within_map_iff.mpr (strictEntries_within (within_map_iff.mp h))
  | .tuple _, h => h
  | .endless _, h => h
  | .flag _, h => h
  | .reference _, h => h
  | .frozen _, h => h
  | .object _ _, h => h
  | .method _ _, h => h

/-- The same of items. -/
theorem strictAll_within : ∀ {ds : List Datum}, (∀ d ∈ ds, d.Within P) →
    ∀ d ∈ strictAll ds, d.Within P
  | [], _ => nofun
  | d :: ds, h => by
      rw [List.forall_mem_cons] at h
      rw [strictAll, List.forall_mem_cons]
      exact ⟨h.1.strict, strictAll_within h.2⟩

/-- The same of entries. -/
theorem strictEntries_within : ∀ {es : List (Key × Datum)}, (∀ e ∈ es, e.2.Within P) →
    ∀ e ∈ strictEntries es, e.2.Within P
  | [], _ => nofun
  | (k, d) :: es, h => by
      rw [List.forall_mem_cons] at h
      rw [strictEntries, List.forall_mem_cons]
      exact ⟨h.1.strict, strictEntries_within h.2⟩

end

end Within

end Datum

end Conformance
