import Conformance.Proofs.Places

/-!
# Read-only mappings

A canonical form goes into lists, tuples and mappings, but not into read-only mappings, and
equality then looks through these.  So a read-only mapping is judged like the mapping it shows
exactly if there is nothing to rewrite in that: no boolean, date or time among its keys and
values, and no tuple.  `Datum.Untouched` is this condition, `untouched_iff` says that it is met by
the data that are the same as their form, and `readOnly_judged_alike_iff` that it decides whether
a read-only mapping may stand for the mapping, at every place of every datum.
-/

namespace Conformance

/-! ## What comparing leaves as it is -/

/-- A scalar that is compared as it stands: no boolean, date or time. -/
def Scalar.Untouched : Scalar → Prop
  | .bool _ | .date _ | .time _ | .datetime _ => False
  | _ => True

/-- A key that is compared as it stands. -/
def Key.Untouched : Key → Prop
  | .scalar s => s.Untouched
  | .tuple _ => False
  | _ => True

/-- A datum without booleans, dates, times and tuples, but for those in read-only mappings. -/
inductive Datum.Untouched : Datum → Prop
  | scalar {s : Scalar} (h : s.Untouched) : Untouched (.scalar s)
  | reference (path : String) : Untouched (.reference path)
  | list {items : List Datum} (h : ∀ d ∈ items, Untouched d) : Untouched (.list items)
  | map {entries : List (Key × Datum)} (hkeys : ∀ e ∈ entries, e.1.Untouched)
      (hvalues : ∀ e ∈ entries, Untouched e.2) : Untouched (.map entries)
  | frozen (entries : List (Key × Datum)) : Untouched (.frozen entries)

namespace Scalar

/-- Only booleans have booleans as their form. -/
theorem form_ne_bool {s : Scalar} (h : ∀ b, s ≠ .bool b) (b : Bool) : s.form ≠ .bool b := by
  rcases s.form_cases with ⟨text, hform⟩ | ⟨hform, -⟩
  · rw [hform]
    exact nofun
  · rw [hform]
    exact h b

theorem Untouched.ne_bool {s : Scalar} (h : s.Untouched) (b : Bool) : s ≠ .bool b := by
  rintro rfl
  exact h

theorem Untouched.not_offCalendar {s : Scalar} (h : s.Untouched) : ¬ s.OffCalendar := by
  rintro ⟨t, rfl, -⟩
  exact h

/-- A date and time in the calendar has a text as its form. -/
theorem form_datetime {t : DateTime} (h : ¬ (datetime t).OffCalendar) :
    ∃ text, (datetime t).form = .str text := by
  unfold form comparedText?
  cases hoffset : t.offset with
  | none => exact ⟨String.ofList t.iso, by simp [hoffset]⟩
  | some offset =>
      cases huniversal : t.toUniversal? with
      | none => exact absurd ⟨t, rfl, by rw [hoffset]; rfl, huniversal⟩ h
      | some u => exact ⟨String.ofList u.iso, by simp [hoffset, huniversal]⟩

/-- **The form of a scalar** other than a boolean is the same as the scalar exactly if it is
compared as it stands. -/
theorem form_same_iff {s : Scalar} (hs : ¬ s.OffCalendar) (hbool : ∀ b, s ≠ .bool b) :
    s.form.same s = true ↔ s.Untouched := by
  rw [same_iff]
  cases s with
  | bool b => exact absurd rfl (hbool b)
  | date d | time t =>
      refine iff_of_false (fun h => ?_) id
      cases h
  | datetime t =>
      obtain ⟨text, htext⟩ := form_datetime hs
      refine iff_of_false (fun h => ?_) id
      rw [htext] at h
      cases h
  | _ => exact iff_of_true rfl trivial

/-- What is the same as a form has the same form. -/
theorem form_same_form {s t : Scalar} (hs : ¬ s.OffCalendar) (h : s.form.same t = true) :
    s.form.same t.form = true := by
  rcases s.form_cases with ⟨text, hform⟩ | ⟨hform, hno⟩
  · rw [hform] at h ⊢
    cases t with
    | str _ | sentinel _ => exact h
    | _ => cases h
  · rw [hform] at h ⊢
    cases s with
    | str text => exact absurd (hno text) (by simp [same, equal])
    | sentinel marker => exact absurd (hno marker.name) (by simp [same, equal])
    | date _ | time _ => cases hform
    | datetime t =>
        obtain ⟨text, htext⟩ := form_datetime hs
        rw [htext] at hform
        cases hform
    | _ =>
        cases t with
        | null | bool _ | int _ | float _ | bytes _ => exact h
        | _ => cases h

end Scalar

namespace Key

theorem strict_of_ne_bool {k : Key} (h : ∀ b, k ≠ .scalar (.bool b)) : k.strict = k := by
  cases k with
  | scalar s =>
      cases s with
      | bool b => exact absurd rfl (h b)
      | _ => rfl
  | _ => rfl

/-- **The form of a key** is the same as the key exactly if it is compared as it stands. -/
theorem form_same_iff {k : Key} (hk : k.Formable) (hflag : ∀ b, k ≠ .flag b) :
    k.form.same k = true ↔ k.Untouched := by
  cases k with
  | scalar s =>
      have hs : ¬ s.OffCalendar := fun hoff => hk.1 (.scalar hoff)
      by_cases hbool : ∃ b, s = .bool b
      · obtain ⟨b, rfl⟩ := hbool
        exact iff_of_false nofun id
      · have hne : ∀ b, s ≠ .bool b := by simpa using hbool
        have hform : (Key.scalar s).form = .scalar s.form :=
          strict_of_ne_bool fun b h => Scalar.form_ne_bool hne b (Key.scalar.inj h)
        rw [hform]
        exact Scalar.form_same_iff hs hne
  | tuple items => exact absurd rfl (hk.2 items)
  | reference path => exact iff_of_true (same_refl _) trivial
  | object location => exact iff_of_true (same_refl _) trivial
  | flag b => exact absurd rfl (hflag b)

theorem Untouched.formable {k : Key} (h : k.Untouched) : k.Formable := by
  cases k with
  | scalar s =>
      refine ⟨fun hoff => h.not_offCalendar (offCalendar_scalar_iff.mp hoff), fun items hk => ?_⟩
      cases hk
  | tuple items => exact absurd h id
  | _ =>
      constructor
      · intro hoff
        cases hoff
      · intro items hk
        cases hk

/-- The canonical form of a key that is compared as it stands is the same key. -/
theorem Untouched.settled_same {k : Key} (h : k.Untouched) : k.settled.same k = true := by
  cases k with
  | scalar s => exact (Scalar.form_same_iff h.not_offCalendar h.ne_bool).mpr h
  | _ => exact same_refl _

/-- A key whose form is another key collides with that key. -/
theorem collides_of_form_same {k k' : Key} (hk : k.Formable) (hflag : ∀ b, k ≠ .flag b)
    (hflag' : ∀ b, k' ≠ .flag b) (h : k.form.same k' = true) : k.collides k' = true := by
  have hstrict : k.form = k.settled := by
    refine strict_of_ne_bool fun b hb => ?_
    have hform : k.form = .flag b := by rw [form, hb]; rfl
    rw [hform] at h
    cases k' with
    | flag b' => exact hflag' b' rfl
    | _ => cases h
  rw [hstrict] at h
  cases k with
  | scalar s =>
      cases k' with
      | scalar t =>
          exact Scalar.form_same_form (fun hoff => hk.1 (.scalar hoff)) h
      | _ => cases h
  | _ =>
      cases k' with
      | scalar t => cases h
      | _ => exact h

end Key

/-! ## Data that are the same as their form -/

namespace Datum

theorem strict_scalar_of_ne {s : Scalar} (h : ∀ b, s ≠ .bool b) : (scalar s).strict = scalar s := by
  cases s with
  | bool b => exact absurd rfl (h b)
  | _ => rfl

theorem Untouched.formable {d : Datum} (h : d.Untouched) : d.Formable := by
  induction h with
  | scalar h => exact .scalar h.not_offCalendar
  | reference path => exact .reference path
  | list _ ih => exact .list ih
  | map hkeys _ ih => exact .map (fun e he => (hkeys e he).formable) ih
  | frozen entries => exact .frozen entries

/-- Keys that are compared as they stand do not collide if they are different. -/
theorem apart_of_untouched {entries : List (Key × Datum)} (hdifferent : Entries.Different entries)
    (hkeys : ∀ e ∈ entries, e.1.Untouched) : Entries.Apart entries := by
  refine hdifferent.imp_of_mem fun {e e'} he he' hsame => ?_
  rw [Bool.eq_false_iff] at hsame ⊢
  intro hcollides
  have hback : e.1.same e.1.settled = true := Key.same_symm (hkeys e he).settled_same
  have hforth : e.1.same e'.1.settled = true := Key.same_trans hback hcollides
  exact hsame (Key.same_trans hforth (hkeys e' he').settled_same)

/-- A datum that is compared as it stands is the same as its form. -/
theorem Untouched.formed_same {d : Datum} (hdata : d.IsData) (h : d.Untouched) :
    d.formed.Same d := by
  induction hdata with
  | scalar s =>
      cases h with
      | scalar hs =>
          rw [formed_scalar (.scalar hs.not_offCalendar),
            strict_scalar_of_ne (Scalar.form_ne_bool hs.ne_bool)]
          exact (Scalar.form_same_iff hs.not_offCalendar hs.ne_bool).mpr hs
  | reference path => exact (rfl : path = path)
  | tuple _ _ => cases h
  | @list items _ ih =>
      rw [formed_of_items rfl h.formable, Same, sameAll_iff, List.forall₂_map_left_iff]
      cases h with
      | list hitems => exact List.forall₂_same.mpr fun d hd => ih d hd (hitems d hd)
  | @map entries hdifferent hflags _ ih =>
      obtain ⟨fs, hfs, hperm⟩ := formed_map hdifferent h.formable
      cases h with
      | map hkeys hvalues =>
          have hkept := Entries.kept_eq_self_iff.mpr (apart_of_untouched hdifferent hkeys)
          rw [hkept] at hperm
          rw [hfs, same_entries_iff rfl rfl, sameIn_iff, hperm.length_eq, List.length_map]
          refine ⟨rfl, fun f hf => ?_⟩
          obtain ⟨e, he, rfl⟩ := List.mem_map.mp (hperm.mem_iff.mp hf)
          have hkey := (Key.form_same_iff (hkeys e he).formable (hflags e he)).mpr (hkeys e he)
          exact ⟨e, he, hkey, ih e he (hvalues e he)⟩
  | frozen hdifferent hflags hvalues =>
      exact same_refl (IsData.frozen hdifferent hflags hvalues).comparable

/-- In a mapping that is the same as its form each key and each value is the same as its form. -/
theorem entries_same_of_formed_same {entries : List (Key × Datum)} (hdata : (map entries).IsData)
    (hform : (map entries).Formable) (h : (map entries).formed.Same (map entries)) :
    ∀ e ∈ entries, e.1.form.same e.1 = true ∧ e.2.formed.Same e.2 := by
  obtain ⟨hdifferent, hflags, -⟩ := isData_map_iff.mp hdata
  have hkeys : ∀ e ∈ entries, e.1.Formable := fun e he => (formable_map_iff.mp hform e he).1
  obtain ⟨fs, hfs, hperm⟩ := formed_map hdifferent hform
  rw [hfs, same_entries_iff rfl rfl, sameIn_iff, hperm.length_eq, List.length_map] at h
  obtain ⟨hlength, hin⟩ := h
  have hapart : Entries.Apart entries :=
    Entries.apart_iff_length.mpr (Nat.le_of_eq hlength.symm)
  intro e he
  have hmem : (e.1.form, e.2.formed) ∈ fs := by
    rw [hperm.mem_iff, Entries.kept_eq_self_iff.mpr hapart]
    exact List.mem_map.mpr ⟨e, he, rfl⟩
  obtain ⟨e', he', hkey, hvalue⟩ := hin _ hmem
  -- The partner of the form of an entry collides with the entry, so it is the entry.
  have hcollides : e.1.collides e'.1 = true :=
    Key.collides_of_form_same (hkeys e he) (hflags e he) (hflags e' he') hkey
  have heq : e = e' := by
    by_contra hne
    rw [hapart.not_collides he he' hne] at hcollides
    cases hcollides
  rw [← heq] at hkey hvalue
  exact ⟨hkey, hvalue⟩

/-- A datum that is the same as its form is compared as it stands. -/
theorem untouched_of_formed_same {d : Datum} (hdata : d.IsData) (hform : d.Formable)
    (h : d.formed.Same d) : d.Untouched := by
  induction hdata with
  | scalar s =>
      have hs : ¬ s.OffCalendar := by
        cases hform with
        | scalar hs => exact hs
      rw [formed_scalar hform] at h
      by_cases hbool : ∃ b, s = .bool b
      · obtain ⟨b, rfl⟩ := hbool
        cases h
      · have hne : ∀ b, s ≠ .bool b := by simpa using hbool
        rw [strict_scalar_of_ne (Scalar.form_ne_bool hne)] at h
        exact .scalar ((Scalar.form_same_iff hs hne).mp h)
  | reference path => exact .reference path
  | tuple _ _ =>
      rw [formed_of_items rfl hform] at h
      cases h
  | @list items _ ih =>
      rw [formed_of_items rfl hform, Same, sameAll_iff, List.forall₂_map_left_iff,
        List.forall₂_same] at h
      exact .list fun d hd => ih d hd (formable_list_iff.mp hform d hd) (h d hd)
  | @map entries hdifferent hflags hvalues ih =>
      have hforms := formable_map_iff.mp hform
      have hself := entries_same_of_formed_same (.map hdifferent hflags hvalues) hform h
      refine .map (fun e he => ?_) fun e he => ih e he (hforms e he).2 (hself e he).2
      exact (Key.form_same_iff (hforms e he).1 (hflags e he)).mp (hself e he).1
  | frozen _ _ _ => exact .frozen _

/-- **The same as its form** is a datum exactly if it is compared as it stands. -/
theorem untouched_iff {d : Datum} (hdata : d.IsData) :
    d.Untouched ↔ d.Formable ∧ d.formed.Same d :=
  ⟨fun h => ⟨h.formable, h.formed_same hdata⟩,
    fun h => untouched_of_formed_same hdata h.1 h.2⟩

/-- A read-only mapping is the same as the mapping it shows. -/
theorem same_frozen_iff {d : Datum} {entries : List (Key × Datum)} :
    d.Same (.frozen entries) ↔ d.Same (.map entries) := by
  cases d with
  | map xs | frozen xs => rw [same_entries_iff rfl rfl, same_entries_iff rfl rfl]
  | _ => exact Iff.rfl

end Datum

/-! ## Read-only mappings in a comparison -/

namespace Run

variable {ω : Type}

/-- A mapping at any place makes no failure. -/
theorem isError_fill_mapping (p : Datum.Place) {d : Datum} {entries : List (Key × Datum)}
    (hd : d.entries? = some entries) : (p.fill d).isError = false := by
  cases p with
  | hole =>
      cases d with
      | map _ | frozen _ => rfl
      | _ => cases hd
  | _ => rfl

/-- **A read-only mapping is judged like the mapping it shows**, at every place of every datum and
against every expected value, exactly if that mapping is compared as it stands: if there is no
boolean, date, time or tuple in it outside further read-only mappings. -/
theorem readOnly_judged_alike_iff (impl : Implementation ω) {entries : List (Key × Datum)}
    (hdata : (Datum.map entries).IsData) :
    (∀ (p : Datum.Place) (expected : Datum) (store : Store ω), (p.fill (.map entries)).IsData →
      expected.IsData →
      runFrom (compare impl (p.fill (.frozen entries)) expected) store =
        runFrom (compare impl (p.fill (.map entries)) expected) store) ↔
      (Datum.map entries).Untouched := by
  obtain ⟨hkeys, hflags, hvalues⟩ := Datum.isData_map_iff.mp hdata
  have hfrozen : (Datum.frozen entries).IsData := .frozen hkeys hflags hvalues
  have hformable : (Datum.frozen entries).Formable := .frozen entries
  constructor
  · -- Against itself the read-only mapping passes, so the mapping has to.
    intro h
    have hself : (runFrom (compare impl (.frozen entries) (.frozen entries)) Store.empty).1 =
        .ok true := by
      refine (compare_data_iff hfrozen hfrozen rfl _).mpr ⟨hformable, hformable, id, ?_⟩
      exact Datum.same_refl (hfrozen.comparable_formed hformable)
    have hjudged := h .hole (.frozen entries) Store.empty hdata hfrozen
    rw [Datum.Place.fill, Datum.Place.fill] at hjudged
    rw [hjudged] at hself
    obtain ⟨hform, -, -, hsame⟩ := (compare_data_iff hdata hfrozen rfl _).mp hself
    exact (Datum.untouched_iff hdata).mpr ⟨hform, Datum.same_frozen_iff.mp hsame⟩
  · intro h p expected store hfill hexpected
    obtain ⟨hform, hsame⟩ := (Datum.untouched_iff hdata).mp h
    have hback : (Datum.frozen entries).Same (Datum.map entries).formed :=
      Datum.same_symm (hdata.comparable_formed hform) (Datum.same_frozen_iff.mpr hsame)
    have hinterchangeable : (Datum.frozen entries).Interchangeable (.map entries) :=
      Datum.interchangeable_of_formable hformable hform hback
    have hfill' : (p.fill (.frozen entries)).IsData := Datum.isData_fill hfill hfrozen
    have herror : (p.fill (.frozen entries)).isError = (p.fill (.map entries)).isError := by
      rw [isError_fill_mapping p rfl, isError_fill_mapping p rfl]
    exact compare_interchangeable hfill' hfill hexpected (hinterchangeable.fill hfill' hfill)
      herror store

/-! ### A port and a flag -/

/-- A mapping with one entry, under a text. -/
def portTable : List (Key × Datum) := [(.str "port", .scalar (.int 80))]

/-- The mapping of a port may be read-only, in a list as well. -/
theorem port_judged_alike :
    (Datum.map portTable).IsData ∧ (Datum.map portTable).Untouched ∧
      runFrom (compare (Sample.implementation []) (.list [.frozen portTable])
          (.list [.map portTable])) Store.empty =
        runFrom (compare (Sample.implementation []) (.list [.map portTable])
          (.list [.map portTable])) Store.empty := by
  have hdata : (Datum.map portTable).IsData := Datum.isData_map_singleton nofun (.scalar _)
  have huntouched : (Datum.map portTable).Untouched :=
    .map (List.forall_mem_singleton.mpr trivial)
      (List.forall_mem_singleton.mpr (.scalar trivial))
  have hlist : (Datum.list [.map portTable]).IsData := .list (List.forall_mem_singleton.mpr hdata)
  refine ⟨hdata, huntouched, ?_⟩
  exact (readOnly_judged_alike_iff (Sample.implementation []) hdata).mpr huntouched
    (.list [] .hole []) (.list [.map portTable]) Store.empty hlist hlist

/-- Mappings from `flag` to true and to one. -/
def flagTable : List (Key × Datum) := [(.str "flag", .scalar (.bool true))]

@[inherit_doc flagTable]
def oneTable : List (Key × Datum) := [(.str "flag", .scalar (.int 1))]

/-- Not every read-only mapping is judged like the mapping it shows: true equals one in it. -/
theorem readOnly_not_always_judged_alike :
    (runFrom (compare (Sample.implementation []) (.frozen flagTable) (.map oneTable))
        Store.empty).1 = .ok true ∧
      (runFrom (compare (Sample.implementation []) (.map flagTable) (.map oneTable))
        Store.empty).1 ≠ .ok true := by
  have hflag : (Datum.map flagTable).IsData := Datum.isData_map_singleton nofun (.scalar _)
  have hfrozen : (Datum.frozen flagTable).IsData :=
    .frozen (List.pairwise_singleton _ _) (List.forall_mem_singleton.mpr nofun)
      (List.forall_mem_singleton.mpr (.scalar _))
  have hone : (Datum.map oneTable).IsData := Datum.isData_map_singleton nofun (.scalar _)
  have honeForm : (Datum.map oneTable).formed = .map oneTable := rfl
  have hflagForm : (Datum.map flagTable).formed = .map [(.str "flag", .flag true)] := rfl
  constructor
  · rw [compare_data_iff hfrozen hone rfl, honeForm]
    refine ⟨.frozen _, ?_, id, ?_⟩
    · exact (Datum.canonical_eq_ok_iff _).mp ⟨_, rfl⟩
    · exact ⟨oneTable, rfl, rfl, ⟨_, .head _, rfl, rfl⟩, trivial⟩
  · rw [Ne, compare_data_iff hflag hone rfl, honeForm, hflagForm]
    rintro ⟨-, -, -, ys, hys, -, ⟨e, he, -, hvalue⟩, -⟩
    cases hys
    obtain rfl := List.mem_singleton.mp he
    exact hvalue

end Run

end Conformance
