import Conformance.Proofs.Judging
import Conformance.Proofs.Sameness

/-!
# What a canonical form keeps

A mapping is brought into canonical form entry by entry, and an entry whose key has the form of an
earlier one takes its place.  So of the entries whose keys have one form the last is kept, and
`Entries.kept` are these entries.  The key fact is `canonicalEntries_kept`: up to their order, the
entries of the canonical form are the kept entries in canonical form.

`Datum.formed` is the canonical form of a datum with its booleans told apart, which is what
comparing works on.  `compare_data_iff` states when a comparison of data finds them equal: both
have a form, the forms are the same, and the outcome is not one that equals nothing.
-/

namespace Conformance

/-! ## Forms of scalars and keys -/

/-- The canonical form of a scalar: the text it reads as, or itself. -/
theorem Scalar.canonical_of_not_offCalendar {s : Scalar} (h : ¬ s.OffCalendar) :
    s.canonical = .ok s.form := by
  cases s with
  | datetime t =>
      unfold canonical form comparedText?
      cases hoffset : t.offset with
      | none => simp [hoffset]
      | some offset =>
          cases huniversal : t.toUniversal? with
          | none => exact absurd ⟨t, rfl, by rw [hoffset]; rfl, huniversal⟩ h
          | some u => simp [hoffset, huniversal]
  | _ => rfl

/-- The form of a scalar is a text, or the scalar is the same as no text. -/
theorem Scalar.form_cases (s : Scalar) :
    (∃ text, s.form = .str text) ∨ s.form = s ∧ ∀ text, s.same (.str text) = false := by
  unfold form
  cases htext : s.comparedText? with
  | some text => exact Or.inl ⟨text, rfl⟩
  | none =>
      refine Or.inr ⟨rfl, fun text => ?_⟩
      cases s with
      | str _ | sentinel _ => cases htext
      | _ => rfl

namespace Key

/-- The canonical form of a key that has one. -/
theorem Formable.canonical_eq {k : Key} (h : k.Formable) : k.canonical = .ok (some k.settled) := by
  cases k with
  | scalar s =>
      have hs : ¬ s.OffCalendar := fun hoff => h.1 (.scalar hoff)
      rw [canonical, Scalar.canonical_of_not_offCalendar hs]
      rfl
  | tuple items => exact absurd rfl (h.2 items)
  | _ => rfl

/-- Two keys collide if they have one canonical form. -/
def collides (k k' : Key) : Bool := k.settled.same k'.settled

theorem collides_comm (k k' : Key) : k.collides k' = k'.collides k :=
  same_comm _ _

/-- **Different keys that collide** have one text as their form. -/
theorem settled_eq_of_collides {k k' : Key} (hdifferent : k.same k' = false)
    (h : k.collides k' = true) : k.settled = k'.settled := by
  unfold collides at h
  cases k with
  | scalar s =>
      cases k' with
      | scalar t =>
          have hsame : s.form.same t.form = true := h
          rcases s.form_cases with ⟨text, hs⟩ | ⟨hs, hno⟩
          · rcases t.form_cases with ⟨text', ht⟩ | ⟨ht, hno'⟩
            · rw [hs, ht] at hsame
              obtain rfl : text = text' := eq_of_beq hsame
              rw [settled, settled, hs, ht]
            · have hback : t.same (.str text) = true := by
                rw [hs, ht] at hsame
                exact Scalar.same_iff.mpr (Scalar.same_iff.mp hsame).symm
              rw [hno'] at hback
              cases hback
          · rcases t.form_cases with ⟨text, ht⟩ | ⟨ht, -⟩
            · rw [hs, ht, hno] at hsame
              cases hsame
            · have hraw : s.same t = false := hdifferent
              rw [hs, ht, hraw] at hsame
              cases hsame
      | _ => cases h
  | _ =>
      cases k' with
      | scalar _ => cases h
      | _ => exact absurd h (Bool.eq_false_iff.mp hdifferent)

/-- Telling booleans apart makes no two keys the same, unless one of them was told apart before. -/
theorem same_of_strict {k k' : Key} (hk : ∀ b, k ≠ .flag b) (hk' : ∀ b, k' ≠ .flag b)
    (h : k.strict.same k'.strict = true) : k.same k' = true := by
  have hstrict : ∀ {l : Key}, (∀ b, l ≠ .flag b) →
      (∃ b, l = .scalar (.bool b) ∧ l.strict = .flag b) ∨
        l.strict = l ∧ ∀ b, l.same (.flag b) = false := by
    intro l hl
    cases l with
    | scalar s =>
        cases s with
        | bool b => exact Or.inl ⟨b, rfl, rfl⟩
        | _ => exact Or.inr ⟨rfl, fun _ => rfl⟩
    | flag b => exact absurd rfl (hl b)
    | _ => exact Or.inr ⟨rfl, fun _ => rfl⟩
  rcases hstrict hk with ⟨b, rfl, hb⟩ | ⟨hb, hno⟩
  · rcases hstrict hk' with ⟨b', rfl, hb'⟩ | ⟨hb', hno'⟩
    · rw [hb, hb'] at h
      obtain rfl : b = b' := eq_of_beq h
      exact same_refl _
    · rw [hb, hb', same_comm, hno'] at h
      cases h
  · rcases hstrict hk' with ⟨b', rfl, hb'⟩ | ⟨hb', -⟩
    · rw [hb, hb', hno] at h
      cases h
    · rwa [hb, hb'] at h

/-- A form is told apart only if its key was. -/
theorem settled_ne_flag {k : Key} (h : ∀ b, k ≠ .flag b) (b : Bool) : k.settled ≠ .flag b := by
  cases k with
  | flag b' => exact absurd rfl (h b')
  | _ => nofun

/-- Keys that do not collide have different forms. -/
theorem form_not_same {k k' : Key} (hk : ∀ b, k ≠ .flag b) (hk' : ∀ b, k' ≠ .flag b)
    (h : k.collides k' = false) : k.form.same k'.form = false := by
  rw [Bool.eq_false_iff] at h ⊢
  exact fun hsame => h (same_of_strict (settled_ne_flag hk) (settled_ne_flag hk') hsame)

end Key

/-! ## Kept entries -/

namespace Entries

variable {α β : Type}

/-- The entries that a canonical form keeps: of those whose keys collide, the last. -/
def kept : List (Key × α) → List (Key × α)
  | [] => []
  | e :: es => if es.any (fun e' => e.1.collides e'.1) then kept es else e :: kept es

/-- No two keys of the entries collide. -/
def Apart (entries : List (Key × α)) : Prop :=
  entries.Pairwise fun e e' => e.1.collides e'.1 = false

instance (entries : List (Key × α)) : Decidable (Apart entries) :=
  inferInstanceAs (Decidable (entries.Pairwise _))

/-- The kept entries stay in their order. -/
theorem kept_sublist (entries : List (Key × α)) : (kept entries).Sublist entries := by
  induction entries with
  | nil => exact List.Sublist.refl _
  | cons e es ih =>
      rw [kept]
      split
      · exact ih.cons e
      · exact ih.cons_cons e

theorem mem_of_mem_kept {entries : List (Key × α)} {e : Key × α} (h : e ∈ kept entries) :
    e ∈ entries :=
  (kept_sublist entries).subset h

/-- The kept entries do not collide. -/
theorem kept_apart (entries : List (Key × α)) : Apart (kept entries) := by
  induction entries with
  | nil => exact List.Pairwise.nil
  | cons e es ih =>
      rw [kept]
      split
      · exact ih
      · next hnone =>
          refine List.pairwise_cons.mpr ⟨fun e' he' => ?_, ih⟩
          simp only [List.any_eq_true, not_exists, not_and, Bool.not_eq_true] at hnone
          exact hnone e' (mem_of_mem_kept he')

/-- Two entries that are not one do not collide. -/
theorem Apart.not_collides {entries : List (Key × α)} (h : Apart entries) {e e' : Key × α}
    (he : e ∈ entries) (he' : e' ∈ entries) (hne : e ≠ e') : e.1.collides e'.1 = false := by
  have hsymm : Std.Symm fun e e' : Key × α => e.1.collides e'.1 = false :=
    ⟨fun e e' hapart => by rw [Key.collides_comm, hapart]⟩
  exact List.Pairwise.forall h he he' hne

/-- Entries that do not collide are all kept. -/
theorem kept_eq_self_iff {entries : List (Key × α)} : kept entries = entries ↔ Apart entries := by
  constructor
  · intro h
    rw [← h]
    exact kept_apart entries
  · intro h
    induction entries with
    | nil => rfl
    | cons e es ih =>
        obtain ⟨hfirst, hrest⟩ := List.pairwise_cons.mp h
        have hnone : es.any (fun e' => e.1.collides e'.1) = false := by
          simpa [List.any_eq_false] using hfirst
        rw [kept, hnone, ih hrest]
        rfl

/-- No more entries are kept than there are. -/
theorem length_kept_le (entries : List (Key × α)) : (kept entries).length ≤ entries.length :=
  (kept_sublist entries).length_le

/-- As many entries are kept as there are exactly if none collide. -/
theorem apart_iff_length {entries : List (Key × α)} :
    Apart entries ↔ entries.length ≤ (kept entries).length := by
  rw [← kept_eq_self_iff]
  constructor
  · intro h
    rw [h]
  · intro h
    exact (kept_sublist entries).eq_of_length_le h

/-- The order of the entries does not matter to whether their keys differ. -/
theorem different_perm {xs ys : List (Key × α)} (h : xs.Perm ys) (hys : Different ys) :
    Different xs := by
  refine (h.pairwise_iff fun {e e'} hsame => ?_).mpr hys
  rw [Key.same_comm]
  exact hsame

/-- Setting a key takes its entry out, if there is one, and adds another. -/
theorem set_perm {done : Entries α} (hdone : Different done) {key : Key}
    (hkey : ∀ e ∈ done, e.1.same key = true → e.1 = key) (value : α) :
    (done.set key value).Perm (done.filter (fun e => !e.1.same key) ++ [(key, value)]) := by
  induction done with
  | nil => exact List.Perm.refl _
  | cons e rest ih =>
      obtain ⟨k, v⟩ := e
      obtain ⟨hfirst, hrest⟩ := List.pairwise_cons.mp hdone
      by_cases hsame : k.same key = true
      · obtain rfl : k = key := hkey (k, v) List.mem_cons_self hsame
        have hothers : rest.filter (fun e => !e.1.same k) = rest := by
          refine List.filter_eq_self.mpr fun e he => ?_
          rw [Key.same_comm, hfirst e he]
          rfl
        rw [set, if_pos hsame, List.filter_cons_of_neg (by simp [hsame]), hothers]
        exact (List.perm_append_singleton _ _).symm
      · have hothers := ih hrest fun e he => hkey e (List.mem_cons_of_mem _ he)
        rw [set, if_neg hsame, List.filter_cons_of_pos (by simpa using hsame)]
        exact hothers.cons _

/-- After a key was set there is still one entry for each. -/
theorem different_set {done : Entries α} (hdone : Different done) {key : Key}
    (hkey : ∀ e ∈ done, e.1.same key = true → e.1 = key) (value : α) :
    Different (done.set key value) := by
  refine different_perm (set_perm hdone hkey value) (List.pairwise_append.mpr ⟨?_, ?_, ?_⟩)
  · exact hdone.filter _
  · exact List.pairwise_singleton _ _
  · intro e he e' he'
    obtain rfl := List.mem_singleton.mp he'
    simpa using (List.mem_filter.mp he).2

end Entries

namespace Datum

/-- The canonical form of a datum, or, without one, the datum. -/
def settled (d : Datum) : Datum := d.canonical.toOption.getD d

/-- The canonical form of a datum that has one. -/
theorem Formable.canonical_eq {d : Datum} (h : d.Formable) : d.canonical = .ok d.settled := by
  obtain ⟨c, hc⟩ := (canonical_eq_ok_iff d).mpr h
  rw [settled, hc]
  rfl

/-- A key is among the forms of others. -/
def formAmong (es : List (Key × Datum)) (k : Key) : Bool :=
  es.any fun e => k.same e.1.settled

/-- **The entries of a canonical form** are, up to their order, those there were whose keys do not
come again and the kept ones in canonical form. -/
theorem canonicalEntries_perm {es : List (Key × Datum)} (hes : Entries.Different es)
    (hform : ∀ e ∈ es, e.1.Formable ∧ e.2.Formable) :
    ∀ {done : Entries Datum}, Entries.Different done →
      (∀ d ∈ done, ∀ e ∈ es, d.1.same e.1.settled = true → d.1 = e.1.settled) →
      ∃ cs, canonicalEntries done es = .ok cs ∧
        cs.Perm (done.filter (fun d => !formAmong es d.1) ++
          (Entries.kept es).map fun e => (e.1.settled, e.2.settled)) := by
  induction es with
  | nil =>
      intro done _ _
      refine ⟨done, rfl, ?_⟩
      simp [formAmong, Entries.kept]
  | cons e es ih =>
      obtain ⟨k, d⟩ := e
      obtain ⟨hfirst, hrest⟩ := List.pairwise_cons.mp hes
      obtain ⟨⟨hk, hd⟩, hforms⟩ := List.forall_mem_cons.mp hform
      intro done hdone hmeet
      have hkey : ∀ x ∈ done, x.1.same k.settled = true → x.1 = k.settled := fun x hx =>
        hmeet x hx (k, d) List.mem_cons_self
      have hset := Entries.set_perm hdone hkey d.settled
      have hdone' := Entries.different_set hdone hkey d.settled
      have hmeet' : ∀ x ∈ Entries.set done k.settled d.settled, ∀ e ∈ es,
          x.1.same e.1.settled = true → x.1 = e.1.settled := by
        intro x hx e he
        rcases List.mem_append.mp (hset.mem_iff.mp hx) with hold | hnew
        · exact hmeet x (List.mem_filter.mp hold).1 e (List.mem_cons_of_mem _ he)
        · obtain rfl := List.mem_singleton.mp hnew
          exact Key.settled_eq_of_collides (hfirst e he)
      obtain ⟨cs, hcs, hperm⟩ := ih hrest hforms hdone' hmeet'
      refine ⟨cs, ?_, hperm.trans ?_⟩
      · rw [canonicalEntries_of_key hk.canonical_eq, hd.canonical_eq]
        exact hcs
      -- The new entry stays if its key does not come again, and then it is a kept one.
      · have hold : (done.filter fun x => !x.1.same k.settled).filter (fun x => !formAmong es x.1) =
            done.filter fun x => !formAmong ((k, d) :: es) x.1 := by
          rw [List.filter_filter]
          refine List.filter_congr fun x _ => ?_
          simp [formAmong, Bool.and_comm]
        have hsplit := (hset.filter fun x => !formAmong es x.1)
        rw [List.filter_append, hold] at hsplit
        refine (hsplit.append_right _).trans ?_
        rw [List.append_assoc]
        refine List.Perm.append_left _ (List.Perm.of_eq ?_)
        have hagain : es.any (fun e' => k.collides e'.1) = formAmong es k.settled := rfl
        rw [Entries.kept, hagain]
        cases hcase : formAmong es k.settled <;> simp [hcase]

/-! ## Forms of data -/

/-- The canonical form of a datum with its booleans told apart; without a form, those of the
datum. -/
def formed (d : Datum) : Datum := d.settled.strict

/-- The canonical forms of items that have them. -/
theorem canonicalAll_eq {ds : List Datum} (h : ∀ d ∈ ds, d.Formable) :
    canonicalAll ds = .ok (ds.map settled) := by
  induction ds with
  | nil => rfl
  | cons d ds ih =>
      obtain ⟨hd, hds⟩ := List.forall_mem_cons.mp h
      rw [canonicalAll, hd.canonical_eq, ih hds]
      rfl

theorem strictAll_eq (ds : List Datum) : strictAll ds = ds.map strict := by
  induction ds with
  | nil => rfl
  | cons d ds ih => rw [strictAll, ih, List.map_cons]

theorem strictEntries_eq (es : List (Key × Datum)) :
    strictEntries es = es.map fun e => (e.1.strict, e.2.strict) := by
  induction es with
  | nil => rfl
  | cons e es ih => rw [strictEntries, ih, List.map_cons]

/-- A canonical form that there is is what the datum settles to. -/
theorem settled_of_canonical {d c : Datum} (h : d.canonical = .ok c) : d.settled = c := by
  rw [settled, h]
  rfl

/-- A scalar is formed by itself. -/
theorem formed_scalar {s : Scalar} (h : (scalar s).Formable) :
    (scalar s).formed = (scalar s.form).strict := by
  cases h with
  | scalar hs =>
      rw [formed, settled_of_canonical]
      rw [canonical, Scalar.canonical_of_not_offCalendar hs]
      rfl

/-- The items of a datum with a form have forms. -/
theorem Formable.items {d : Datum} (h : d.Formable) {items : List Datum}
    (hitems : d.items? = some items) : ∀ x ∈ items, x.Formable := by
  cases h with
  | tuple h | list h =>
      cases hitems
      exact h
  | _ => cases hitems

/-- Lists and tuples are formed item by item. -/
theorem formed_of_items {d : Datum} {items : List Datum} (hd : d.items? = some items)
    (h : d.Formable) : d.formed = .list (items.map formed) := by
  have hcanonical : d.canonical = .ok (.list (items.map settled)) := by
    cases d with
    | tuple _ | list _ =>
        cases hd
        rw [canonical, canonicalAll_eq (h.items rfl)]
        rfl
    | _ => cases hd
  rw [formed, settled_of_canonical hcanonical, strict, strictAll_eq, List.map_map]
  rfl

/-- **A mapping is formed** entry by entry, as far as its entries are kept. -/
theorem formed_map {es : List (Key × Datum)} (hes : Entries.Different es)
    (h : (map es).Formable) :
    ∃ fs, (map es).formed = .map fs ∧
      fs.Perm ((Entries.kept es).map fun e => (e.1.form, e.2.formed)) := by
  have hnone : Entries.Different ([] : Entries Datum) := List.Pairwise.nil
  obtain ⟨cs, hcs, hperm⟩ := canonicalEntries_perm hes (formable_map_iff.mp h) hnone nofun
  have hcanonical : (map es).canonical = .ok (.map cs) := by
    rw [canonical, hcs]
    rfl
  refine ⟨strictEntries cs, ?_, ?_⟩
  · rw [formed, settled_of_canonical hcanonical, strict]
  · rw [strictEntries_eq]
    refine (hperm.map _).trans (List.Perm.of_eq ?_)
    rw [List.filter_nil, List.nil_append, List.map_map]
    rfl

/-! ## Data without objects -/

/-- Data without objects: scalars, references, lists, tuples, and mappings with different keys,
read-only ones among them.  No boolean in them was told apart from numbers before. -/
inductive IsData : Datum → Prop
  | scalar (s : Scalar) : IsData (.scalar s)
  | reference (path : String) : IsData (.reference path)
  | tuple {items : List Datum} (h : ∀ d ∈ items, IsData d) : IsData (.tuple items)
  | list {items : List Datum} (h : ∀ d ∈ items, IsData d) : IsData (.list items)
  | map {entries : List (Key × Datum)} (hkeys : Entries.Different entries)
      (hflags : ∀ e ∈ entries, ∀ b, e.1 ≠ .flag b) (hvalues : ∀ e ∈ entries, IsData e.2) :
      IsData (.map entries)
  | frozen {entries : List (Key × Datum)} (hkeys : Entries.Different entries)
      (hflags : ∀ e ∈ entries, ∀ b, e.1 ≠ .flag b) (hvalues : ∀ e ∈ entries, IsData e.2) :
      IsData (.frozen entries)

/-- Data are comparable. -/
theorem IsData.comparable {d : Datum} (h : d.IsData) : d.Comparable := by
  induction h with
  | scalar s => exact .scalar s
  | reference path => exact .reference path
  | tuple _ ih => exact .tuple ih
  | list _ ih => exact .list ih
  | map hkeys _ _ ih => exact .map hkeys ih
  | frozen hkeys _ _ ih => exact .frozen hkeys ih

theorem isData_tuple_iff {items : List Datum} :
    (tuple items).IsData ↔ ∀ d ∈ items, d.IsData := by
  constructor
  · rintro ⟨⟩
    assumption
  · exact .tuple

theorem isData_list_iff {items : List Datum} :
    (list items).IsData ↔ ∀ d ∈ items, d.IsData := by
  constructor
  · rintro ⟨⟩
    assumption
  · exact .list

/-- The items of data are data. -/
theorem IsData.items {d : Datum} (h : d.IsData) {items : List Datum}
    (hitems : d.items? = some items) : ∀ x ∈ items, x.IsData := by
  cases h with
  | tuple h | list h =>
      cases hitems
      exact h
  | _ => cases hitems

/-- A mapping of data has different keys, none of them a flag, and data for values. -/
theorem isData_map_iff {entries : List (Key × Datum)} :
    (map entries).IsData ↔ Entries.Different entries ∧ (∀ e ∈ entries, ∀ b, e.1 ≠ .flag b) ∧
      ∀ e ∈ entries, e.2.IsData := by
  constructor
  · intro h
    cases h with
    | map hkeys hflags hvalues => exact ⟨hkeys, hflags, hvalues⟩
  · exact fun ⟨hkeys, hflags, hvalues⟩ => .map hkeys hflags hvalues

/-- One entry is enough, whatever its key. -/
theorem isData_map_singleton {key : Key} {d : Datum} (hkey : ∀ b, key ≠ .flag b) (hd : d.IsData) :
    (map [(key, d)]).IsData :=
  .map (List.pairwise_singleton _ _) (List.forall_mem_singleton.mpr hkey)
    (List.forall_mem_singleton.mpr hd)

/-- The kept entries of a mapping are data as the mapping is. -/
theorem isData_map_kept {entries : List (Key × Datum)} (h : (map entries).IsData) :
    (map (Entries.kept entries)).IsData := by
  obtain ⟨hkeys, hflags, hvalues⟩ := isData_map_iff.mp h
  have hsublist := Entries.kept_sublist entries
  exact .map (hkeys.sublist hsublist) (fun e he => hflags e (hsublist.subset he))
    fun e he => hvalues e (hsublist.subset he)

theorem comparable_strict_scalar (s : Scalar) : (scalar s).strict.Comparable := by
  cases s with
  | bool b => exact .flag b
  | _ => exact .scalar _

/-- The entries that a mapping is compared by have different keys. -/
theorem different_forms {entries : List (Key × Datum)}
    (hflags : ∀ e ∈ entries, ∀ b, e.1 ≠ .flag b) :
    Entries.Different ((Entries.kept entries).map fun e => (e.1.form, e.2.formed)) := by
  refine List.pairwise_map.mpr ((Entries.kept_apart entries).imp_of_mem fun he he' hapart => ?_)
  exact Key.form_not_same (hflags _ (Entries.mem_of_mem_kept he))
    (hflags _ (Entries.mem_of_mem_kept he')) hapart

/-- The form of data is compared without asking the implementation. -/
theorem IsData.comparable_formed {d : Datum} (h : d.IsData) (hform : d.Formable) :
    d.formed.Comparable := by
  induction h with
  | scalar s =>
      rw [formed_scalar hform]
      exact comparable_strict_scalar _
  | reference path => exact .reference path
  | @tuple items _ ih =>
      rw [formed_of_items rfl hform]
      exact .list (List.forall_mem_map.mpr fun x hx => ih x hx (formable_tuple_iff.mp hform x hx))
  | @list items _ ih =>
      rw [formed_of_items rfl hform]
      exact .list (List.forall_mem_map.mpr fun x hx => ih x hx (formable_list_iff.mp hform x hx))
  | @map entries hkeys hflags _ ih =>
      obtain ⟨fs, hfs, hperm⟩ := formed_map hkeys hform
      rw [hfs]
      refine .map (Entries.different_perm hperm (different_forms hflags)) fun f hf => ?_
      obtain ⟨e, he, rfl⟩ := List.mem_map.mp (hperm.mem_iff.mp hf)
      have hmem := Entries.mem_of_mem_kept he
      exact ih e hmem (formable_map_iff.mp hform e hmem).2
  | frozen hkeys hflags hvalues => exact (IsData.frozen hkeys hflags hvalues).comparable

/-- The form of a datum is a not-a-number exactly if the datum is. -/
theorem isNaN_formed_iff {d : Datum} (h : d.IsData) (hform : d.Formable) :
    d.formed.IsNaN ↔ d.IsNaN := by
  cases h with
  | scalar s =>
      rw [formed_scalar hform]
      cases s with
      | float x => exact Iff.rfl
      | datetime t =>
          unfold Scalar.form
          cases (Scalar.datetime t).comparedText? <;> exact Iff.rfl
      | _ => exact Iff.rfl
  | reference _ => exact Iff.rfl
  | tuple _ | list _ =>
      rw [formed_of_items rfl hform]
      exact Iff.rfl
  | map hkeys _ _ =>
      obtain ⟨fs, hfs, -⟩ := formed_map hkeys hform
      rw [hfs]
      exact Iff.rfl
  | frozen _ _ _ => exact Iff.rfl

end Datum

/-! ## What comparing data decides -/

namespace Run

variable {ω : Type} {impl : Implementation ω} {actual expected : Datum}

/-- **Data that have forms** are compared by them. -/
theorem compare_formable_decides (ha : actual.IsData) (he : expected.IsData)
    (hopen : isOpen expected = false) (hactual : actual.Formable) (hexpected : expected.Formable) :
    Decides (compare impl actual expected)
      (¬ actual.IsNaN ∧ actual.formed.Same expected.formed) := by
  have hequal : Decides (impl.equal actual.formed expected.formed)
      (¬ actual.formed.IsNaN ∧ actual.formed.Same expected.formed) :=
    equal_comparable_decides (ha.comparable_formed hactual) (he.comparable_formed hexpected)
  intro store
  obtain ⟨same, hrun, hsame⟩ := hequal store
  rw [Datum.isNaN_formed_iff ha hactual] at hsame
  refine ⟨same, ?_, hsame⟩
  have hforms : runFrom (canonicallyEqual impl actual expected) store =
      runFrom (impl.equal actual.formed expected.formed) store := by
    rw [runFrom_canonicallyEqual, hactual.canonical_eq, hexpected.canonical_eq]
    rfl
  rw [runFrom_compare, hopen, hforms, hrun]
  rfl

/-- A comparison says yes exactly if comparing the forms does. -/
theorem compare_true_iff (hopen : isOpen expected = false) {store : Store ω} :
    (runFrom (compare impl actual expected) store).1 = .ok true ↔
      (runFrom (canonicallyEqual impl actual expected) store).1 = .ok true := by
  rw [runFrom_compare, hopen]
  rcases runFrom (canonicallyEqual impl actual expected) store with ⟨fault | same, s⟩
  · -- A fault is passed on or makes the answer no, but never yes.
    cases hfault : isIncomparable fault <;> simp [hfault]
  · simp

/-- **Data are found equal** exactly if they have forms and these are the same. -/
theorem compare_data_iff (ha : actual.IsData) (he : expected.IsData)
    (hopen : isOpen expected = false) (store : Store ω) :
    (runFrom (compare impl actual expected) store).1 = .ok true ↔
      actual.Formable ∧ expected.Formable ∧
        ¬ actual.IsNaN ∧ actual.formed.Same expected.formed := by
  by_cases hforms : actual.Formable ∧ expected.Formable
  · obtain ⟨hactual, hexpected⟩ := hforms
    have hdecides : Decides (compare impl actual expected)
        (¬ actual.IsNaN ∧ actual.formed.Same expected.formed) :=
      compare_formable_decides ha he hopen hactual hexpected
    obtain ⟨same, hrun, hsame⟩ := hdecides store
    rw [hrun, ← hsame]
    simp [hactual, hexpected]
  · have hnot : ¬ (actual.Formable ∧ expected.Formable ∧
        ¬ actual.IsNaN ∧ actual.formed.Same expected.formed) := fun h => hforms ⟨h.1, h.2.1⟩
    refine iff_of_false (fun htrue => hforms ?_) hnot
    -- Without both forms comparing them faults.
    rw [compare_true_iff hopen, runFrom_canonicallyEqual] at htrue
    cases hactual : actual.canonical with
    | error fault =>
        rw [hactual] at htrue
        cases htrue
    | ok a =>
        cases hexpected : expected.canonical with
        | error fault =>
            rw [hactual, hexpected] at htrue
            cases htrue
        | ok e =>
            have ha := (Datum.canonical_eq_ok_iff actual).mp ⟨a, hactual⟩
            have he := (Datum.canonical_eq_ok_iff expected).mp ⟨e, hexpected⟩
            exact ⟨ha, he⟩

end Run

end Conformance
