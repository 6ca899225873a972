import Conformance.Proofs.Locality
import Conformance.Proofs.Stages
import Conformance.Sample.Implementation
import Mathlib.Data.List.Nodup
import Mathlib.Data.List.Perm.Subperm

/-!
# What an outcome is compared by

Two data are compared in canonical form, with booleans told apart from numbers.
`Datum.Alike` says the same without any form: texts, markers, dates and times are
alike if they read the same, lists and tuples item by item, and mappings if they
have equally many entries and each entry of one has an alike one in the other.

`compare_iff_alike` states that the comparison of plain data decides exactly
this relation.  The key fact is `canonical_form`: the canonical form of a plain
datum exists and, with its booleans told apart, is `Datum.form`, which rewrites
each part on its own.  For mappings this needs that no two keys of one mapping
have the same form, since otherwise the later entry would replace the earlier.
-/

namespace Conformance

/-! ## Plain data -/

namespace Scalar

/-- The text that a text, a marker, a date or a time is compared by.  A point in
time with an offset reads as its instant in universal time. -/
def comparedText? : Scalar → Option String
  | .str text => some text
  | .sentinel marker => some marker.name
  | .date d => some (String.ofList d.iso)
  | .time t => some (String.ofList t.iso)
  | .datetime t =>
    match t.offset with
    | none => some (String.ofList t.iso)
    | some _ => t.toUniversal?.map fun u => String.ofList u.iso
  | _ => none

/-- A scalar that is no float and no instant outside the calendar. -/
def IsPlain : Scalar → Prop
  | .float _ => False
  | .datetime t => t.offset.isSome → t.toUniversal?.isSome
  | _ => True

/-- Scalars that are alike: nulls, the same boolean, number or bytes, and what
reads the same. -/
inductive Alike : Scalar → Scalar → Prop
  | null : Alike .null .null
  | bool (b : Bool) : Alike (.bool b) (.bool b)
  | int (i : Int) : Alike (.int i) (.int i)
  | bytes (b : List UInt8) : Alike (.bytes b) (.bytes b)
  | text {s t : Scalar} {text : String} (hs : s.comparedText? = some text)
      (ht : t.comparedText? = some text) : Alike s t

end Scalar

namespace Key

/-- A key that is a plain scalar. -/
def IsPlain : Key → Prop
  | .scalar s => s.IsPlain
  | _ => False

/-- Keys that are alike as scalars. -/
def Alike : Key → Key → Prop
  | .scalar s, .scalar t => s.Alike t
  | _, _ => False

end Key

namespace Datum

/-- A datum of plain scalars in lists, tuples and mappings, where the keys of one
mapping are different plain scalars with different canonical forms. -/
inductive IsPlain : Datum → Prop
  | scalar {s : Scalar} (h : s.IsPlain) : IsPlain (.scalar s)
  | tuple {items : List Datum} (h : ∀ d ∈ items, IsPlain d) : IsPlain (.tuple items)
  | list {items : List Datum} (h : ∀ d ∈ items, IsPlain d) : IsPlain (.list items)
  | map {entries : List (Key × Datum)} (hkeys : ∀ e ∈ entries, e.1.IsPlain)
      (hvalues : ∀ e ∈ entries, IsPlain e.2)
      (hdifferent : entries.Pairwise fun e e' => e.1.same e'.1 = false)
      (hforms : entries.Pairwise fun e e' => e.1.canonical ≠ e'.1.canonical) :
      IsPlain (.map entries)

/-- Items of a list or tuple. -/
def items? : Datum → Option (List Datum)
  | .tuple items => some items
  | .list items => some items
  | _ => none

mutual

/-- Data that are alike: scalars that are, lists and tuples item by item, and
mappings of equally many entries where each entry of one has one in the other
whose key and value are alike. -/
def Alike : Datum → Datum → Prop
  | .scalar s, .scalar t => s.Alike t
  | .tuple xs, b => ∃ ys, b.items? = some ys ∧ AlikeAll xs ys
  | .list xs, b => ∃ ys, b.items? = some ys ∧ AlikeAll xs ys
  | .map xs, .map ys => xs.length = ys.length ∧ EachIn xs ys
  | _, _ => False

/-- Pairwise alike, and equally many. -/
def AlikeAll : List Datum → List Datum → Prop
  | [], [] => True
  | x :: xs, y :: ys => Alike x y ∧ AlikeAll xs ys
  | _, _ => False

/-- Each entry has one in the other mapping with an alike key and an alike
value. -/
def EachIn : List (Key × Datum) → List (Key × Datum) → Prop
  | [], _ => True
  | (k, x) :: xs, ys => (∃ e ∈ ys, k.Alike e.1 ∧ Alike x e.2) ∧ EachIn xs ys

end

/-- Items are alike pairwise, and equally many. -/
theorem alikeAll_iff {xs ys : List Datum} : AlikeAll xs ys ↔ List.Forall₂ Alike xs ys := by
  induction xs generalizing ys with
  | nil => cases ys <;> simp [AlikeAll]
  | cons x xs ih => cases ys <;> simp [AlikeAll, ih]

/-- Each entry has one alike among the others. -/
theorem eachIn_iff {xs ys : List (Key × Datum)} :
    EachIn xs ys ↔ ∀ e ∈ xs, ∃ e' ∈ ys, e.1.Alike e'.1 ∧ e.2.Alike e'.2 := by
  induction xs with
  | nil => simp [EachIn]
  | cons e xs ih => simp only [EachIn, List.forall_mem_cons, ih]

end Datum

/-! ## Canonical forms -/

namespace Scalar

/-- The canonical form of a plain scalar: the text it reads as, or itself. -/
def form (s : Scalar) : Scalar :=
  match s.comparedText? with
  | some text => .str text
  | none => s

/-- The canonical form of a plain scalar. -/
theorem canonical_eq_form {s : Scalar} (h : s.IsPlain) : s.canonical = .ok s.form := by
  cases s with
  | datetime t =>
      unfold canonical form comparedText?
      cases hoffset : t.offset with
      | none => simp [hoffset]
      | some offset =>
          obtain ⟨u, hu⟩ := Option.isSome_iff_exists.mp (h (by simp [hoffset]))
          simp [hoffset, hu]
  | float x => cases h
  | _ => rfl

/-- A plain scalar without a text is its own form. -/
theorem without_text {s : Scalar} (h : s.IsPlain) (hnone : s.comparedText? = none) :
    s = .null ∨ (∃ b, s = .bool b) ∨ (∃ i, s = .int i) ∨ ∃ b, s = .bytes b := by
  cases s with
  | datetime t =>
      unfold comparedText? at hnone
      cases hoffset : t.offset with
      | none => simp [hoffset] at hnone
      | some offset =>
          obtain ⟨u, hu⟩ := Option.isSome_iff_exists.mp (h (by simp [hoffset]))
          simp [hoffset, hu] at hnone
  | float x => cases h
  | null => exact Or.inl rfl
  | bool b => exact Or.inr (Or.inl ⟨b, rfl⟩)
  | int i => exact Or.inr (Or.inr (Or.inl ⟨i, rfl⟩))
  | bytes b => exact Or.inr (Or.inr (Or.inr ⟨b, rfl⟩))
  | _ => cases hnone

/-- What a plain scalar can have as its form. -/
inductive IsForm : Scalar → Prop
  | null : IsForm .null
  | bool (b : Bool) : IsForm (.bool b)
  | int (i : Int) : IsForm (.int i)
  | bytes (b : List UInt8) : IsForm (.bytes b)
  | str (text : String) : IsForm (.str text)

/-- What a scalar is formed to is a form. -/
theorem form_isForm {s : Scalar} (h : s.IsPlain) : IsForm s.form := by
  unfold form
  cases htext : s.comparedText? with
  | some text => exact .str text
  | none =>
      rcases without_text h htext with rfl | ⟨b, rfl⟩ | ⟨i, rfl⟩ | ⟨b, rfl⟩
      · exact .null
      · exact .bool b
      · exact .int i
      · exact .bytes b

theorem alike_symm {s t : Scalar} (h : s.Alike t) : t.Alike s := by
  cases h with
  | null => exact .null
  | bool b => exact .bool b
  | int i => exact .int i
  | bytes b => exact .bytes b
  | text hs ht => exact .text ht hs

/-- **Scalars are alike exactly if they have the same form.** -/
theorem alike_iff_form {s t : Scalar} (hs : s.IsPlain) (ht : t.IsPlain) :
    s.Alike t ↔ s.form = t.form := by
  constructor
  · intro h
    cases h with
    | null => rfl
    | bool b => rfl
    | int i => rfl
    | bytes b => rfl
    | text hs ht => rw [form, form, hs, ht]
  · intro h
    unfold form at h
    cases htext : s.comparedText? with
    | some text =>
        cases htext' : t.comparedText? with
        | some text' =>
            rw [htext, htext'] at h
            obtain rfl := Scalar.str.inj h
            exact .text htext htext'
        | none =>
            rw [htext, htext'] at h
            rcases without_text ht htext' with rfl | ⟨b, rfl⟩ | ⟨i, rfl⟩ | ⟨b, rfl⟩ <;> cases h
    | none =>
        cases htext' : t.comparedText? with
        | some text' =>
            rw [htext, htext'] at h
            rcases without_text hs htext with rfl | ⟨b, rfl⟩ | ⟨i, rfl⟩ | ⟨b, rfl⟩ <;> cases h
        | none =>
            rw [htext, htext'] at h
            obtain rfl : s = t := h
            rcases without_text hs htext with rfl | ⟨b, rfl⟩ | ⟨i, rfl⟩ | ⟨b, rfl⟩
            · exact .null
            · exact .bool b
            · exact .int i
            · exact .bytes b

/-- If the forms of two scalars are the same member, the scalars have one form or
are the same member themselves. -/
theorem same_of_same_form {s t : Scalar} (hs : s.IsPlain) (ht : t.IsPlain)
    (h : s.form.same t.form = true) : s.form = t.form ∨ s.same t = true := by
  unfold form at h ⊢
  cases htext : s.comparedText? with
  | some text =>
      cases htext' : t.comparedText? with
      | some text' =>
          rw [htext, htext'] at h
          obtain rfl : text = text' := eq_of_beq h
          exact Or.inl rfl
      | none =>
          rw [htext, htext'] at h
          rcases without_text ht htext' with rfl | ⟨b, rfl⟩ | ⟨i, rfl⟩ | ⟨b, rfl⟩ <;> cases h
  | none =>
      cases htext' : t.comparedText? with
      | some text' =>
          rw [htext, htext'] at h
          rcases without_text hs htext with rfl | ⟨b, rfl⟩ | ⟨i, rfl⟩ | ⟨b, rfl⟩ <;> cases h
      | none =>
          rw [htext, htext'] at h
          exact Or.inr h

end Scalar

namespace Key

/-- The canonical form of a plain key. -/
def settled : Key → Key
  | .scalar s => .scalar s.form
  | k => k

/-- The canonical form of a plain key with booleans told apart. -/
def form (k : Key) : Key := k.settled.strict

/-- The canonical form of a plain key. -/
theorem canonical_eq_settled {k : Key} (h : k.IsPlain) : k.canonical = .ok (some k.settled) := by
  cases k with
  | scalar s =>
      rw [canonical, Scalar.canonical_eq_form h]
      rfl
  | _ => cases h

/-- Keys of one mapping that are different and have different canonical forms
have forms that are different keys. -/
theorem settled_not_same {k k' : Key} (h : k.IsPlain) (h' : k'.IsPlain) (hsame : k.same k' = false)
    (hform : k.canonical ≠ k'.canonical) : k.settled.same k'.settled = false := by
  rw [canonical_eq_settled h, canonical_eq_settled h'] at hform
  cases k with
  | scalar s =>
      cases k' with
      | scalar t =>
          rw [Bool.eq_false_iff]
          intro heq
          rcases Scalar.same_of_same_form h h' heq with hst | hst
          · exact hform (by rw [settled, settled, hst])
          · rw [show (Key.scalar s).same (.scalar t) = s.same t from rfl, hst] at hsame
            cases hsame
      | _ => cases h'
  | _ => cases h

/-- With booleans told apart, forms of scalars are the same key only if they are
equal. -/
theorem same_strict_iff {c d : Scalar} (hc : c.IsForm) (hd : d.IsForm) :
    (Key.scalar c).strict.same (Key.scalar d).strict = true ↔
      (Key.scalar c).strict = (Key.scalar d).strict := by
  cases hc <;> cases hd <;> simp [strict, same, Scalar.same, Scalar.equal]

/-- Telling booleans apart brings no two forms together. -/
theorem strict_inj {c d : Scalar} (hc : c.IsForm) (hd : d.IsForm) :
    (Key.scalar c).strict = (Key.scalar d).strict ↔ c = d := by
  cases hc <;> cases hd <;> simp [strict]

/-- A mapping holds the forms of two plain keys for the same key only if they are
equal. -/
theorem same_form_iff {k k' : Key} (h : k.IsPlain) (h' : k'.IsPlain) :
    k.form.same k'.form = true ↔ k.form = k'.form := by
  cases k with
  | scalar s =>
      cases k' with
      | scalar t => exact same_strict_iff (Scalar.form_isForm h) (Scalar.form_isForm h')
      | _ => cases h'
  | _ => cases h

/-- **Plain keys are alike exactly if they have the same form.** -/
theorem alike_iff_form {k k' : Key} (h : k.IsPlain) (h' : k'.IsPlain) :
    k.Alike k' ↔ k.form = k'.form := by
  cases k with
  | scalar s =>
      cases k' with
      | scalar t =>
          exact (Scalar.alike_iff_form h h').trans
            (strict_inj (Scalar.form_isForm h) (Scalar.form_isForm h')).symm
      | _ => cases h'
  | _ => cases h

/-- Plain keys with one form have one canonical form. -/
theorem canonical_eq_of_form {k k' : Key} (h : k.IsPlain) (h' : k'.IsPlain)
    (heq : k.form = k'.form) : k.canonical = k'.canonical := by
  cases k with
  | scalar s =>
      cases k' with
      | scalar t =>
          have hforms := (strict_inj (Scalar.form_isForm h) (Scalar.form_isForm h')).mp heq
          rw [canonical_eq_settled h, canonical_eq_settled h', settled, settled, hforms]
      | _ => cases h'
  | _ => cases h

end Key

namespace Entries

variable {α : Type}

/-- Setting a key that is not there adds an entry. -/
theorem set_of_absent {entries : Entries α} {key : Key}
    (h : ∀ e ∈ entries, e.1.same key = false) (value : α) :
    entries.set key value = entries ++ [(key, value)] := by
  induction entries with
  | nil => rfl
  | cons e rest ih =>
      obtain ⟨k, v⟩ := e
      have hk : k.same key = false := h (k, v) List.mem_cons_self
      rw [set, hk, ih fun e he => h e (List.mem_cons_of_mem _ he)]
      rfl

end Entries

namespace Datum

mutual

/-- The canonical form of a plain datum with booleans told apart, part by
part. -/
def form : Datum → Datum
  | .scalar s => (Datum.scalar s.form).strict
  | .tuple items => .list (formAll items)
  | .list items => .list (formAll items)
  | .map entries => .map (formEntries entries)
  | d => d

/-- The forms of data. -/
def formAll : List Datum → List Datum
  | [] => []
  | d :: ds => form d :: formAll ds

/-- The forms of entries. -/
def formEntries : List (Key × Datum) → List (Key × Datum)
  | [] => []
  | (k, d) :: es => (k.form, form d) :: formEntries es

end

/-- The datum has a canonical form, which with its booleans told apart is
`form`. -/
def HasForm (d : Datum) : Prop := ∃ c, d.canonical = .ok c ∧ c.strict = d.form

/-- Items that have forms are formed one by one. -/
theorem canonicalAll_form {ds : List Datum} (h : ∀ d ∈ ds, d.HasForm) :
    ∃ cs, canonicalAll ds = .ok cs ∧ strictAll cs = formAll ds := by
  induction ds with
  | nil => exact ⟨[], rfl, rfl⟩
  | cons d ds ih =>
      obtain ⟨c, hc, hstrict⟩ := h d List.mem_cons_self
      obtain ⟨cs, hcs, hstricts⟩ := ih fun d hd => h d (List.mem_cons_of_mem _ hd)
      refine ⟨c :: cs, ?_, ?_⟩
      · rw [canonicalAll, hc, hcs]
        rfl
      · rw [strictAll, formAll, hstrict, hstricts]

/-- Entries whose forms are different keys are rewritten one by one. -/
theorem canonicalEntries_form {entries : List (Key × Datum)} (hkeys : ∀ e ∈ entries, e.1.IsPlain)
    (hvalues : ∀ e ∈ entries, e.2.HasForm)
    (hdifferent : entries.Pairwise fun e e' => e.1.settled.same e'.1.settled = false) :
    ∀ done : Entries Datum,
      (∀ e ∈ done, ∀ e' ∈ entries, e.1.same e'.1.settled = false) →
      ∃ es, canonicalEntries done entries = .ok (done ++ es) ∧
        strictEntries es = formEntries entries := by
  induction entries with
  | nil =>
      intro done _
      exact ⟨[], by rw [canonicalEntries, List.append_nil], rfl⟩
  | cons e entries ih =>
      obtain ⟨k, d⟩ := e
      intro done hdone
      obtain ⟨c, hc, hstrict⟩ := hvalues (k, d) List.mem_cons_self
      obtain ⟨hfirst, hrest⟩ := List.pairwise_cons.mp hdifferent
      have hset : Entries.set done k.settled c = done ++ [(k.settled, c)] :=
        Entries.set_of_absent (fun e he => hdone e he (k, d) List.mem_cons_self) c
      obtain ⟨es, hes, hstricts⟩ := ih (fun e he => hkeys e (List.mem_cons_of_mem _ he))
        (fun e he => hvalues e (List.mem_cons_of_mem _ he)) hrest (done ++ [(k.settled, c)]) (by
          intro e he e' he'
          rcases List.mem_append.mp he with hleft | hright
          · exact hdone e hleft e' (List.mem_cons_of_mem _ he')
          · obtain rfl := List.mem_singleton.mp hright
            exact hfirst e' he')
      refine ⟨(k.settled, c) :: es, ?_, ?_⟩
      · rw [canonicalEntries, Key.canonical_eq_settled (hkeys (k, d) List.mem_cons_self), hc]
        change canonicalEntries (Entries.set done k.settled c) entries = _
        rw [hset, hes, List.append_assoc]
        rfl
      · rw [strictEntries, formEntries, hstrict, hstricts]
        rfl

/-- **Canonical form.**  A plain datum has one, rewritten part by part. -/
theorem canonical_form {d : Datum} (h : d.IsPlain) : d.HasForm := by
  induction h with
  | @scalar s hs =>
      refine ⟨.scalar s.form, ?_, rfl⟩
      rw [canonical, Scalar.canonical_eq_form hs]
      rfl
  | @tuple items _ ih =>
      obtain ⟨cs, hcs, hstricts⟩ := canonicalAll_form ih
      exact ⟨.list cs, by rw [canonical, hcs]; rfl, by rw [strict, form, hstricts]⟩
  | @list items _ ih =>
      obtain ⟨cs, hcs, hstricts⟩ := canonicalAll_form ih
      exact ⟨.list cs, by rw [canonical, hcs]; rfl, by rw [strict, form, hstricts]⟩
  | @map entries hkeys _ hdifferent hforms ih =>
      have hsettled : entries.Pairwise fun e e' => e.1.settled.same e'.1.settled = false :=
        (hdifferent.and hforms).imp_of_mem fun he he' hboth =>
          Key.settled_not_same (hkeys _ he) (hkeys _ he') hboth.1 hboth.2
      obtain ⟨es, hes, hstricts⟩ :=
        canonicalEntries_form hkeys ih hsettled [] fun e he => by cases he
      exact ⟨.map es, by rw [canonical, hes]; rfl, by rw [strict, form, hstricts]⟩

/-! ## The relation on plain data -/

/-- The items of plain data are plain. -/
theorem IsPlain.items {d : Datum} (h : d.IsPlain) {items : List Datum}
    (hitems : d.items? = some items) : ∀ x ∈ items, x.IsPlain := by
  cases h with
  | scalar h => cases hitems
  | tuple h =>
      cases hitems
      exact h
  | list h =>
      cases hitems
      exact h
  | map _ _ _ _ => cases hitems

/-- The keys of a plain mapping are plain. -/
theorem IsPlain.keys {entries : List (Key × Datum)} (h : (Datum.map entries).IsPlain) :
    ∀ e ∈ entries, e.1.IsPlain := by
  cases h with
  | map hkeys _ _ _ => exact hkeys

/-- The values of a plain mapping are plain. -/
theorem IsPlain.values {entries : List (Key × Datum)} (h : (Datum.map entries).IsPlain) :
    ∀ e ∈ entries, e.2.IsPlain := by
  cases h with
  | map _ hvalues _ _ => exact hvalues

/-- The forms of the keys of a plain mapping are different. -/
theorem IsPlain.forms_nodup {entries : List (Key × Datum)} (h : (Datum.map entries).IsPlain) :
    (entries.map fun e => e.1.form).Nodup := by
  cases h with
  | map hkeys _ _ hforms =>
      refine List.pairwise_map.mpr (hforms.imp_of_mem fun he he' hne heq => hne ?_)
      exact Key.canonical_eq_of_form (hkeys _ he) (hkeys _ he') heq

/-- At most one entry of a plain mapping has a key that is alike a given one. -/
theorem IsPlain.entry_unique {entries : List (Key × Datum)} (h : (Datum.map entries).IsPlain)
    {k : Key} (hk : k.IsPlain) {e e' : Key × Datum} (he : e ∈ entries) (he' : e' ∈ entries)
    (halike : k.Alike e.1) (halike' : k.Alike e'.1) : e' = e := by
  have hform := (Key.alike_iff_form hk (h.keys e he)).mp halike
  have hform' := (Key.alike_iff_form hk (h.keys e' he')).mp halike'
  exact List.inj_on_of_nodup_map h.forms_nodup he' he (hform'.symm.trans hform)

/-- Equally many different keys, all of them among others, are those others. -/
theorem mem_of_subset {α : Type} {xs ys : List α} (hxs : xs.Nodup) (hsubset : xs ⊆ ys)
    (hlength : xs.length = ys.length) {y : α} (hy : y ∈ ys) : y ∈ xs :=
  ((List.subperm_of_subset hxs hsubset).perm_of_length_le (Nat.le_of_eq hlength.symm)).mem_iff.mpr hy

/-- If each entry of one mapping has an alike one in another of equally many
entries, each of the other has one in the first. -/
theorem eachIn_symm {xs ys : List (Key × Datum)} (hxs : (Datum.map xs).IsPlain)
    (hys : (Datum.map ys).IsPlain) (hlength : xs.length = ys.length)
    (hvalues : ∀ e ∈ xs, ∀ e' ∈ ys, e.2.Alike e'.2 → e'.2.Alike e.2) (h : EachIn xs ys) :
    EachIn ys xs := by
  rw [eachIn_iff] at h ⊢
  intro e' he'
  have hsubset : xs.map (fun e => e.1.form) ⊆ ys.map (fun e => e.1.form) := by
    intro k hk
    obtain ⟨e, he, rfl⟩ := List.mem_map.mp hk
    obtain ⟨e₁, he₁, halike, -⟩ := h e he
    have hform := (Key.alike_iff_form (hxs.keys e he) (hys.keys e₁ he₁)).mp halike
    exact List.mem_map.mpr ⟨e₁, he₁, hform.symm⟩
  -- As many keys on both sides, so every key of the other mapping is one of the first.
  have hmem := mem_of_subset hxs.forms_nodup hsubset (by simpa using hlength)
    (List.mem_map_of_mem he')
  obtain ⟨e, he, hform⟩ := List.mem_map.mp hmem
  have hkey := (Key.alike_iff_form (hxs.keys e he) (hys.keys e' he')).mpr hform
  obtain ⟨e₁, he₁, halike, hvalue⟩ := h e he
  obtain rfl := hys.entry_unique (hxs.keys e he) he' he₁ hkey halike
  exact ⟨e, he, (Key.alike_iff_form (hys.keys _ he') (hxs.keys e he)).mpr hform.symm,
    hvalues e he _ he' hvalue⟩

theorem alikeAll_symm {xs : List Datum} :
    ∀ {ys : List Datum}, (∀ x ∈ xs, ∀ y ∈ ys, Alike x y → Alike y x) → AlikeAll xs ys →
      AlikeAll ys xs := by
  induction xs with
  | nil =>
      intro ys _ h
      cases ys with
      | nil => trivial
      | cons y ys => cases h
  | cons x xs ih =>
      intro ys hall h
      cases ys with
      | nil => cases h
      | cons y ys =>
          refine ⟨hall x List.mem_cons_self y List.mem_cons_self h.1, ih ?_ h.2⟩
          exact fun x hx y hy => hall x (List.mem_cons_of_mem _ hx) y (List.mem_cons_of_mem _ hy)

/-- Items that are alike one way round are alike the other way round. -/
theorem items_symm {xs : List Datum} {b : Datum} (hb : b.IsPlain)
    (hsymm : ∀ x ∈ xs, ∀ {y : Datum}, y.IsPlain → Alike x y → Alike y x)
    (h : ∃ ys, b.items? = some ys ∧ AlikeAll xs ys) :
    ∃ ys, b.items? = some ys ∧ AlikeAll ys xs := by
  obtain ⟨ys, hys, hall⟩ := h
  exact ⟨ys, hys, alikeAll_symm (fun x hx y hy => hsymm x hx (hb.items hys y hy)) hall⟩

/-- A datum with items is alike what has the items alike. -/
theorem alike_of_items {b d : Datum} {xs ys : List Datum} (hb : b.items? = some ys)
    (hd : d.items? = some xs) (h : AlikeAll ys xs) : Alike b d := by
  cases b with
  | tuple items =>
      cases hb
      exact ⟨xs, hd, h⟩
  | list items =>
      cases hb
      exact ⟨xs, hd, h⟩
  | _ => cases hb

/-- **Alike is symmetric** on plain data. -/
theorem alike_symm {a b : Datum} (ha : a.IsPlain) (hb : b.IsPlain) (h : Alike a b) :
    Alike b a := by
  induction ha generalizing b with
  | scalar hs =>
      cases hb with
      | scalar ht => exact Scalar.alike_symm h
      | _ => cases h
  | tuple _ ih =>
      obtain ⟨ys, hys, hall⟩ := items_symm hb ih h
      exact alike_of_items hys rfl hall
  | list _ ih =>
      obtain ⟨ys, hys, hall⟩ := items_symm hb ih h
      exact alike_of_items hys rfl hall
  | map hkeys hvalues hdifferent hforms ih =>
      cases hb with
      | map hkeys' hvalues' hdifferent' hforms' =>
          exact ⟨h.1.symm, eachIn_symm (.map hkeys hvalues hdifferent hforms)
            (.map hkeys' hvalues' hdifferent' hforms') h.1
            (fun e he e' he' => ih e he (hvalues' e' he')) h.2⟩
      | _ => cases h

/-! ## Shapes -/

/-- What data of different kinds have in common when they are compared. -/
inductive Shape
  | leaf
  | items
  | entries
  | other

/-- Shape of a datum. -/
def shape : Datum → Shape
  | .scalar _ | .flag _ => .leaf
  | .tuple _ | .list _ => .items
  | .map _ | .frozen _ => .entries
  | _ => .other

/-- Alike data have one shape. -/
theorem shape_eq_of_alike {a b : Datum} (h : Alike a b) : a.shape = b.shape := by
  cases a with
  | scalar s =>
      cases b with
      | scalar t => rfl
      | _ => cases h
  | tuple xs | list xs =>
      obtain ⟨ys, hys, -⟩ := h
      cases b with
      | tuple _ | list _ => rfl
      | _ => cases hys
  | map xs =>
      cases b with
      | map ys => rfl
      | _ => cases h
  | _ => cases h

/-- A plain datum is a scalar, has items, or is a mapping. -/
theorem IsPlain.split {d : Datum} (h : d.IsPlain) :
    (d.shape = .leaf ∧ ∃ s, d = .scalar s ∧ s.IsPlain) ∨
      (d.shape = .items ∧ ∃ items, d.items? = some items) ∨
      (d.shape = .entries ∧ ∃ entries, d = .map entries) := by
  cases h with
  | scalar h => exact Or.inl ⟨rfl, _, rfl, h⟩
  | tuple _ => exact Or.inr (Or.inl ⟨rfl, _, rfl⟩)
  | list _ => exact Or.inr (Or.inl ⟨rfl, _, rfl⟩)
  | map _ _ _ _ => exact Or.inr (Or.inr ⟨rfl, _, rfl⟩)

/-- Tuples and lists are formed to lists. -/
theorem form_of_items {d : Datum} {items : List Datum} (h : d.items? = some items) :
    d.form = .list (formAll items) := by
  cases d with
  | tuple _ =>
      cases h
      rfl
  | list _ =>
      cases h
      rfl
  | _ => cases h

/-- Tuples and lists are alike by their items. -/
theorem alike_items_iff {a b : Datum} {xs ys : List Datum} (ha : a.items? = some xs)
    (hb : b.items? = some ys) : Alike a b ↔ AlikeAll xs ys := by
  refine ⟨fun h => ?_, alike_of_items ha hb⟩
  have hex : ∃ ys', b.items? = some ys' ∧ AlikeAll xs ys' := by
    cases a with
    | tuple _ =>
        cases ha
        exact h
    | list _ =>
        cases ha
        exact h
    | _ => cases ha
  obtain ⟨ys', hys', hall⟩ := hex
  obtain rfl := Option.some.inj (hb.symm.trans hys')
  exact hall

/-- Items and values are smaller than what holds them. -/
theorem sizeOf_item {d x : Datum} {items : List Datum} (h : d.items? = some items)
    (hx : x ∈ items) : sizeOf x < sizeOf d := by
  have hmem := List.sizeOf_lt_of_mem hx
  cases d with
  | tuple _ | list _ =>
      cases h
      simp
      omega
  | _ => cases h

@[inherit_doc sizeOf_item]
theorem sizeOf_value {e : Key × Datum} {entries : List (Key × Datum)} (he : e ∈ entries) :
    sizeOf e.2 < sizeOf (Datum.map entries) := by
  have hmem := List.sizeOf_lt_of_mem he
  cases e
  simp at hmem ⊢
  omega

/-- The form of a plain datum is that of a scalar, a list or a mapping. -/
theorem IsPlain.form_cases {d : Datum} (h : d.IsPlain) :
    (∃ c, c.IsForm ∧ d.form = (Datum.scalar c).strict) ∨ (∃ items, d.form = .list items) ∨
      ∃ entries, d.form = .map entries := by
  rcases h.split with ⟨-, s, rfl, hs⟩ | ⟨-, items, hitems⟩ | ⟨-, entries, rfl⟩
  · exact Or.inl ⟨s.form, Scalar.form_isForm hs, rfl⟩
  · exact Or.inr (Or.inl ⟨_, form_of_items hitems⟩)
  · exact Or.inr (Or.inr ⟨_, rfl⟩)

/-- Forming keeps the shape. -/
theorem form_shape {d : Datum} (h : d.IsPlain) : d.form.shape = d.shape := by
  rcases h.split with ⟨hshape, s, rfl, hs⟩ | ⟨hshape, items, hitems⟩ | ⟨hshape, entries, rfl⟩
  · have hs := Scalar.form_isForm hs
    rw [form]
    generalize s.form = c at hs
    cases hs <;> rfl
  · rw [form_of_items hitems, hshape]
    rfl
  · rfl

@[simp] theorem length_formAll (ds : List Datum) : (formAll ds).length = ds.length := by
  induction ds with
  | nil => rfl
  | cons d ds ih => simp [formAll, ih]

theorem formEntries_eq (entries : List (Key × Datum)) :
    formEntries entries = entries.map fun e => (e.1.form, e.2.form) := by
  induction entries with
  | nil => rfl
  | cons e es ih => simp [formEntries, ih]

/-- The value that the form of a plain mapping has for the form of a key is that of
the entry with an alike key. -/
theorem IsPlain.find?_form {entries : List (Key × Datum)} (h : (Datum.map entries).IsPlain)
    {k : Key} (hk : k.IsPlain) {e : Key × Datum} (he : e ∈ entries) (halike : k.Alike e.1) :
    Entries.find? (formEntries entries) k.form = some e.2.form := by
  rw [formEntries_eq]
  unfold Entries.find?
  rw [List.find?_map, Option.map_map]
  cases hfind : List.find? ((fun e => e.1.same k.form) ∘ fun e : Key × Datum => (e.1.form, e.2.form))
      entries with
  | none =>
      have hnot := List.find?_eq_none.mp hfind e he
      have hform := (Key.alike_iff_form hk (h.keys e he)).mp halike
      exact absurd ((Key.same_form_iff (h.keys e he) hk).mpr hform.symm) hnot
  | some e' =>
      have he' := List.mem_of_find?_eq_some hfind
      have hsame := List.find?_some hfind
      have hform := (Key.same_form_iff (h.keys e' he') hk).mp hsame
      have halike' := (Key.alike_iff_form hk (h.keys e' he')).mpr hform.symm
      rw [h.entry_unique hk he he' halike halike']
      rfl

/-- The form of a plain mapping has no value for the form of a key without an alike
one. -/
theorem IsPlain.find?_form_eq_none {entries : List (Key × Datum)} (h : (Datum.map entries).IsPlain)
    {k : Key} (hk : k.IsPlain) (hnone : ¬ ∃ e ∈ entries, k.Alike e.1) :
    Entries.find? (formEntries entries) k.form = none := by
  rw [formEntries_eq]
  unfold Entries.find?
  rw [Option.map_eq_none_iff, List.find?_eq_none, List.forall_mem_map]
  intro e he hsame
  have hform := (Key.same_form_iff (h.keys e he) hk).mp hsame
  exact hnone ⟨e, he, (Key.alike_iff_form hk (h.keys e he)).mpr hform.symm⟩

end Datum

/-! ## What comparing decides -/

variable {ω : Type} {impl : Implementation ω}

/-- The step says whether a proposition holds, and changes nothing. -/
def Decides (step : Code ω Bool) (p : Prop) : Prop :=
  ∀ store, ∃ same, runFrom step store = (.ok same, store) ∧ (same = true ↔ p)

namespace Decides

variable {step next : Code ω Bool} {p q : Prop}

theorem pure {same : Bool} (h : same = true ↔ p) : Decides (Pure.pure same : Code ω Bool) p :=
  fun _ => ⟨same, rfl, h⟩

/-- What decides a statement decides any equivalent one. -/
theorem congr (h : Decides step p) (hpq : p ↔ q) : Decides step q := by
  intro store
  obtain ⟨same, hrun, hsame⟩ := h store
  exact ⟨same, hrun, hsame.trans hpq⟩

/-- A step that goes on if another one says yes decides both. -/
theorem and (h : Decides step p) (hnext : Decides next q) :
    Decides (do if ← step then next else Pure.pure false) (p ∧ q) := by
  intro store
  obtain ⟨same, hrun, hsame⟩ := h store
  rw [runFrom_bind_of_ok hrun]
  cases same with
  | true =>
      obtain ⟨same', hrun', hsame'⟩ := hnext store
      exact ⟨same', hrun', hsame'.trans (iff_and_self.mpr fun _ => hsame.mp rfl)⟩
  | false => exact ⟨false, rfl, by simp [← hsame]⟩

/-- A step that is taken under a condition decides both. -/
theorem guard {c : Prop} [Decidable c] (h : c → Decides step p) :
    Decides (if c then step else Pure.pure false) (c ∧ p) := by
  by_cases hc : c
  · rw [if_pos hc]
    exact (h hc).congr (by simp [hc])
  · rw [if_neg hc]
    exact Decides.pure (by simp [hc])

end Decides

/-! ### Equality of forms -/

/-- The form of a plain datum is no object, so it has no equality of its own. -/
theorem ownEquality?_form {d : Datum} (h : d.IsPlain) (store : Store ω) :
    impl.ownEquality? store d.form = none := by
  rcases h.form_cases with ⟨c, hc, heq⟩ | ⟨items, heq⟩ | ⟨entries, heq⟩
  · rw [heq]
    cases hc <;> rfl
  · rw [heq]
    rfl
  · rw [heq]
    rfl

/-- No form is identical with anything, so members are always compared. -/
theorem identical_form {a b : Datum} (h : a.IsPlain) :
    Implementation.identical a.form b = false := by
  rcases h.form_cases with ⟨c, hc, heq⟩ | ⟨items, heq⟩ | ⟨entries, heq⟩
  · rw [heq]
    cases hc <;> rfl
  · rw [heq]
    rfl
  · rw [heq]
    rfl

/-- Forms of plain data are compared without asking the implementation. -/
theorem runFrom_equal_form {a b : Datum} (ha : a.IsPlain) (hb : b.IsPlain) (store : Store ω) :
    runFrom (impl.equal a.form b.form) store = runFrom (impl.equalPlain a.form b.form) store := by
  have hstore : runFrom (Code.store : Code ω (Store ω)) store = (.ok store, store) := rfl
  rw [Implementation.equal, runFrom_bind_of_ok hstore, ownEquality?_form ha, ownEquality?_form hb]

/-- Forms are compared as members as they are otherwise. -/
theorem equalMember_form {a b : Datum} (ha : a.IsPlain) :
    impl.equalMember a.form b.form = impl.equal a.form b.form := by
  rw [Implementation.equalMember, identical_form ha]
  rfl

/-- Equality tells forms of scalars apart. -/
theorem equalPlain_scalars {c d : Scalar} (hc : c.IsForm) (hd : d.IsForm) :
    Decides (impl.equalPlain (Datum.scalar c).strict (Datum.scalar d).strict) (c = d) := by
  rw [Implementation.equalPlain.eq_def]
  cases hc <;> cases hd
  all_goals exact Decides.pure (by simp [Scalar.equal])

/-- Items are compared one by one. -/
theorem equalItems_decides {xs : List Datum} :
    ∀ {ys : List Datum},
      (∀ x ∈ xs, ∀ y ∈ ys, Decides (impl.equalMember x.form y.form) (x.Alike y)) →
      Decides (impl.equalItems (Datum.formAll xs) (Datum.formAll ys)) (Datum.AlikeAll xs ys) := by
  induction xs with
  | nil =>
      intro ys _
      cases ys with
      | nil =>
          rw [Datum.formAll, Implementation.equalItems]
          exact Decides.pure (by simp [Datum.AlikeAll])
      | cons y ys =>
          rw [Implementation.equalItems.eq_def]
          exact Decides.pure (by simp [Datum.AlikeAll])
  | cons x xs ih =>
      intro ys h
      cases ys with
      | nil =>
          rw [Implementation.equalItems.eq_def]
          exact Decides.pure (by simp [Datum.AlikeAll])
      | cons y ys =>
          rw [Datum.formAll, Datum.formAll, Implementation.equalItems]
          refine (h x List.mem_cons_self y List.mem_cons_self).and (ih ?_)
          exact fun x hx y hy => h x (List.mem_cons_of_mem _ hx) y (List.mem_cons_of_mem _ hy)

/-- Each entry is compared with the one of its key in the other mapping. -/
theorem equalEntries_decides {ys : List (Key × Datum)} (hys : (Datum.map ys).IsPlain)
    {xs : List (Key × Datum)} (hkeys : ∀ e ∈ xs, e.1.IsPlain)
    (h : ∀ e ∈ xs, ∀ e' ∈ ys, Decides (impl.equalMember e'.2.form e.2.form) (e.2.Alike e'.2)) :
    Decides (impl.equalEntries (Datum.formEntries xs) (Datum.formEntries ys))
      (Datum.EachIn xs ys) := by
  induction xs with
  | nil =>
      rw [Datum.formEntries, Implementation.equalEntries]
      exact Decides.pure (by simp [Datum.EachIn])
  | cons e xs ih =>
      obtain ⟨k, x⟩ := e
      have hk : k.IsPlain := hkeys (k, x) List.mem_cons_self
      have hrest := ih (fun e he => hkeys e (List.mem_cons_of_mem _ he))
        (fun e he => h e (List.mem_cons_of_mem _ he))
      rw [Datum.formEntries, Implementation.equalEntries_cons]
      by_cases hex : ∃ e ∈ ys, k.Alike e.1
      · obtain ⟨e, he, halike⟩ := hex
        rw [hys.find?_form hk he halike]
        refine ((h (k, x) List.mem_cons_self e he).and hrest).congr (and_congr_left fun _ => ?_)
        constructor
        · exact fun hvalue => ⟨e, he, halike, hvalue⟩
        · intro hex
          obtain ⟨e', he', halike', hvalue⟩ := hex
          rwa [hys.entry_unique hk he he' halike halike'] at hvalue
      · rw [hys.find?_form_eq_none hk hex]
        refine Decides.pure ⟨(nomatch ·), fun heach => ?_⟩
        obtain ⟨e, he, halike, -⟩ := heach.1
        exact absurd ⟨e, he, halike⟩ hex

theorem alikeAll_length {xs ys : List Datum} (h : Datum.AlikeAll xs ys) : xs.length = ys.length :=
  (Datum.alikeAll_iff.mp h).length_eq

/-- Data of different shapes are not equal. -/
theorem equalPlain_of_shape_ne {a b : Datum} (h : a.shape ≠ b.shape) :
    impl.equalPlain a b = pure false := by
  rw [Implementation.equalPlain.eq_def]
  cases a <;> cases b
  all_goals first
    | rfl
    | exact absurd rfl h

/-- **Equality of forms** of plain data decides whether the data are alike. -/
theorem equal_decides {a b : Datum} (ha : a.IsPlain) (hb : b.IsPlain) :
    Decides (impl.equal a.form b.form) (a.Alike b) := by
  suffices h : Decides (impl.equalPlain a.form b.form) (a.Alike b) by
    intro store
    rw [runFrom_equal_form ha hb]
    exact h store
  by_cases hne : a.shape ≠ b.shape
  · rw [equalPlain_of_shape_ne (by rwa [Datum.form_shape ha, Datum.form_shape hb])]
    exact Decides.pure ⟨(nomatch ·), fun h => absurd (Datum.shape_eq_of_alike h) hne⟩
  have hsplit := ha.split
  rw [not_not.mp hne] at hsplit
  rcases hb.split with ⟨hshape, t, rfl, ht⟩ | ⟨hshape, ys, hys⟩ | ⟨hshape, ys, rfl⟩
  · simp only [hshape, reduceCtorEq, true_and, false_and, or_false] at hsplit
    obtain ⟨s, rfl, hs⟩ := hsplit
    rw [Datum.form, Datum.form]
    exact (equalPlain_scalars (Scalar.form_isForm hs) (Scalar.form_isForm ht)).congr
      (Scalar.alike_iff_form hs ht).symm
  · simp only [hshape, reduceCtorEq, true_and, false_and, or_false, false_or] at hsplit
    obtain ⟨xs, hxs⟩ := hsplit
    rw [Datum.form_of_items hxs, Datum.form_of_items hys, Implementation.equalPlain]
    refine (Decides.guard fun _ => equalItems_decides fun x hx y hy => ?_).congr ?_
    · have hsize := Datum.sizeOf_item hxs hx
      have hsize' := Datum.sizeOf_item hys hy
      rw [equalMember_form (ha.items hxs x hx)]
      exact equal_decides (ha.items hxs x hx) (hb.items hys y hy)
    · rw [Datum.length_formAll, Datum.length_formAll, Datum.alike_items_iff hxs hys]
      exact and_iff_right_of_imp alikeAll_length
  · simp only [hshape, reduceCtorEq, true_and, false_and, false_or] at hsplit
    obtain ⟨xs, rfl⟩ := hsplit
    rw [Datum.form, Datum.form, Implementation.equalPlain]
    refine (Decides.guard fun _ => equalEntries_decides hb ha.keys fun e he e' he' => ?_).congr ?_
    · have hsize := Datum.sizeOf_value he
      have hsize' := Datum.sizeOf_value he'
      have hvalue := ha.values e he
      have hvalue' := hb.values e' he'
      rw [equalMember_form hvalue']
      -- The values are compared the other way round.
      exact (equal_decides hvalue' hvalue).congr
        ⟨Datum.alike_symm hvalue' hvalue, Datum.alike_symm hvalue hvalue'⟩
    · rw [Datum.formEntries_eq, Datum.formEntries_eq, List.length_map, List.length_map,
        Datum.Alike]
termination_by sizeOf a + sizeOf b
decreasing_by all_goals subst_vars; omega

/-! ## The comparison -/

theorem forall_mem_pair {α : Type} {p : α → Prop} {x y : α} (hx : p x) (hy : p y) :
    ∀ z ∈ [x, y], p z :=
  List.forall_mem_cons.mpr ⟨hx, List.forall_mem_singleton.mpr hy⟩

/-- **Comparing plain data** with an expected value that is neither null nor the
marker for anything ends well, changes nothing, and says whether the two are
alike. -/
theorem compare_iff_alike (impl : Implementation ω) {actual expected : Datum}
    (hactual : actual.IsPlain) (hexpected : expected.IsPlain) (hnull : expected ≠ .scalar .null)
    (hany : expected ≠ .scalar (.sentinel .any)) :
    Decides (Run.compare impl actual expected) (actual.Alike expected) := by
  have hopen : Run.isOpen expected = false := by
    unfold Run.isOpen
    split
    · exact absurd rfl hnull
    · exact absurd rfl hany
    · rfl
  obtain ⟨a, ha, hastrict⟩ := Datum.canonical_form hactual
  obtain ⟨e, he, hestrict⟩ := Datum.canonical_form hexpected
  have hdecides : Decides (impl.equal actual.form expected.form) (actual.Alike expected) :=
    equal_decides hactual hexpected
  intro store
  obtain ⟨same, hrun, hsame⟩ := hdecides store
  have hequal : runFrom (Run.canonicallyEqual impl actual expected) store = (.ok same, store) := by
    unfold Run.canonicallyEqual
    rw [ha, he]
    change runFrom (impl.equal a.strict e.strict) store = _
    rw [hastrict, hestrict, hrun]
  refine ⟨same, ?_, hsame⟩
  rw [Run.runFrom_compare, hopen, hequal]
  rfl

/-- The entries of a mapping may stand in any order, and a tuple may stand for a
list. -/
theorem compare_reordered :
    runFrom (Run.compare (Sample.implementation [])
        (.map [(.str "day", .scalar (.date ⟨2024, 2, 29⟩)),
          (.scalar (.bool true), .tuple [.null, .scalar (.sentinel .any)])])
        (.map [(.scalar (.bool true), .list [.null, .str "ANY"]),
          (.str "day", .str "2024-02-29")])) Store.empty =
      (.ok true, Store.empty) := by
  have hmarked : (Datum.tuple [.null, .scalar (.sentinel .any)]).IsPlain :=
    .tuple (forall_mem_pair (.scalar trivial) (.scalar trivial))
  have hwritten : (Datum.list [.null, .str "ANY"]).IsPlain :=
    .list (forall_mem_pair (.scalar trivial) (.scalar trivial))
  have hactual : (Datum.map [(.str "day", .scalar (.date ⟨2024, 2, 29⟩)),
      (.scalar (.bool true), .tuple [.null, .scalar (.sentinel .any)])]).IsPlain := by
    refine .map (forall_mem_pair trivial trivial)
      (forall_mem_pair (.scalar trivial) hmarked) (by decide) ?_
    simp [Key.str, Key.canonical, Scalar.canonical, Except.map]
  have hexpected : (Datum.map [(.scalar (.bool true), .list [.null, .str "ANY"]),
      (.str "day", .str "2024-02-29")]).IsPlain := by
    refine .map (forall_mem_pair trivial trivial)
      (forall_mem_pair hwritten (.scalar trivial)) (by decide) ?_
    simp [Key.str, Key.canonical, Scalar.canonical, Except.map]
  obtain ⟨same, hrun, hsame⟩ := compare_iff_alike (Sample.implementation []) hactual hexpected
    (fun h => nomatch h) (fun h => nomatch h) Store.empty
  have hday : (Scalar.date ⟨2024, 2, 29⟩).Alike (.str "2024-02-29") := .text rfl (by decide)
  have hany : (Scalar.sentinel .any).Alike (.str "ANY") := .text rfl rfl
  rw [hrun, hsame.mpr ?_]
  refine ⟨rfl, ⟨_, .tail _ (.head _), .text rfl rfl, hday⟩, ⟨_, .head _, .bool true, ?_⟩, trivial⟩
  exact ⟨_, rfl, .null, hany, trivial⟩

end Conformance
