import Conformance.Proofs.Comparison
import Mathlib.Algebra.Field.Rat
import Mathlib.Algebra.GroupWithZero.Basic
import Mathlib.Data.List.Pairwise
import Mathlib.Tactic.NormNum
import Mathlib.Tactic.Ring

/-!
# When data are the same

Lists and mappings hold the same members if these are equal or one not-a-number from one place.
On data without objects this is decided without asking the implementation, and it is a relation
between the data alone: `Datum.Same`.

The equality of scalars crosses kinds, so that it is no wonder if a chain of equal scalars ends in
one that differs from the first.  It does not: `Scalar.same_iff` gives every scalar an essence, a
rational number for all that is a number, and two scalars are the same exactly if they have one
essence.  So `Datum.Same` is an equivalence (`same_refl`, `same_symm`, `same_trans`).  For
mappings the key fact is `Entries.partner_symm`: if each of equally many entries with different
keys has a partner among others, each of the others has one among them.
-/

namespace Conformance

/-! ## Numbers -/

namespace Binary64

/-- A significand times a power of two, as a rational number. -/
def scaled (a : Int) (e : Int) : ℚ := a * (2 : ℚ) ^ e

/-- A scaled significand may be scaled by a smaller exponent instead. -/
theorem scaled_of_le {low e : Int} (h : low ≤ e) (a : Int) :
    scaled a e = (a * (Nat.pow 2 (e - low).toNat : Nat) : Int) * (2 : ℚ) ^ low := by
  obtain ⟨n, rfl⟩ := Int.le.dest h
  have hn : (low + n - low).toNat = n := by omega
  have htwo : (2 : ℚ) ≠ 0 := by norm_num
  rw [scaled, hn, zpow_add₀ htwo, zpow_natCast]
  change _ = (((a * ((2 ^ n : Nat) : Int)) : Int) : ℚ) * 2 ^ low
  push_cast
  ring

/-- Scaled significands are equal as the rational numbers they stand for. -/
theorem equalScaled_iff {a ea b eb : Int} :
    equalScaled a ea b eb = true ↔ scaled a ea = scaled b eb := by
  have hpow : (2 : ℚ) ^ min ea eb ≠ 0 := zpow_ne_zero _ (by norm_num)
  rw [scaled_of_le (Int.min_le_left ea eb), scaled_of_le (Int.min_le_right ea eb),
    mul_left_inj' hpow, Int.cast_inj, equalScaled]
  exact beq_iff_eq

end Binary64

/-! ## Scalars -/

/-- Markers are told apart by their names. -/
theorem Sentinel.name_inj {s t : Sentinel} : s.name = t.name ↔ s = t := by
  cases s <;> cases t <;> decide

/-- What a number of the binary format is: a rational number, infinite, or a not-a-number with
its origin. -/
inductive Magnitude
  | rational (q : ℚ)
  | infinite (negative : Bool)
  | nan (origin : Nat)

def Binary64.magnitude : Binary64 → Magnitude
  | .finite negative mantissa exponent => .rational (scaled (signed negative mantissa) exponent)
  | .infinite negative => .infinite negative
  | .nan origin => .nan origin

/-- Numbers of the binary format are the same by what they are. -/
theorem Binary64.same_iff {x y : Binary64} : x.same y = true ↔ x.magnitude = y.magnitude := by
  cases x <;> cases y <;> simp [same, equal, magnitude, equalScaled_iff]

/-- One is equal to a whole number if it is that number. -/
theorem Binary64.equalInt_iff {x : Binary64} {i : Int} :
    x.equalInt i = true ↔ x.magnitude = .rational i := by
  cases x <;> simp [equalInt, magnitude, equalScaled_iff, scaled]

/-- What a time reads, or, with an offset, how far it is from universal midnight. -/
def Time.reading (t : Time) : Clock ⊕ Int × Nat :=
  match t.offset with
  | none => .inl t.clock
  | some offset => .inr (t.clock.seconds - Int.fdiv offset 1000000, t.clock.micro)

/-- Times are equal by what they read. -/
theorem Time.equal_iff {t u : Time} : t.equal u = true ↔ t.reading = u.reading := by
  unfold equal reading
  cases t.offset <;> cases u.offset <;> simp

/-- What a date and time reads, or, with an offset, the instant it denotes. -/
def DateTime.reading (t : DateTime) : (Date × Clock) ⊕ Int :=
  match t.offset with
  | none => .inl (t.date, t.clock)
  | some _ => .inr t.instant

/-- Dates and times are equal by what they read, or by the instants they denote. -/
theorem DateTime.equal_iff {t u : DateTime} : t.equal u = true ↔ t.reading = u.reading := by
  unfold equal reading
  cases t.offset <;> cases u.offset <;> simp

namespace Scalar

/-- What a scalar is the same by. -/
inductive Essence
  | null
  | number (m : Magnitude)
  | text (s : String)
  | bytes (b : List UInt8)
  | date (d : Date)
  | time (reading : Clock ⊕ Int × Nat)
  | datetime (reading : (Date × Clock) ⊕ Int)

/-- The essence of a scalar; booleans are numbers, and markers are texts. -/
def essence : Scalar → Essence
  | .null => .null
  | .bool b => .number (.rational (ofBool b))
  | .int i => .number (.rational i)
  | .float x => .number x.magnitude
  | .str s => .text s
  | .sentinel s => .text s.name
  | .bytes b => .bytes b
  | .date d => .date d
  | .time t => .time t.reading
  | .datetime t => .datetime t.reading

theorem ofBool_inj {a b : Bool} : ofBool a = ofBool b ↔ a = b := by
  cases a <;> cases b <;> decide

/-- **Scalars are the same** as members exactly if they have one essence. -/
theorem same_iff {s t : Scalar} : s.same t = true ↔ s.essence = t.essence := by
  cases s <;> cases t <;>
    simp [same, equal, essence, Binary64.same_iff, Binary64.equalInt_iff, Time.equal_iff,
      DateTime.equal_iff, Sentinel.name_inj, ofBool_inj]
  -- A number of the binary format stands first in its equality with whole numbers.
  all_goals exact eq_comm

end Scalar

/-! ## Keys -/

namespace Key

mutual

/-- Every key is the same as itself. -/
theorem same_refl : ∀ k : Key, k.same k = true
  | .scalar _ => Scalar.same_iff.mpr rfl
  | .tuple items => sameAll_refl items
  | .reference path => beq_self_eq_true path
  | .object location => beq_self_eq_true location
  | .flag b => beq_self_eq_true b

/-- So is every tuple of keys. -/
theorem sameAll_refl : ∀ ks : List Key, sameAll ks ks = true
  | [] => rfl
  | k :: ks => by rw [sameAll, same_refl k, sameAll_refl ks, Bool.and_self]

end

mutual

/-- Same keys are the same as the same keys. -/
theorem same_congr : ∀ {k k' : Key}, k.same k' = true → ∀ l : Key, k.same l = k'.same l
  | .scalar s, .scalar t, h, .scalar u => by
      have hessence : s.essence = t.essence := Scalar.same_iff.mp h
      change s.same u = t.same u
      rw [Bool.eq_iff_iff, Scalar.same_iff, Scalar.same_iff, hessence]
  | .tuple ks, .tuple ks', h, .tuple ls => sameAll_congr h ls
  | .reference path, .reference path', h, l => by
      obtain rfl := eq_of_beq h
      rfl
  | .object location, .object location', h, l => by
      obtain rfl := eq_of_beq h
      rfl
  | .flag b, .flag b', h, l => by
      obtain rfl := eq_of_beq h
      rfl
  | .scalar _, .scalar _, _, .tuple _ | .scalar _, .scalar _, _, .reference _
  | .scalar _, .scalar _, _, .object _ | .scalar _, .scalar _, _, .flag _ => rfl
  | .tuple _, .tuple _, _, .scalar _ | .tuple _, .tuple _, _, .reference _
  | .tuple _, .tuple _, _, .object _ | .tuple _, .tuple _, _, .flag _ => rfl

/-- Tuples that are the same are the same as the same tuples. -/
theorem sameAll_congr : ∀ {ks ks' : List Key}, sameAll ks ks' = true →
    ∀ ls : List Key, sameAll ks ls = sameAll ks' ls
  | [], [], _, _ => rfl
  | _ :: _, _ :: _, _, [] => rfl
  | k :: ks, k' :: ks', h, l :: ls => by
      rw [sameAll, Bool.and_eq_true] at h
      rw [sameAll, sameAll, same_congr h.1 l, sameAll_congr h.2 ls]

end

theorem same_symm {k k' : Key} (h : k.same k' = true) : k'.same k = true := by
  rw [← same_congr h k]
  exact same_refl k

theorem same_trans {k k' l : Key} (h : k.same k' = true) (h' : k'.same l = true) :
    k.same l = true := by
  rw [same_congr h l]
  exact h'

theorem same_comm (k k' : Key) : k.same k' = k'.same k :=
  Bool.eq_iff_iff.mpr ⟨same_symm, same_symm⟩

end Key

namespace Entries

variable {α β : Type}

/-- The keys of entries are different. -/
def Different (entries : List (Key × α)) : Prop :=
  entries.Pairwise fun e e' => e.1.same e'.1 = false

instance (entries : List (Key × α)) : Decidable (Different entries) :=
  inferInstanceAs (Decidable (entries.Pairwise _))

/-- Different entries of one mapping have different keys. -/
theorem Different.eq_of_same {entries : List (Key × α)} (h : Different entries) {e e' : Key × α}
    (he : e ∈ entries) (he' : e' ∈ entries) (hsame : e.1.same e'.1 = true) : e = e' := by
  have hsymm : Std.Symm fun e e' : Key × α => e.1.same e'.1 = false :=
    ⟨fun e e' hdifferent => by rw [Key.same_comm, hdifferent]⟩
  by_contra hne
  have hdifferent : e.1.same e'.1 = false := List.Pairwise.forall h he he' hne
  rw [hsame] at hdifferent
  cases hdifferent

/-- The value of a key in a mapping is that of the entry with the same key. -/
theorem Different.find?_eq {entries : List (Key × α)} (h : Different entries) {e : Key × α}
    (he : e ∈ entries) {k : Key} (hk : k.same e.1 = true) :
    Entries.find? entries k = some e.2 := by
  unfold Entries.find?
  cases hfind : List.find? (fun e => e.1.same k) entries with
  | none =>
      have hnot := List.find?_eq_none.mp hfind e he
      exact absurd (Key.same_symm hk) hnot
  | some e' =>
      have hsame : e'.1.same k = true := by
        simpa using List.find?_some (p := fun e : Key × α => e.1.same k) hfind
      have heq := h.eq_of_same (List.mem_of_find?_eq_some hfind) he (Key.same_trans hsame hk)
      rw [heq]
      rfl

/-- A key leads nowhere if no entry has the same. -/
theorem find?_eq_none_iff {entries : List (Key × α)} {k : Key} :
    Entries.find? entries k = none ↔ ∀ e ∈ entries, k.same e.1 = false := by
  unfold Entries.find?
  simp only [Option.map_eq_none_iff, List.find?_eq_none, Bool.not_eq_true, Key.same_comm k]

/-- **Partners.**  If each of some entries with different keys has a partner with the same key
among equally many others, each of the others has one among them. -/
theorem partner_symm {R : α → β → Prop} {xs : List (Key × α)} (hxs : Different xs) :
    ∀ {ys : List (Key × β)}, xs.length = ys.length →
      (∀ e ∈ xs, ∃ e' ∈ ys, e.1.same e'.1 = true ∧ R e.2 e'.2) →
      ∀ e' ∈ ys, ∃ e ∈ xs, e.1.same e'.1 = true ∧ R e.2 e'.2 := by
  induction xs with
  | nil =>
      intro ys hlength _ e' he'
      obtain rfl := List.length_eq_zero_iff.mp hlength.symm
      cases he'
  | cons e xs ih =>
      intro ys hlength hpartner
      obtain ⟨hfirst, hrest⟩ := List.pairwise_cons.mp hxs
      obtain ⟨⟨partner, hmem, hkey, hvalue⟩, hothers⟩ := List.forall_mem_cons.mp hpartner
      obtain ⟨before, after, rfl⟩ := List.append_of_mem hmem
      -- The partner of the first entry is nobody else's, so the others have theirs without it.
      have hwithout : ∀ d ∈ xs, ∃ e' ∈ before ++ after, d.1.same e'.1 = true ∧ R d.2 e'.2 := by
        intro d hd
        obtain ⟨e', he', hsame, hd'⟩ := hothers d hd
        refine ⟨e', ?_, hsame, hd'⟩
        rw [List.mem_append, List.mem_cons] at he'
        rcases he' with hbefore | rfl | hafter
        · exact List.mem_append_left _ hbefore
        · have hclash := Key.same_trans hkey (Key.same_symm hsame)
          rw [hfirst d hd] at hclash
          cases hclash
        · exact List.mem_append_right _ hafter
      have hcount : xs.length = (before ++ after).length := by
        simp only [List.length_append, List.length_cons] at hlength ⊢
        omega
      intro e' he'
      rw [List.mem_append, List.mem_cons] at he'
      have hall := ih hrest hcount hwithout
      rcases he' with hbefore | rfl | hafter
      · obtain ⟨d, hd, hpair⟩ := hall e' (List.mem_append_left _ hbefore)
        exact ⟨d, List.mem_cons_of_mem _ hd, hpair⟩
      · exact ⟨e, List.mem_cons_self, hkey, hvalue⟩
      · obtain ⟨d, hd, hpair⟩ := hall e' (List.mem_append_right _ hafter)
        exact ⟨d, List.mem_cons_of_mem _ hd, hpair⟩

end Entries

/-! ## Data -/

namespace Datum

/-- Data that are compared without asking anybody: scalars, lists, tuples, and mappings with
different keys, read-only ones among them.  There are no objects, and nothing without an end. -/
inductive Comparable : Datum → Prop
  | scalar (s : Scalar) : Comparable (.scalar s)
  | flag (b : Bool) : Comparable (.flag b)
  | reference (path : String) : Comparable (.reference path)
  | tuple {items : List Datum} (h : ∀ d ∈ items, Comparable d) : Comparable (.tuple items)
  | list {items : List Datum} (h : ∀ d ∈ items, Comparable d) : Comparable (.list items)
  | map {entries : List (Key × Datum)} (hkeys : Entries.Different entries)
      (hvalues : ∀ e ∈ entries, Comparable e.2) : Comparable (.map entries)
  | frozen {entries : List (Key × Datum)} (hkeys : Entries.Different entries)
      (hvalues : ∀ e ∈ entries, Comparable e.2) : Comparable (.frozen entries)

/-- Entries of a mapping, read-only or not. -/
def entries? : Datum → Option (List (Key × Datum))
  | .map entries => some entries
  | .frozen entries => some entries
  | _ => none

mutual

/-- Data that are the same as members: scalars that are, tuples and lists item by item, and
mappings of equally many entries where each entry of one has a partner in the other.  A tuple is
never the same as a list; a read-only mapping may be the same as one that is not. -/
def Same : Datum → Datum → Prop
  | .scalar s, .scalar t => s.same t = true
  | .flag a, .flag b => a = b
  | .reference p, .reference q => p = q
  | .tuple xs, .tuple ys => SameAll xs ys
  | .list xs, .list ys => SameAll xs ys
  | .map xs, b => ∃ ys, b.entries? = some ys ∧ xs.length = ys.length ∧ SameIn xs ys
  | .frozen xs, b => ∃ ys, b.entries? = some ys ∧ xs.length = ys.length ∧ SameIn xs ys
  | _, _ => False

/-- Pairwise the same, and equally many. -/
def SameAll : List Datum → List Datum → Prop
  | [], [] => True
  | x :: xs, y :: ys => Same x y ∧ SameAll xs ys
  | _, _ => False

/-- Each entry has a partner among others: its key is the same, and its value. -/
def SameIn : List (Key × Datum) → List (Key × Datum) → Prop
  | [], _ => True
  | (k, x) :: xs, ys => (∃ e ∈ ys, k.same e.1 = true ∧ Same x e.2) ∧ SameIn xs ys

end

/-- Items are the same pairwise, and equally many. -/
theorem sameAll_iff {xs ys : List Datum} : SameAll xs ys ↔ List.Forall₂ Same xs ys := by
  induction xs generalizing ys with
  | nil => cases ys <;> simp [SameAll]
  | cons x xs ih => cases ys <;> simp [SameAll, ih]

/-- Each entry has a partner. -/
theorem sameIn_iff {xs ys : List (Key × Datum)} :
    SameIn xs ys ↔ ∀ e ∈ xs, ∃ e' ∈ ys, e.1.same e'.1 = true ∧ Same e.2 e'.2 := by
  induction xs with
  | nil => simp [SameIn]
  | cons e xs ih => simp only [SameIn, List.forall_mem_cons, ih]

/-- Mappings, read-only or not, are the same by their entries. -/
theorem same_entries_iff {a b : Datum} {xs ys : List (Key × Datum)} (ha : a.entries? = some xs)
    (hb : b.entries? = some ys) : Same a b ↔ xs.length = ys.length ∧ SameIn xs ys := by
  have hsame : Same a b ↔
      ∃ ys', b.entries? = some ys' ∧ xs.length = ys'.length ∧ SameIn xs ys' := by
    cases a with
    | map _ | frozen _ =>
        cases ha
        rw [Same]
    | _ => cases ha
  rw [hsame, hb]
  simp

/-- What is the same as a mapping is one. -/
theorem entries?_of_same {a b : Datum} {xs : List (Key × Datum)} (ha : a.entries? = some xs)
    (h : Same a b) : ∃ ys, b.entries? = some ys := by
  cases a with
  | map _ | frozen _ =>
      obtain ⟨ys, hys, -⟩ := h
      exact ⟨ys, hys⟩
  | _ => cases ha

/-- The items of comparable data are comparable. -/
theorem Comparable.items {d : Datum} (h : d.Comparable) {items : List Datum}
    (hitems : d.items? = some items) : ∀ x ∈ items, x.Comparable := by
  cases h with
  | tuple h | list h =>
      cases hitems
      exact h
  | _ => cases hitems

/-- The keys of a comparable mapping differ. -/
theorem Comparable.different {d : Datum} (h : d.Comparable) {entries : List (Key × Datum)}
    (hentries : d.entries? = some entries) : Entries.Different entries := by
  cases h with
  | map hkeys _ | frozen hkeys _ =>
      cases hentries
      exact hkeys
  | _ => cases hentries

/-- The values of a comparable mapping are comparable. -/
theorem Comparable.values {d : Datum} (h : d.Comparable) {entries : List (Key × Datum)}
    (hentries : d.entries? = some entries) : ∀ e ∈ entries, e.2.Comparable := by
  cases h with
  | map _ hvalues | frozen _ hvalues =>
      cases hentries
      exact hvalues
  | _ => cases hentries

/-! ### An equivalence -/

/-- Entries have partners among themselves if their values are the same as themselves. -/
theorem sameIn_refl {entries : List (Key × Datum)} (h : ∀ e ∈ entries, Same e.2 e.2) :
    SameIn entries entries :=
  sameIn_iff.mpr fun e he => ⟨e, he, Key.same_refl e.1, h e he⟩

/-- Items are the same as themselves if each of them is. -/
theorem sameAll_refl {items : List Datum} (h : ∀ d ∈ items, Same d d) : SameAll items items :=
  sameAll_iff.mpr (List.forall₂_same.mpr h)

/-- **The same is reflexive.** -/
theorem same_refl {d : Datum} (h : d.Comparable) : Same d d := by
  induction h with
  | scalar s => exact Scalar.same_iff.mpr rfl
  | flag _ => rfl
  | reference _ => rfl
  | tuple _ ih | list _ ih => exact sameAll_refl ih
  | map _ _ ih | frozen _ _ ih => exact ⟨_, rfl, rfl, sameIn_refl ih⟩

/-- Mappings whose values are the same both ways are. -/
theorem same_entries_symm {a b : Datum} {xs : List (Key × Datum)} (ha : a.Comparable)
    (hxs : a.entries? = some xs) (hvalues : ∀ e ∈ xs, ∀ {y : Datum}, Same e.2 y → Same y e.2)
    (h : Same a b) : Same b a := by
  obtain ⟨ys, hys⟩ := entries?_of_same hxs h
  obtain ⟨hlength, hin⟩ := (same_entries_iff hxs hys).mp h
  rw [sameIn_iff] at hin
  rw [same_entries_iff hys hxs, sameIn_iff]
  refine ⟨hlength.symm, fun e' he' => ?_⟩
  obtain ⟨e, he, hkey, hvalue⟩ := Entries.partner_symm (ha.different hxs) hlength hin e' he'
  exact ⟨e, he, Key.same_symm hkey, hvalues e he hvalue⟩

/-- Items that are the same both ways are so together. -/
theorem sameAll_symm {xs ys : List Datum} (hitems : ∀ x ∈ xs, ∀ {y : Datum}, Same x y → Same y x)
    (h : SameAll xs ys) : SameAll ys xs := by
  rw [sameAll_iff] at h ⊢
  have hboth := (List.forall₂_and_left xs ys).mpr ⟨fun x hx => @hitems x hx, h⟩
  exact (hboth.imp fun x y hxy => hxy.1 hxy.2).flip

/-- **The same is symmetric.** -/
theorem same_symm {a b : Datum} (ha : a.Comparable) (h : Same a b) : Same b a := by
  induction ha generalizing b with
  | scalar s =>
      cases b with
      | scalar t => exact Scalar.same_iff.mpr (Scalar.same_iff.mp h).symm
      | _ => cases h
  | flag _ =>
      cases b with
      | flag _ => exact Eq.symm h
      | _ => cases h
  | reference _ =>
      cases b with
      | reference _ => exact Eq.symm h
      | _ => cases h
  | tuple _ ih =>
      cases b with
      | tuple _ => exact sameAll_symm ih h
      | _ => cases h
  | list _ ih =>
      cases b with
      | list _ => exact sameAll_symm ih h
      | _ => cases h
  | map hkeys hvalues ih => exact same_entries_symm (.map hkeys hvalues) rfl ih h
  | frozen hkeys hvalues ih => exact same_entries_symm (.frozen hkeys hvalues) rfl ih h

/-- Items through which sameness passes pass it on together. -/
theorem sameAll_trans {xs ys zs : List Datum}
    (hitems : ∀ x ∈ xs, ∀ {y z : Datum}, Same x y → Same y z → Same x z)
    (h : SameAll xs ys) (h' : SameAll ys zs) : SameAll xs zs := by
  induction xs generalizing ys zs with
  | nil =>
      cases ys with
      | nil => exact h'
      | cons _ _ => cases h
  | cons x xs ih =>
      cases ys with
      | nil => cases h
      | cons y ys =>
          cases zs with
          | nil => cases h'
          | cons z zs =>
              exact ⟨hitems x List.mem_cons_self h.1 h'.1,
                ih (fun x hx => @hitems x (List.mem_cons_of_mem _ hx)) h.2 h'.2⟩

/-- Mappings through whose values sameness passes pass it on. -/
theorem same_entries_trans {a b c : Datum} {xs : List (Key × Datum)}
    (hxs : a.entries? = some xs)
    (hvalues : ∀ e ∈ xs, ∀ {y z : Datum}, Same e.2 y → Same y z → Same e.2 z)
    (h : Same a b) (h' : Same b c) : Same a c := by
  obtain ⟨ys, hys⟩ := entries?_of_same hxs h
  obtain ⟨zs, hzs⟩ := entries?_of_same hys h'
  obtain ⟨hlength, hin⟩ := (same_entries_iff hxs hys).mp h
  obtain ⟨hlength', hin'⟩ := (same_entries_iff hys hzs).mp h'
  rw [sameIn_iff] at hin hin'
  rw [same_entries_iff hxs hzs, sameIn_iff]
  refine ⟨hlength.trans hlength', fun e he => ?_⟩
  obtain ⟨e', he', hkey, hvalue⟩ := hin e he
  obtain ⟨e'', he'', hkey', hvalue'⟩ := hin' e' he'
  exact ⟨e'', he'', Key.same_trans hkey hkey', hvalues e he hvalue hvalue'⟩

/-- **The same is transitive.** -/
theorem same_trans {a b c : Datum} (ha : a.Comparable) (h : Same a b) (h' : Same b c) :
    Same a c := by
  induction ha generalizing b c with
  | scalar s =>
      cases b with
      | scalar t =>
          cases c with
          | scalar u =>
              exact Scalar.same_iff.mpr ((Scalar.same_iff.mp h).trans (Scalar.same_iff.mp h'))
          | _ => cases h'
      | _ => cases h
  | flag _ =>
      cases b with
      | flag _ =>
          obtain rfl : _ = _ := h
          exact h'
      | _ => cases h
  | reference _ =>
      cases b with
      | reference _ =>
          obtain rfl : _ = _ := h
          exact h'
      | _ => cases h
  | tuple _ ih =>
      cases b with
      | tuple _ =>
          cases c with
          | tuple _ => exact sameAll_trans ih h h'
          | _ => cases h'
      | _ => cases h
  | list _ ih =>
      cases b with
      | list _ =>
          cases c with
          | list _ => exact sameAll_trans ih h h'
          | _ => cases h'
      | _ => cases h
  | map _ _ ih | frozen _ _ ih => exact same_entries_trans rfl ih h h'

end Datum

/-! ## Deciding it -/

/-- A not-a-number: it equals nothing, not even itself. -/
def Scalar.IsNaN : Scalar → Prop
  | .float (.nan _) => True
  | _ => False

@[inherit_doc Scalar.IsNaN]
def Datum.IsNaN : Datum → Prop
  | .scalar s => s.IsNaN
  | _ => False

/-- Equality is sameness, except that a not-a-number equals nothing. -/
theorem Scalar.equal_iff {s t : Scalar} : s.equal t = true ↔ ¬ s.IsNaN ∧ s.same t = true := by
  cases s with
  | float x =>
      cases t with
      | float y => cases x <;> cases y <;> simp [equal, same, IsNaN, Binary64.equal, Binary64.same]
      | _ => cases x <;> simp [equal, same, IsNaN, Binary64.equalInt]
  | _ => simp [same, IsNaN]

variable {ω : Type} {impl : Implementation ω}

/-- Comparable data have no object that would decide. -/
theorem ownEquality?_comparable {d : Datum} (h : d.Comparable) (store : Store ω) :
    impl.ownEquality? store d = none := by
  cases h <;> rfl

/-- Data are compared without asking the implementation. -/
theorem runFrom_equal_comparable {a b : Datum} (ha : a.Comparable) (hb : b.Comparable)
    (store : Store ω) :
    runFrom (impl.equal a b) store = runFrom (impl.equalPlain a b) store := by
  have hstore : runFrom (Code.store : Code ω (Store ω)) store = (.ok store, store) := rfl
  rw [Implementation.equal, runFrom_bind_of_ok hstore, ownEquality?_comparable ha,
    ownEquality?_comparable hb]

/-- Comparing items decides whether they are the same, if comparing each pair does. -/
theorem equalItems_same {xs ys : List Datum}
    (h : ∀ x ∈ xs, ∀ y ∈ ys, Decides (impl.equalMember x y) (x.Same y)) :
    Decides (impl.equalItems xs ys) (Datum.SameAll xs ys) := by
  induction xs generalizing ys with
  | nil =>
      rw [Implementation.equalItems.eq_def]
      cases ys <;> exact Decides.pure (by simp [Datum.SameAll])
  | cons x xs ih =>
      cases ys with
      | nil =>
          rw [Implementation.equalItems.eq_def]
          exact Decides.pure (by simp [Datum.SameAll])
      | cons y ys =>
          rw [Implementation.equalItems]
          refine (h x List.mem_cons_self y List.mem_cons_self).and (ih ?_)
          exact fun x hx y hy => h x (List.mem_cons_of_mem _ hx) y (List.mem_cons_of_mem _ hy)

/-- Each entry is compared with the one of its key among others with different keys. -/
theorem equalEntries_same {xs ys : List (Key × Datum)} (hys : Entries.Different ys)
    (h : ∀ e ∈ xs, ∀ e' ∈ ys, Decides (impl.equalMember e'.2 e.2) (e.2.Same e'.2)) :
    Decides (impl.equalEntries xs ys) (Datum.SameIn xs ys) := by
  induction xs with
  | nil =>
      rw [Implementation.equalEntries]
      exact Decides.pure (by simp [Datum.SameIn])
  | cons e xs ih =>
      obtain ⟨k, x⟩ := e
      obtain ⟨hfirst, hrest⟩ := List.forall_mem_cons.mp h
      rw [Implementation.equalEntries_cons]
      by_cases hex : ∃ e ∈ ys, k.same e.1 = true
      · obtain ⟨e, he, hkey⟩ := hex
        -- No other entry has this key, so what is found is the only possible partner.
        rw [hys.find?_eq he hkey]
        refine ((hfirst e he).and (ih hrest)).congr (and_congr_left fun _ => ?_)
        constructor
        · exact fun hvalue => ⟨e, he, hkey, hvalue⟩
        · rintro ⟨e', he', hkey', hvalue⟩
          have hsame := Key.same_trans (Key.same_symm hkey) hkey'
          rwa [hys.eq_of_same he he' hsame]
      · have hnone : ∀ e ∈ ys, k.same e.1 = false := by simpa using hex
        rw [Entries.find?_eq_none_iff.mpr hnone]
        refine Decides.pure ⟨(nomatch ·), fun hin => ?_⟩
        obtain ⟨⟨e, he, hkey, -⟩, -⟩ := hin
        exact absurd ⟨e, he, hkey⟩ hex

theorem sizeOf_entry {d : Datum} {entries : List (Key × Datum)} (hd : d.entries? = some entries)
    {e : Key × Datum} (he : e ∈ entries) : sizeOf e.2 < sizeOf d := by
  have hmem := List.sizeOf_lt_of_mem he
  obtain ⟨k, x⟩ := e
  rw [Prod.mk.sizeOf_spec] at hmem
  cases d with
  | map _ | frozen _ =>
      cases hd
      simp
      omega
  | _ => cases hd

/-- The entries of mappings are compared from one side. -/
theorem equalEntries_same_of_parts {a b : Datum} {xs ys : List (Key × Datum)} (ha : a.Comparable)
    (hb : b.Comparable) (hxs : a.entries? = some xs) (hys : b.entries? = some ys)
    (hparts : ∀ {x y : Datum}, x.Comparable → y.Comparable →
      sizeOf x + sizeOf y < sizeOf a + sizeOf b → Decides (impl.equalMember x y) (x.Same y)) :
    Decides (impl.equalEntries xs ys) (Datum.SameIn xs ys) := by
  refine equalEntries_same (hb.different hys) fun e he e' he' => ?_
  have hvalue := ha.values hxs e he
  have hvalue' := hb.values hys e' he'
  have hsize := sizeOf_entry hxs he
  have hsize' := sizeOf_entry hys he'
  exact (hparts hvalue' hvalue (by omega)).congr
    ⟨Datum.same_symm hvalue', Datum.same_symm hvalue⟩

/-- The same entries are found from the other side. -/
theorem equalEntries_same_of_parts' {a b : Datum} {xs ys : List (Key × Datum)} (ha : a.Comparable)
    (hb : b.Comparable) (hxs : a.entries? = some xs) (hys : b.entries? = some ys)
    (hlength : xs.length = ys.length)
    (hparts : ∀ {x y : Datum}, x.Comparable → y.Comparable →
      sizeOf x + sizeOf y < sizeOf a + sizeOf b → Decides (impl.equalMember x y) (x.Same y)) :
    Decides (impl.equalEntries ys xs) (Datum.SameIn xs ys) := by
  have hother := equalEntries_same_of_parts hb ha hys hxs fun hx hy hsize =>
    hparts hx hy (by omega)
  refine hother.congr ?_
  have hback : Datum.Same b a ↔ Datum.Same a b := ⟨Datum.same_symm hb, Datum.same_symm ha⟩
  rw [Datum.same_entries_iff hys hxs, Datum.same_entries_iff hxs hys] at hback
  simpa [hlength] using hback

/-- **Equality of data** that decide nothing themselves, from that of their parts. -/
theorem equalPlain_decides {a b : Datum} (ha : a.Comparable) (hb : b.Comparable)
    (hparts : ∀ {x y : Datum}, x.Comparable → y.Comparable →
      sizeOf x + sizeOf y < sizeOf a + sizeOf b → Decides (impl.equalMember x y) (x.Same y)) :
    Decides (impl.equalPlain a b) (¬ a.IsNaN ∧ a.Same b) := by
  -- Items are parts of tuples and lists alike.
  have hitems : ∀ {xs ys : List Datum}, a.items? = some xs → b.items? = some ys →
      Decides (impl.equalItems xs ys) (Datum.SameAll xs ys) := by
    intro xs ys hxs hys
    refine equalItems_same fun x hx y hy => hparts (ha.items hxs x hx) (hb.items hys y hy) ?_
    have hsize := Datum.sizeOf_item hxs hx
    have hsize' := Datum.sizeOf_item hys hy
    omega
  rw [Implementation.equalPlain.eq_def]
  cases ha with
  | scalar s =>
      cases hb with
      | scalar t => exact Decides.pure Scalar.equal_iff
      | _ => exact Decides.pure (by simp [Datum.Same])
  | flag x =>
      cases hb with
      | flag y => exact Decides.pure (by simp [Datum.Same, Datum.IsNaN])
      | _ => exact Decides.pure (by simp [Datum.Same])
  | reference p =>
      cases hb with
      | reference q => exact Decides.pure (by simp [Datum.Same, Datum.IsNaN])
      | _ => exact Decides.pure (by simp [Datum.Same])
  | tuple _ =>
      cases hb with
      | tuple _ => exact (hitems rfl rfl).congr (by simp [Datum.Same, Datum.IsNaN])
      | _ => exact Decides.pure (by simp [Datum.Same])
  | @list xs _ =>
      cases hb with
      | @list ys _ =>
          have hlength : Datum.SameAll xs ys → xs.length = ys.length := fun h =>
            (Datum.sameAll_iff.mp h).length_eq
          refine (Decides.guard fun _ => hitems rfl rfl).congr ?_
          simpa [Datum.Same, Datum.IsNaN] using hlength
      | _ => exact Decides.pure (by simp [Datum.Same])
  | map hkeys hvalues =>
      cases hb with
      | map hkeys' hvalues' =>
          refine (Decides.guard fun _ => equalEntries_same_of_parts (.map hkeys hvalues)
            (.map hkeys' hvalues') rfl rfl hparts).congr ?_
          simp [Datum.Same, Datum.IsNaN, Datum.entries?]
      | frozen hkeys' hvalues' =>
          refine (Decides.guard fun hlength => equalEntries_same_of_parts' (.map hkeys hvalues)
            (.frozen hkeys' hvalues') rfl rfl hlength hparts).congr ?_
          simp [Datum.Same, Datum.IsNaN, Datum.entries?]
      | _ => exact Decides.pure (by simp [Datum.Same, Datum.entries?])
  | frozen hkeys hvalues =>
      cases hb with
      | map hkeys' hvalues' =>
          refine (Decides.guard fun _ => equalEntries_same_of_parts (.frozen hkeys hvalues)
            (.map hkeys' hvalues') rfl rfl hparts).congr ?_
          simp [Datum.Same, Datum.IsNaN, Datum.entries?]
      | frozen hkeys' hvalues' =>
          refine (Decides.guard fun hlength => equalEntries_same_of_parts' (.frozen hkeys hvalues)
            (.frozen hkeys' hvalues') rfl rfl hlength hparts).congr ?_
          simp [Datum.Same, Datum.IsNaN, Datum.entries?]
      | _ => exact Decides.pure (by simp [Datum.Same, Datum.entries?])

/-- Among data only a not-a-number is identical to anything, namely to itself. -/
theorem identical_comparable_iff {a b : Datum} (ha : a.Comparable) (hb : b.Comparable) :
    Implementation.identical a b = true ↔ a.IsNaN ∧ a.Same b := by
  cases ha with
  | scalar s =>
      cases hb with
      | scalar t =>
          unfold Implementation.identical
          cases s with
          | float x =>
              cases t with
              | float y =>
                  cases x <;> cases y <;>
                    simp [Datum.IsNaN, Scalar.IsNaN, Datum.Same, Scalar.same, Binary64.same,
                      Binary64.equal]
              | _ =>
                  cases x <;>
                    simp [Datum.IsNaN, Scalar.IsNaN, Datum.Same, Scalar.same, Scalar.equal,
                      Binary64.equalInt]
          | _ => simp [Datum.IsNaN, Scalar.IsNaN]
      | _ => simp [Implementation.identical, Datum.Same]
  | _ => simp [Implementation.identical, Datum.IsNaN]

mutual

/-- **Equality of data** decides whether they are the same, except that a not-a-number equals
nothing. -/
theorem equal_comparable_decides {a b : Datum} (ha : a.Comparable) (hb : b.Comparable) :
    Decides (impl.equal a b) (¬ a.IsNaN ∧ a.Same b) := by
  intro store
  rw [runFrom_equal_comparable ha hb]
  exact equalPlain_decides ha hb (fun hx hy hsize => equalMember_decides hx hy) store
termination_by (sizeOf a + sizeOf b, 0)

/-- **Equality as members** decides whether data are the same. -/
theorem equalMember_decides {a b : Datum} (ha : a.Comparable) (hb : b.Comparable) :
    Decides (impl.equalMember a b) (a.Same b) := by
  rw [Implementation.equalMember]
  by_cases hidentical : Implementation.identical a b = true
  · rw [if_pos hidentical]
    exact Decides.pure (iff_of_true rfl ((identical_comparable_iff ha hb).mp hidentical).2)
  · rw [if_neg hidentical]
    refine (equal_comparable_decides ha hb).congr (and_iff_right_of_imp fun hsame hnan => ?_)
    exact hidentical ((identical_comparable_iff ha hb).mpr ⟨hnan, hsame⟩)
termination_by (sizeOf a + sizeOf b, 1)

end

end Conformance
