import Conformance.Proofs.Binding
import Mathlib.Data.List.Induction
import Mathlib.Data.List.Nodup

/-!
# Named values set one after another

Setting a list of named values in another one makes their union, in which the later value of a
name counts (`setAllNamed`).  The names stand in the order in which they first occur
(`names_setAllNamed`), a name has the value that it has last (`named?_setAllNamed`), and if no
name occurs twice in the middle one, it does not matter which two of three unions are made first
(`setAllNamed_assoc`).
-/

namespace Conformance

/-! ## First occurrences -/

section FirstOccurrences

variable {α : Type} [DecidableEq α]

/-- A last element that occurs before adds none. -/
theorem eraseDups_concat (xs : List α) (x : α) :
    (xs ++ [x]).eraseDups = if x ∈ xs then xs.eraseDups else xs.eraseDups ++ [x] := by
  rw [List.eraseDups_append]
  by_cases hmem : x ∈ xs
  · simp [hmem, List.removeAll]
  · simp [hmem, List.removeAll, List.eraseDups_cons]

/-- First occurrences are different. -/
theorem nodup_eraseDups (xs : List α) : xs.eraseDups.Nodup := by
  induction xs using List.reverseRecOn with
  | nil => exact List.nodup_nil
  | append_singleton xs x ih =>
      rw [eraseDups_concat]
      split
      · exact ih
      · next hnot =>
          rw [← List.concat_eq_append]
          exact ih.concat fun hmem => hnot (List.mem_eraseDups.mp hmem)

/-- What is different already is left as it is. -/
theorem eraseDups_of_nodup {xs : List α} (h : xs.Nodup) : xs.eraseDups = xs := by
  induction xs using List.reverseRecOn with
  | nil => rfl
  | append_singleton xs x ih =>
      obtain ⟨hxs, -, hnot⟩ := List.nodup_append.mp h
      have hmem : x ∉ xs := fun hmem => hnot x hmem x List.mem_cons_self rfl
      rw [eraseDups_concat, if_neg hmem, ih hxs]

/-- First occurrences in one list, and then in both together. -/
theorem eraseDups_append_eraseDups (xs ys : List α) :
    (xs.eraseDups ++ ys.eraseDups).eraseDups = (xs ++ ys).eraseDups := by
  induction ys using List.reverseRecOn with
  | nil =>
      rw [List.eraseDups_nil, List.append_nil, List.append_nil,
        eraseDups_of_nodup (nodup_eraseDups xs)]
  | append_singleton ys y ih =>
      rw [eraseDups_concat, ← List.append_assoc, eraseDups_concat]
      by_cases hys : y ∈ ys
      · rw [if_pos hys, if_pos (List.mem_append_right _ hys), ih]
      · rw [if_neg hys, ← List.append_assoc, eraseDups_concat, ih]
        simp only [List.mem_append, List.mem_eraseDups]

end FirstOccurrences

/-! ## Unions -/

section Union

variable {α : Type}

/-- Sets named values one after another. -/
def setAllNamed (entries more : List (String × α)) : List (String × α) :=
  more.foldl (fun acc e => setNamed acc e.1 e.2) entries

theorem setAllNamed_concat (entries more : List (String × α)) (e : String × α) :
    setAllNamed entries (more ++ [e]) = setNamed (setAllNamed entries more) e.1 e.2 :=
  List.foldl_append

theorem setAllNamed_append (entries more after : List (String × α)) :
    setAllNamed entries (more ++ after) = setAllNamed (setAllNamed entries more) after :=
  List.foldl_append

/-- **The names of a union** stand in the order in which they first occur. -/
theorem names_setAllNamed {entries : List (String × α)} (h : (entries.map (·.1)).Nodup)
    (more : List (String × α)) :
    (setAllNamed entries more).map (·.1) = (entries.map (·.1) ++ more.map (·.1)).eraseDups := by
  induction more using List.reverseRecOn with
  | nil => rw [List.map_nil, List.append_nil, eraseDups_of_nodup h, setAllNamed, List.foldl_nil]
  | append_singleton more e ih =>
      rw [setAllNamed_concat, names_setNamed, ih, List.map_append, List.map_singleton,
        ← List.append_assoc, eraseDups_concat]
      simp only [List.mem_eraseDups]

/-- **The value of a name in a union** is the last one that it is set to. -/
theorem named?_setAllNamed (entries more : List (String × α)) (name : String) :
    named? (setAllNamed entries more) name =
      ((more.filter fun e => e.1 = name).getLast?.map (·.2)).or (named? entries name) := by
  induction more using List.reverseRecOn with
  | nil => rfl
  | append_singleton more e ih =>
      rw [setAllNamed_concat, List.filter_append]
      by_cases hname : e.1 = name
      · rw [← hname, named?_setNamed_self]
        simp
      · rw [named?_setNamed_of_ne _ _ hname, ih]
        simp [hname]

/-- What holds of all values of two lists holds of those of their union. -/
theorem forall_setAllNamed {P : α → Prop} {entries more : List (String × α)}
    (hentries : ∀ e ∈ entries, P e.2) (hmore : ∀ e ∈ more, P e.2) :
    ∀ e ∈ setAllNamed entries more, P e.2 := by
  induction more generalizing entries with
  | nil => exact hentries
  | cons e more ih =>
      obtain ⟨he, hrest⟩ := List.forall_mem_cons.mp hmore
      exact ih (forall_setNamed hentries e.1 he) hrest

/-- A new name is added at the end. -/
theorem setNamed_of_not_mem {entries : List (String × α)} {name : String}
    (h : name ∉ entries.map (·.1)) (v : α) : setNamed entries name v = entries ++ [(name, v)] := by
  induction entries with
  | nil => rfl
  | cons e rest ih =>
      rw [List.map_cons, List.mem_cons, not_or] at h
      rw [setNamed, if_neg fun heq => h.1 heq.symm, ih h.2, List.cons_append]

/-- A list in which no name occurs twice is the union of its entries. -/
theorem setAllNamed_nil {entries : List (String × α)} (h : (entries.map (·.1)).Nodup) :
    setAllNamed [] entries = entries := by
  induction entries using List.reverseRecOn with
  | nil => rfl
  | append_singleton entries e ih =>
      rw [List.map_append] at h
      obtain ⟨hentries, -, hnot⟩ := List.nodup_append.mp h
      have hnew : e.1 ∉ entries.map (·.1) :=
        fun hmem => hnot e.1 hmem e.1 (List.mem_singleton.mpr rfl) rfl
      rw [setAllNamed_concat, ih hentries, setNamed_of_not_mem hnew]

/-! ### Three unions -/

theorem mem_names_setNamed_iff {entries : List (String × α)} {name other : String} {v : α} :
    other ∈ (setNamed entries name v).map (·.1) ↔ other ∈ entries.map (·.1) ∨ other = name := by
  rw [names_setNamed]
  split
  · next hmem =>
      constructor
      · exact Or.inl
      · rintro (hold | rfl)
        · exact hold
        · exact hmem
  · rw [List.mem_append, List.mem_singleton]

/-- A name that is set twice has the second value. -/
theorem setNamed_setNamed (entries : List (String × α)) (name : String) (u v : α) :
    setNamed (setNamed entries name u) name v = setNamed entries name v := by
  induction entries with
  | nil => simp [setNamed]
  | cons e rest ih =>
      rw [setNamed]
      by_cases hname : e.1 = name
      · rw [if_pos hname, setNamed, setNamed, if_pos hname, if_pos hname]
      · rw [if_neg hname, setNamed, setNamed, if_neg hname, if_neg hname, ih]

/-- A name that is there can be set before another one. -/
theorem setNamed_comm {entries : List (String × α)} {name other : String}
    (hmem : name ∈ entries.map (·.1)) (hne : other ≠ name) (u v : α) :
    setNamed (setNamed entries other u) name v = setNamed (setNamed entries name v) other u := by
  induction entries with
  | nil => cases hmem
  | cons e rest ih =>
      obtain ⟨n, w⟩ := e
      rw [List.map_cons, List.mem_cons] at hmem
      by_cases hname : n = name
      · simp [setNamed, hname, hne.symm]
      · by_cases hother : n = other
        · simp [setNamed, hother, hne]
        · have hrest := ih (hmem.resolve_left fun heq => hname heq.symm)
          simp [setNamed, hname, hother, hrest]

/-- A name that is there can be set before others. -/
theorem setAllNamed_setNamed {more : List (String × α)} {name : String}
    (hmore : name ∉ more.map (·.1)) (v : α) {entries : List (String × α)}
    (hmem : name ∈ entries.map (·.1)) :
    setAllNamed (setNamed entries name v) more = setNamed (setAllNamed entries more) name v := by
  induction more generalizing entries with
  | nil => rfl
  | cons e more ih =>
      rw [List.map_cons, List.mem_cons, not_or] at hmore
      have hset : name ∈ (setNamed entries e.1 e.2).map (·.1) :=
        mem_names_setNamed_iff.mpr (.inl hmem)
      change setAllNamed (setNamed (setNamed entries name v) e.1 e.2) more =
        setNamed (setAllNamed (setNamed entries e.1 e.2) more) name v
      rw [← ih hmore.2 hset, setNamed_comm hmem fun heq => hmore.1 heq.symm]

/-- Setting a name in the later of two lists sets it in their union. -/
theorem setAllNamed_of_setNamed {more : List (String × α)} (h : (more.map (·.1)).Nodup)
    (entries : List (String × α)) (name : String) (v : α) :
    setAllNamed entries (setNamed more name v) = setNamed (setAllNamed entries more) name v := by
  induction more generalizing entries with
  | nil => rfl
  | cons e more ih =>
      rw [List.map_cons, List.nodup_cons] at h
      rw [setNamed]
      by_cases hname : e.1 = name
      · subst hname
        have hset : e.1 ∈ (setNamed entries e.1 e.2).map (·.1) :=
          mem_names_setNamed_iff.mpr (.inr rfl)
        change setAllNamed entries (if e.1 = e.1 then (e.1, v) :: more else _) =
          setNamed (setAllNamed (setNamed entries e.1 e.2) more) e.1 v
        rw [if_pos rfl, ← setAllNamed_setNamed h.1 v hset, setNamed_setNamed]
        rfl
      · rw [if_neg hname]
        exact ih h.2 (setNamed entries e.1 e.2)

/-- **Three unions.**  If no name occurs twice in the middle list, it can be united with the
first or with the last one before. -/
theorem setAllNamed_assoc {more : List (String × α)} (h : (more.map (·.1)).Nodup)
    (entries after : List (String × α)) :
    setAllNamed (setAllNamed entries more) after =
      setAllNamed entries (setAllNamed more after) := by
  induction after using List.reverseRecOn with
  | nil => rfl
  | append_singleton after e ih =>
      have hnodup : ((setAllNamed more after).map (·.1)).Nodup := by
        rw [names_setAllNamed h]
        exact nodup_eraseDups _
      rw [setAllNamed_concat, setAllNamed_concat, setAllNamed_of_setNamed hnodup, ih]

end Union

end Conformance
