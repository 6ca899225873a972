import Conformance.Proofs.NamedUnion
import Conformance.Specification.Merge

/-!
# Merging specifications

Merging goes through the parts one after another and adds each to the specification of its
package, so parts of different packages may come in any order.  Two facts take the order out of
it.  The packages are those of the parts in order of first appearance (`packages_merge`), and the
specifications of one package are what its own parts are merged into (`filter_merge`).  So what
is merged are the parts of each package, put together one after another (`mem_merge`), and a fault
of one of them stays (`merge_merged`).
-/

namespace Conformance

variable {ω : Type}

namespace Specification

/-! ## Packages apart -/

/-- Adding a part adds its package, if it is new. -/
theorem package_insert (specs : List (Specification ω)) (part : Specification ω) :
    (insert specs part).map (·.package) =
      if part.package ∈ specs.map (·.package) then specs.map (·.package)
      else specs.map (·.package) ++ [part.package] := by
  induction specs with
  | nil => rfl
  | cons s rest ih =>
      unfold insert
      by_cases hs : s.package = part.package
      · simp [hs, append]
      · have hne : part.package ≠ s.package := fun h => hs h.symm
        rw [if_neg hs, List.map_cons, ih]
        by_cases hmem : part.package ∈ rest.map (·.package)
        · simp [hmem, hne]
        · simp [hmem, hne]

/-- Merging one more part adds it to what the others are merged into. -/
theorem merge_concat (parts : List (Specification ω)) (part : Specification ω) :
    merge (parts ++ [part]) = insert (merge parts) part :=
  List.foldl_append

/-- **The packages** of merged parts, in order of first appearance. -/
theorem packages_merge (parts : List (Specification ω)) :
    (merge parts).map (·.package) = (parts.map (·.package)).eraseDups := by
  induction parts using List.reverseRecOn with
  | nil => rfl
  | append_singleton parts part ih =>
      rw [merge_concat, package_insert, ih, List.map_append, List.map_singleton, eraseDups_concat]
      simp only [List.mem_eraseDups]

/-- Adding a part changes its own package only. -/
theorem filter_insert (specs : List (Specification ω)) (part : Specification ω) (package : String) :
    (insert specs part).filter (·.package = package) =
      if part.package = package then insert (specs.filter (·.package = package)) part
      else specs.filter (·.package = package) := by
  induction specs with
  | nil =>
      by_cases hpart : part.package = package
      · simp [insert, hpart]
      · simp [insert, hpart]
  | cons s rest ih =>
      rw [insert]
      by_cases hsame : s.package = part.package
      · by_cases hpart : part.package = package
        · have happended : (s.append part).package = package := hsame.trans hpart
          simp [insert, hsame, hpart, happended]
        · have happended : (s.append part).package ≠ package := fun heq => hpart (hsame ▸ heq)
          simp [hsame, hpart, happended]
      · rw [if_neg hsame, List.filter_cons, ih]
        by_cases hpart : part.package = package
        · have hs : s.package ≠ package := fun heq => hsame (heq.trans hpart.symm)
          simp [hs, hpart]
        · by_cases hs : s.package = package
          · simp [hs, hpart]
          · simp [hs, hpart]

/-- **One package**: its parts are merged as if there were no others. -/
theorem filter_merge (parts : List (Specification ω)) (package : String) :
    (merge parts).filter (·.package = package) =
      merge (parts.filter (·.package = package)) := by
  induction parts using List.reverseRecOn with
  | nil => rfl
  | append_singleton parts part ih =>
      rw [merge_concat, filter_insert, ih, List.filter_append]
      by_cases hpart : part.package = package
      · simp [hpart, merge_concat]
      · simp [hpart]

/-- What is put together is of the package of the first part. -/
theorem package_foldl_append (first : Specification ω) (later : List (Specification ω)) :
    (later.foldl append first).package = first.package := by
  induction later generalizing first with
  | nil => rfl
  | cons part later ih => exact ih (first.append part)

/-- Parts of one package are put together one after another. -/
theorem merge_of_package {first : Specification ω} {later : List (Specification ω)}
    (h : ∀ part ∈ later, part.package = first.package) :
    merge (first :: later) = [later.foldl append first] := by
  induction later using List.reverseRecOn with
  | nil => rfl
  | append_singleton later part ih =>
      have hmerged := ih fun other hother => h other (List.mem_append_left _ hother)
      have hpart : part.package = first.package :=
        h part (List.mem_append_right _ List.mem_cons_self)
      rw [List.foldl_concat, ← List.cons_append, merge_concat, hmerged, insert,
        if_pos ((package_foldl_append first later).trans hpart.symm)]

/-- What is merged are the parts of each package, put together. -/
theorem mem_merge {parts : List (Specification ω)} {spec : Specification ω}
    (h : spec ∈ merge parts) :
    ∃ first later, parts.filter (·.package = spec.package) = first :: later ∧
      spec = later.foldl append first := by
  have hmem : spec ∈ (merge parts).filter (·.package = spec.package) :=
    List.mem_filter.mpr ⟨h, by simp⟩
  rw [filter_merge] at hmem
  cases hparts : parts.filter (·.package = spec.package) with
  | nil =>
      rw [hparts] at hmem
      cases hmem
  | cons first later =>
      have hpackage : ∀ part ∈ first :: later, part.package = spec.package := by
        intro part hpart
        rw [← hparts] at hpart
        simpa using (List.mem_filter.mp hpart).2
      obtain ⟨hfirst, hlater⟩ := List.forall_mem_cons.mp hpackage
      rw [hparts, merge_of_package fun part hpart => (hlater part hpart).trans hfirst.symm] at hmem
      exact ⟨first, later, rfl, List.mem_singleton.mp hmem⟩

/-! ## Faults -/

/-- The first fault of the parts of a package. -/
def firstFault? (package : String) (parts : List (Specification ω)) : Option Fault :=
  parts.findSome? fun part => if part.package = package then part.error else none

theorem firstFault?_eq (package : String) (parts : List (Specification ω)) :
    firstFault? package parts =
      (parts.filter (·.package = package)).findSome? (·.error) := by
  unfold firstFault?
  induction parts with
  | nil => rfl
  | cons part parts ih =>
      rw [List.findSome?_cons, ih]
      by_cases hpart : part.package = package
      · simp [hpart, List.findSome?_cons]
      · simp [hpart]

/-- Parts that are put together have the first of their faults. -/
theorem error_foldl_append (first : Specification ω) (later : List (Specification ω)) :
    (later.foldl append first).error = (first :: later).findSome? (·.error) := by
  induction later generalizing first with
  | nil => cases hfault : first.error <;> simp [hfault]
  | cons part later ih =>
      rw [List.foldl_cons, ih]
      cases hfault : first.error <;> simp [append, hfault, List.findSome?_cons]

/-- What specifications are that were merged from parts: one for each package, with the
first fault of its parts. -/
structure Merged (parts specs : List (Specification ω)) : Prop where
  nodup : (specs.map (·.package)).Nodup
  covers : ∀ part ∈ parts, part.package ∈ specs.map (·.package)
  error : ∀ spec ∈ specs, spec.error = firstFault? spec.package parts

/-- **Merging** gives one specification for each package, with the first fault of its
parts, in whatever order they come. -/
theorem merge_merged (parts : List (Specification ω)) : Merged parts (merge parts) where
  nodup := by
    rw [packages_merge]
    exact nodup_eraseDups _
  covers := fun part hpart => by
    rw [packages_merge, List.mem_eraseDups]
    exact List.mem_map_of_mem hpart
  error := fun spec hspec => by
    obtain ⟨first, later, hfilter, heq⟩ := mem_merge hspec
    rw [firstFault?_eq, hfilter, ← error_foldl_append, ← heq]

/-- A fault of a part stays a fault of its package. -/
theorem Merged.isSome_error {parts specs : List (Specification ω)} (h : Merged parts specs)
    {part : Specification ω} (hpart : part ∈ parts) (hfault : part.error.isSome = true) :
    (∃ spec ∈ specs, spec.package = part.package) ∧
      ∀ spec ∈ specs, spec.package = part.package → spec.error.isSome = true := by
  constructor
  · obtain ⟨spec, hspec, hpackage⟩ := List.mem_map.mp (h.covers part hpart)
    exact ⟨spec, hspec, hpackage⟩
  · intro spec hspec hpackage
    rw [h.error spec hspec]
    unfold firstFault?
    rw [List.findSome?_isSome_iff]
    refine ⟨part, hpart, ?_⟩
    rw [if_pos hpackage.symm]
    exact hfault

end Specification

end Conformance
