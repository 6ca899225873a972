import Conformance.Proofs.Continuation
import Conformance.Proofs.HookLookup
import Conformance.Proofs.Merging

/-!
# What merging keeps

What is merged are the parts of each package, put together (`mem_merge`).  `Joined` says what that
gives, field by field: nothing of a part is lost but its declaration, which the first part has
made already, and functions of a hook that a later part defines again.

Parts can also be merged in batches, because putting together is associative
(`append_assoc`): what is put together starts with one declaration again, and has hooks of
different names.  Specifications are values, so merging leaves its parts as they are.
-/

namespace Conformance

variable {ω : Type}

namespace Specification

/-! ## Parts of one package -/

/-- What a specification has that was read: the declaration of its package before all other
features, and hooks of different names. -/
structure IsPart (part : Specification ω) : Prop where
  declaration : ∃ declaration rest, part.features = declaration :: rest ∧
    declaration.assign? = some FeatureKey.packageKey
  hooks : (part.hooks.map (·.1)).Nodup

/-- A later part adds its features without the declaration. -/
theorem IsPart.features_append {s part : Specification ω} (h : IsPart part) :
    (s.append part).features = s.features ++ part.features.tail := by
  obtain ⟨declaration, rest, hfeatures, hdeclares⟩ := h.declaration
  rw [Specification.features_append hfeatures hdeclares, hfeatures, List.tail_cons]

theorem hooks_append (s part : Specification ω) :
    (s.append part).hooks = setAllNamed s.hooks part.hooks := rfl

/-- What is put together is a part again. -/
theorem IsPart.append {s part : Specification ω} (hs : IsPart s) (hpart : IsPart part) :
    IsPart (s.append part) where
  declaration := by
    obtain ⟨declaration, rest, hfeatures, hdeclares⟩ := hs.declaration
    refine ⟨declaration, rest ++ part.features.tail, ?_, hdeclares⟩
    rw [hpart.features_append, hfeatures, List.cons_append]
  hooks := by
    rw [hooks_append, names_setAllNamed hs.hooks]
    exact nodup_eraseDups _

theorem isPart_foldl_append {first : Specification ω} (hfirst : IsPart first)
    {later : List (Specification ω)} (hlater : ∀ part ∈ later, IsPart part) :
    IsPart (later.foldl append first) := by
  induction later generalizing first with
  | nil => exact hfirst
  | cons part later ih =>
      obtain ⟨hpart, hrest⟩ := List.forall_mem_cons.mp hlater
      exact ih (hfirst.append hpart) hrest

/-- **Putting parts together is associative.** -/
theorem append_assoc (a : Specification ω) {b c : Specification ω} (hb : IsPart b) (hc : IsPart c) :
    (a.append b).append c = a.append (b.append c) := by
  have hfeatures : ((a.append b).append c).features = (a.append (b.append c)).features := by
    -- The declaration of `b` comes first before and after `c` is added to it, and is left out once.
    obtain ⟨declaration, rest, hdeclaration, -⟩ := hb.declaration
    rw [hc.features_append, hb.features_append, (hb.append hc).features_append,
      hc.features_append, hdeclaration, List.append_assoc]
    rfl
  have hhooks : ((a.append b).append c).hooks = (a.append (b.append c)).hooks :=
    setAllNamed_assoc hb.hooks a.hooks c.hooks
  have hsources : ((a.append b).append c).sources = (a.append (b.append c)).sources :=
    List.append_assoc ..
  have herror : ((a.append b).append c).error = (a.append (b.append c)).error :=
    Option.or_assoc
  change Specification.mk a.package ((a.append b).append c).features ((a.append b).append c).hooks
    ((a.append b).append c).sources ((a.append b).append c).error = a.append (b.append c)
  rw [hfeatures, hhooks, hsources, herror]
  rfl

/-- Parts can be put together before they are added. -/
theorem foldl_append_assoc (s : Specification ω) {first : Specification ω} (hfirst : IsPart first)
    {later : List (Specification ω)} (hlater : ∀ part ∈ later, IsPart part) :
    later.foldl append (s.append first) = s.append (later.foldl append first) := by
  induction later using List.reverseRecOn with
  | nil => rfl
  | append_singleton later part ih =>
      have hbefore : ∀ other ∈ later, IsPart other :=
        fun other hother => hlater other (List.mem_append_left _ hother)
      have hpart : IsPart part := hlater part (List.mem_append_right _ List.mem_cons_self)
      rw [List.foldl_concat, List.foldl_concat, ih hbefore,
        append_assoc s (isPart_foldl_append hfirst hbefore) hpart]

/-- **What parts of one package are put together to**: the features of the first part and those
of the others without their declarations, in order; the hooks of all, with names in order of
first appearance, each with its last function; all sources in order; and the first fault. -/
structure Joined (first : Specification ω) (later : List (Specification ω))
    (spec : Specification ω) : Prop where
  package : spec.package = first.package
  features : spec.features = first.features ++ later.flatMap (·.features.tail)
  hookNames : spec.hooks.map (·.1) =
    ((first :: later).flatMap fun part => part.hooks.map (·.1)).eraseDups
  hooks : ∀ name, named? spec.hooks name =
    (((first :: later).flatMap (·.hooks)).filter (·.1 = name)).getLast?.map (·.2)
  sources : spec.sources = (first :: later).flatMap (·.sources)
  error : spec.error = (first :: later).findSome? (·.error)

section Fields

variable (first : Specification ω) {later : List (Specification ω)}

theorem features_foldl_append (hlater : ∀ part ∈ later, IsPart part) :
    (later.foldl append first).features = first.features ++ later.flatMap (·.features.tail) := by
  induction later generalizing first with
  | nil => exact (List.append_nil _).symm
  | cons part later ih =>
      obtain ⟨hpart, hrest⟩ := List.forall_mem_cons.mp hlater
      rw [List.foldl_cons, ih _ hrest, hpart.features_append, List.flatMap_cons, List.append_assoc]

variable (later)

/-- The hooks of parts that are put together are set one after another. -/
theorem hooks_foldl_append :
    (later.foldl append first).hooks = setAllNamed first.hooks (later.flatMap (·.hooks)) := by
  induction later generalizing first with
  | nil => rfl
  | cons part later ih =>
      rw [List.foldl_cons, ih, List.flatMap_cons, setAllNamed_append, hooks_append]

theorem sources_foldl_append :
    (later.foldl append first).sources = first.sources ++ later.flatMap (·.sources) := by
  induction later generalizing first with
  | nil => exact (List.append_nil _).symm
  | cons part later ih =>
      rw [List.foldl_cons, ih, List.flatMap_cons, ← List.append_assoc]
      rfl

end Fields

theorem joined_foldl_append {first : Specification ω} (hfirst : IsPart first)
    {later : List (Specification ω)} (hlater : ∀ part ∈ later, IsPart part) :
    Joined first later (later.foldl append first) := by
  have hunion : (later.foldl append first).hooks =
      setAllNamed [] ((first :: later).flatMap (·.hooks)) := by
    rw [hooks_foldl_append, List.flatMap_cons, setAllNamed_append, setAllNamed_nil hfirst.hooks]
  have hnone : (([] : List (String × ω)).map (·.1)).Nodup := List.nodup_nil
  refine ⟨package_foldl_append first later, features_foldl_append first hlater, ?_, fun name => ?_,
    sources_foldl_append first later, error_foldl_append first later⟩
  · rw [hunion, names_setAllNamed hnone, List.map_flatMap]
    rfl
  · rw [hunion, named?_setAllNamed, named?_nil, Option.or_none]

/-! ## Batches -/

/-- Specifications are the same if those of each package are, and the packages are. -/
theorem eq_of_filter_eq {xs ys : List (Specification ω)}
    (hpackages : xs.map (·.package) = ys.map (·.package))
    (h : ∀ package, xs.filter (·.package = package) = ys.filter (·.package = package)) :
    xs = ys := by
  induction xs generalizing ys with
  | nil => exact (List.map_eq_nil_iff.mp hpackages.symm).symm
  | cons x xs ih =>
      cases ys with
      | nil => cases hpackages
      | cons y ys =>
          obtain ⟨hsame, hrest⟩ := List.cons.inj hpackages
          -- The first specification is the first of its own package on both sides.
          have hfirst := h x.package
          rw [List.filter_cons_of_pos (by simp),
            List.filter_cons_of_pos (by simp [hsame])] at hfirst
          obtain ⟨rfl, -⟩ := List.cons.inj hfirst
          refine congrArg (x :: ·) (ih hrest fun package => ?_)
          have hpackage := h package
          by_cases hx : x.package = package
          · rw [List.filter_cons_of_pos (by simpa using hx),
              List.filter_cons_of_pos (by simpa using hx)] at hpackage
            exact (List.cons.inj hpackage).2
          · rw [List.filter_cons_of_neg (by simpa using hx),
              List.filter_cons_of_neg (by simpa using hx)] at hpackage
            exact hpackage

/-- Parts of one package can be merged in batches. -/
theorem merge_batches_of_package {package : String} {xs ys : List (Specification ω)}
    (hpackage : ∀ part ∈ xs ++ ys, part.package = package)
    (hparts : ∀ part ∈ xs ++ ys, IsPart part) :
    merge (merge xs ++ merge ys) = merge (xs ++ ys) := by
  have hsame : ∀ {part : Specification ω} {parts : List (Specification ω)},
      (∀ other ∈ part :: parts, other ∈ xs ++ ys) →
      ∀ other ∈ parts, other.package = part.package := by
    intro part parts hsub other hother
    rw [hpackage other (hsub other (List.mem_cons_of_mem _ hother)),
      hpackage part (hsub part List.mem_cons_self)]
  cases xs with
  | nil =>
      cases ys with
      | nil => rfl
      | cons y ys =>
          rw [List.nil_append, merge_of_package (hsame fun _ hother => hother)]
          rfl
  | cons x xs =>
      have hx := hsame fun _ hother => List.mem_append_left ys hother
      cases ys with
      | nil =>
          rw [List.append_nil, merge_of_package hx]
          rfl
      | cons y ys =>
          have hy := hsame fun _ hother => List.mem_append_right (x :: xs) hother
          obtain ⟨-, hbehind⟩ := List.forall_mem_append.mp hparts
          obtain ⟨hfirst, hlater⟩ := List.forall_mem_cons.mp hbehind
          have hall : ∀ part ∈ xs ++ y :: ys, part.package = x.package :=
            hsame fun _ hother => hother
          have hpair : (xs.foldl append x).package = (ys.foldl append y).package := by
            rw [package_foldl_append, package_foldl_append]
            exact (hall y (List.mem_append_right _ List.mem_cons_self)).symm
          rw [merge_of_package hx, merge_of_package hy, List.singleton_append, merge_pair hpair,
            List.cons_append, merge_of_package hall, List.foldl_append, List.foldl_cons,
            foldl_append_assoc _ hfirst hlater]

/-- **Parts can be merged in batches.** -/
theorem merge_batches {xs ys : List (Specification ω)} (h : ∀ part ∈ xs ++ ys, IsPart part) :
    merge (merge xs ++ merge ys) = merge (xs ++ ys) := by
  apply eq_of_filter_eq
  · rw [packages_merge, packages_merge, List.map_append, List.map_append, packages_merge,
      packages_merge, eraseDups_append_eraseDups]
  · intro package
    have hmem : ∀ part ∈ xs.filter (·.package = package) ++ ys.filter (·.package = package),
        part ∈ xs ++ ys ∧ part.package = package := by
      intro part hpart
      rw [← List.filter_append, List.mem_filter] at hpart
      exact ⟨hpart.1, by simpa using hpart.2⟩
    rw [filter_merge, filter_merge, List.filter_append, List.filter_append, filter_merge,
      filter_merge]
    exact merge_batches_of_package (fun part hpart => (hmem part hpart).2)
      fun part hpart => h part (hmem part hpart).1

/-! ## Specifications that were read -/

/-- The specification was read with the loader, from some documents for some target. -/
def ReadWith (loader : HookLoader ω) (spec : Specification ω) : Prop :=
  ∃ target source documents, parse loader target source documents = .ok (some spec)

variable {loader : HookLoader ω}

theorem ReadWith.isPart (hloader : loader.NamesApart) {spec : Specification ω}
    (h : ReadWith loader spec) : IsPart spec := by
  obtain ⟨target, source, documents, hparse⟩ := h
  refine ⟨features_of_parse hparse, ?_⟩
  rcases hooks_of_parse hparse with hnone | ⟨text, hload⟩
  · rw [hnone]
    exact List.nodup_nil
  · exact hloader.nodup_hooks hload

/-- **Merging loses nothing and doubles nothing.**  What is merged has different packages, in
order of first appearance among the specifications that were read.  Each merged specification is
joined from those of its package, in order: it has all their features but the declarations of the
later ones, the union of their hooks, all their sources and the first of their faults.  And it
makes no difference whether all are merged at once or two batches are merged before. -/
theorem merge_joins (hloader : loader.NamesApart) {specs more : List (Specification ω)}
    (hspecs : ∀ spec ∈ specs, ReadWith loader spec) (hmore : ∀ spec ∈ more, ReadWith loader spec) :
    ((merge specs).map (·.package)).Nodup ∧
      (merge specs).map (·.package) = (specs.map (·.package)).eraseDups ∧
      (∀ part ∈ specs, ∃ declaration rest, part.features = declaration :: rest ∧
        declaration.assign? = some FeatureKey.packageKey) ∧
      (∀ spec ∈ merge specs, ∃ first later,
        specs.filter (·.package = spec.package) = first :: later ∧ Joined first later spec) ∧
      merge (specs ++ more) = merge (merge specs ++ merge more) := by
  have hparts : ∀ part ∈ specs, IsPart part := fun part hpart => (hspecs part hpart).isPart hloader
  refine ⟨?_, packages_merge specs, fun part hpart => (hparts part hpart).declaration,
    fun spec hspec => ?_, ?_⟩
  · rw [packages_merge]
    exact nodup_eraseDups _
  · obtain ⟨first, later, hfilter, rfl⟩ := mem_merge hspec
    have hmem : ∀ part ∈ first :: later, IsPart part := by
      intro part hpart
      rw [← hfilter] at hpart
      exact hparts part (List.mem_filter.mp hpart).1
    obtain ⟨hfirst, hlater⟩ := List.forall_mem_cons.mp hmem
    exact ⟨first, later, hfilter, joined_foldl_append hfirst hlater⟩
  · refine (merge_batches fun part hpart => ?_).symm
    rcases List.mem_append.mp hpart with hpart | hpart
    · exact hparts part hpart
    · exact (hmore part hpart).isPart hloader

/-! ### Three files for two packages -/

/-- A file for a package with one reading, and hooks made of snippets. -/
def hookedFile (package property : String) (snippets : List String) : Documents :=
  [.ok (.list [.map [(.str "PACKAGE", .str package)], .map [(.str property, .scalar (.int 1))]]),
    .ok (.map [(.str "py", .str (Sample.Snippet.sourceOf snippets))])]

/-- What is read from it. -/
def hookedPart (package property file : String) (hooks : List (String × Sample.HookFunction)) :
    Specification Sample.Object where
  package := package
  features := [.ofAction false (.bind "PACKAGE" (.str package)),
    .ofAction false (.read none property (.scalar (.int 1)))]
  hooks := hooks.map fun hook => (hook.1, .hook hook.2)
  sources := [file]
  error := none

def firstPart : Specification Sample.Object :=
  hookedPart "a" "one" "1.yml" [("double", .double), ("name", .name)]

def otherPart : Specification Sample.Object := hookedPart "b" "two" "2.yml" []

/-- It has a function of a name that the first one has, too. -/
def laterPart : Specification Sample.Object :=
  hookedPart "a" "three" "3.yml" [("double", .single)]

theorem parts_read :
    ∀ spec ∈ [firstPart, otherPart, laterPart], ReadWith Sample.loadSource spec := by
  simp only [List.forall_mem_cons, List.not_mem_nil, false_imp_iff, implies_true, and_true]
  refine ⟨?_, ?_, ?_⟩
  · exact ⟨"py", some "1.yml", hookedFile "a" "one" ["double", "name"], rfl⟩
  · exact ⟨"py", some "2.yml", hookedFile "b" "two" [], rfl⟩
  · exact ⟨"py", some "3.yml", hookedFile "a" "three" ["single"], rfl⟩

/-- The files for the package `a` are joined, and the later `double` counts. -/
theorem later_hook_counts :
    HookLoader.NamesApart Sample.loadSource ∧
      (∀ spec ∈ [firstPart, otherPart, laterPart], ReadWith Sample.loadSource spec) ∧
      (∀ spec ∈ [otherPart], ReadWith Sample.loadSource spec) ∧
      (merge [firstPart, otherPart, laterPart]).map (·.package) = ["a", "b"] ∧
      ∀ spec ∈ merge [firstPart, otherPart, laterPart], spec.package = "a" →
        spec.hooks.map (·.1) = ["double", "name"] ∧
          named? spec.hooks "double" = some (.hook .single) := by
  have hloader := Sample.loadSource_namesFunctions.apart
  have hother : ∀ spec ∈ [otherPart], ReadWith Sample.loadSource spec :=
    List.forall_mem_singleton.mpr
      (parts_read otherPart (List.mem_cons_of_mem _ List.mem_cons_self))
  obtain ⟨-, hpackages, -, hjoined, -⟩ := merge_joins hloader parts_read hother
  refine ⟨hloader, parts_read, hother, hpackages.trans (by decide), fun spec hspec hpackage => ?_⟩
  obtain ⟨first, later, hfilter, hspec⟩ := hjoined spec hspec
  rw [hpackage] at hfilter
  obtain ⟨rfl, rfl⟩ : first = firstPart ∧ later = [laterPart] := List.cons.inj hfilter.symm
  exact ⟨hspec.hookNames.trans (by decide), (hspec.hooks "double").trans rfl⟩

end Specification

end Conformance
