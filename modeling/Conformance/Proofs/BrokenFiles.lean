import Conformance.Proofs.Loading
import Conformance.Proofs.Merging

/-!
# Broken files

A file that is broken leaves a fault behind, and the fault has to reach the exit code.
It is handed on four times: loading puts it into the file's specification
(`part?_of_breaks`), discovery keeps the specifications of all files (`collect_eq_ok`),
merging keeps the first fault of each package (`merge_merged`), and running turns it
into a report without success (`success_of_broken`).

Discovery itself fails with the first file that fails with a fault that does not stand
for the file (`collect_eq_error_iff`).  If files are read as a system reads them and
documents fail as YAML does, these are the files with an entry that says what cannot be
written (`stops_iff`); they leave nothing behind but the fault.

`broken_files_fail` puts all of it together for any reader of documents.
-/

namespace Conformance

variable {ω : Type}

/-! ## Discovery -/

/-- How a file with given content is broken, and the package that carries the fault: it
cannot be read, or its first document is no YAML, or it declares its package and has
an entry that is no feature, or hooks that are no YAML or do not load. -/
inductive Breaks (loader : HookLoader ω) (target : String) (file : Path) :
    Except Fault Documents → String → Prop
  | unread {fault : Fault} : Breaks loader target file (.error fault) file.name
  | noYaml {fault : Fault} {rest : Documents} :
      Breaks loader target file (.ok (.error fault :: rest)) file.name
  | malformed {package : String} {declaration entry : Literal} {entries : List Literal}
      {rest : Documents} {why : Malformed} (hdeclares : Declares target declaration package)
      (hentry : entry ∈ entries) (hparse : Feature.parse entry target = .error (.malformed why)) :
      Breaks loader target file (.ok (.ok (.list (declaration :: entries)) :: rest)) package
  | hooksNoYaml {package : String} {declaration : Literal} {entries : List Literal}
      {rest : Documents} {fault : Fault} (hdeclares : Declares target declaration package) :
      Breaks loader target file
        (.ok (.ok (.list (declaration :: entries)) :: .error fault :: rest)) package
  | hooksUnloadable {package : String} {declaration hooks : Literal} {entries : List Literal}
      {rest : Documents} {text reason : String} (hdeclares : Declares target declaration package)
      (hsource : Specification.hookSource? target hooks = some text)
      (hload : loader text (hookFile (some file.render)) = .error reason) :
      Breaks loader target file
        (.ok (.ok (.list (declaration :: entries)) :: .ok hooks :: rest)) package

/-- Content that is read, or is not, as a system reads it, and whose documents fail as YAML
does. -/
structure Loadable (content : Except Fault Documents) : Prop where
  system : ∀ fault, content = .error fault → fault.family = .system
  yaml : ∀ documents, content = .ok documents →
    ∀ fault, .error fault ∈ documents → fault.family = .yaml

/-- What is read holds an entry that counts and says what cannot be written, and the fault
names the type of a key in it. -/
inductive Unwritten (target : String) : Except Fault Documents → Fault → Prop
  | intro {documents : Documents} {type : String}
      (h : Specification.Raises target documents (.jsonKey type)) :
      Unwritten target (.ok documents) (.jsonKey type)

namespace Discovery

variable {loader : HookLoader ω} {target : String} {content : Path → Except Fault Documents}
  {file : Path} {fault : Fault}

/-! ### One file -/

/-- What a file brings to a discovery. -/
def part? (loader : HookLoader ω) (target : String) (content : Path → Except Fault Documents)
    (file : Path) : Option (Specification ω) :=
  match fileSpecification loader target content file with
  | .ok found => found
  | .error fault => some (Specification.broken file.name file.render fault)

/-- The file ends a discovery: it fails with a fault that does not stand for it. -/
def Stops (loader : HookLoader ω) (target : String) (content : Path → Except Fault Documents)
    (file : Path) (fault : Fault) : Prop :=
  fileSpecification loader target content file = .error fault ∧ isLoadFault fault = false

theorem fileSpecification_of_error (h : content file = .error fault) :
    fileSpecification loader target content file = .error fault := by
  unfold fileSpecification
  rw [h]
  rfl

theorem fileSpecification_of_ok {documents : Documents}
    (h : content file = .ok documents) :
    fileSpecification loader target content file =
      Specification.parse loader target (some file.render) documents := by
  unfold fileSpecification
  rw [h]
  rfl

/-- A file that cannot be loaded brings its fault under its own name. -/
theorem part?_of_unread (h : fileSpecification loader target content file = .error fault) :
    ∃ part, part? loader target content file = some part ∧ part.package = file.name ∧
      part.error.isSome = true := by
  unfold part?
  rw [h]
  exact ⟨_, rfl, rfl, rfl⟩

/-- **The files that end a discovery** hold what cannot be written. -/
theorem stops_iff (h : Loadable (content file)) :
    Stops loader target content file fault ↔ Unwritten target (content file) fault := by
  cases hcontent : content file with
  | error other =>
      constructor
      · rintro ⟨hfile, hstops⟩
        rw [fileSpecification_of_error hcontent] at hfile
        cases hfile
        unfold isLoadFault at hstops
        rw [h.system _ hcontent] at hstops
        cases hstops
      · exact nofun
  | ok documents =>
      constructor
      · rintro ⟨hfile, hstops⟩
        rw [fileSpecification_of_ok hcontent] at hfile
        have hraises := (Specification.parse_eq_error_iff loader _).mp hfile
        have hyaml : .error fault ∈ documents → isLoadFault fault = true := by
          intro hmem
          unfold isLoadFault
          rw [h.yaml _ hcontent _ hmem]
          rfl
        rcases hraises.origin with ⟨later, rfl⟩ | ⟨type, rfl⟩ | ⟨hmem, -⟩
        · cases hstops.symm.trans (hyaml List.mem_cons_self)
        · exact .intro hraises
        · cases hstops.symm.trans (hyaml hmem)
      · rintro ⟨hraises⟩
        exact ⟨(fileSpecification_of_ok hcontent).trans (hraises.parse_eq loader _), rfl⟩

section Quiet

variable (hload : Loadable (content file))
  (hquiet : ∀ fault, ¬ Stops loader target content file fault)
include hload hquiet

/-- A file that declares a package brings what is loaded of it. -/
theorem part?_of_declares {documents rest : Documents} {entries : List Literal} {package : String}
    (hcontent : content file = .ok documents)
    (h : Specification.DeclaresPackage target documents entries rest package) :
    ∃ part, part? loader target content file = some part ∧
      Specification.Loaded loader target (some file.render) package entries rest part := by
  rcases Specification.parse_declared loader (some file.render) h with
    ⟨part, hpart, hloaded⟩ | ⟨fault, hraises⟩
  · refine ⟨part, ?_, hloaded⟩
    unfold part?
    rw [fileSpecification_of_ok hcontent, hpart]
  · -- The first document is there, and a fault of the second is one of YAML, which is kept.
    rcases hraises.origin with ⟨later, rfl⟩ | ⟨type, rfl⟩ | ⟨hmem, hkept⟩
    · cases h
    · have hunwritten : Unwritten target (content file) (.jsonKey type) := by
        rw [hcontent]
        exact .intro hraises
      exact absurd ((stops_iff hload).mpr hunwritten) (hquiet _)
    · unfold Specification.isKept at hkept
      rw [hload.yaml _ hcontent _ hmem] at hkept
      simp at hkept

/-- If not all entries are features or there are no hooks, it brings a fault. -/
theorem part?_of_not_loaded {documents rest : Documents} {entries : List Literal}
    {package : String} (hcontent : content file = .ok documents)
    (h : Specification.DeclaresPackage target documents entries rest package)
    (hnot : ¬ ((∃ fs, List.Forall₂ (Parses target) entries fs) ∧
      ∃ hooks, Specification.HooksLoad loader target (some file.render) rest hooks)) :
    ∃ part, part? loader target content file = some part ∧ part.package = package ∧
      part.error.isSome = true := by
  obtain ⟨part, hpart, hloaded⟩ := part?_of_declares hload hquiet hcontent h
  refine ⟨part, hpart, hloaded.package, Option.isSome_iff_ne_none.mpr fun hnone => ?_⟩
  exact hnot (hloaded.error.mp hnone)

/-- **A broken file brings its fault**, under the package that carries it. -/
theorem part?_of_breaks {package : String}
    (h : Breaks loader target file (content file) package) :
    ∃ part, part? loader target content file = some part ∧ part.package = package ∧
      part.error.isSome = true := by
  generalize hcontent : content file = held at h
  cases h with
  | unread => exact part?_of_unread (fileSpecification_of_error hcontent)
  | noYaml => exact part?_of_unread (fileSpecification_of_ok hcontent)
  | @malformed _ declaration entry entries rest why hdeclares hentry hparse =>
      obtain ⟨before, after, rfl⟩ := List.append_of_mem hentry
      refine part?_of_not_loaded hload hquiet hcontent (.intro hdeclares) fun hall => ?_
      have hnot : ¬ ∃ fs, List.Forall₂ (Parses target)
          ((declaration :: before) ++ entry :: after) fs := Specification.not_all_of_first hparse
      exact hnot hall.1
  | hooksNoYaml hdeclares =>
      refine part?_of_not_loaded hload hquiet hcontent (.intro hdeclares) ?_
      rintro ⟨-, hooks, hhooks⟩
      exact hhooks.not_fail .unread
  | hooksUnloadable hdeclares hsource hunloadable =>
      refine part?_of_not_loaded hload hquiet hcontent (.intro hdeclares) ?_
      rintro ⟨-, hooks, hhooks⟩
      exact hhooks.not_fail (.unloadable hsource hunloadable)

end Quiet

/-! ### All files -/

/-- A file that ends a discovery ends it where it stands. -/
theorem collect_cons_of_stops {files : List Path} (h : Stops loader target content file fault) :
    collect loader target content (file :: files) = .error fault := by
  obtain ⟨hfile, hstops⟩ := h
  unfold collect
  rw [hfile]
  dsimp only
  rw [hstops]
  rfl

/-- Any other file adds what it brings. -/
theorem collect_cons_of_quiet (files : List Path)
    (h : ∀ fault, ¬ Stops loader target content file fault) :
    ∃ failures, collect loader target content (file :: files) =
      (collect loader target content files).map fun found =>
        ⟨(part? loader target content file).toList ++ found.specifications,
          failures ++ found.failures⟩ := by
  unfold part?
  cases hfile : fileSpecification loader target content file with
  | ok found =>
      refine ⟨[], ?_⟩
      rw [collect, hfile]
      rfl
  | error fault =>
      have hload : isLoadFault fault = true :=
        (Bool.not_eq_false _).mp fun hstops => h fault ⟨hfile, hstops⟩
      refine ⟨[(file, fault)], ?_⟩
      rw [collect, hfile]
      dsimp only
      rw [if_pos hload]
      rfl

/-- **A discovery fails** with the first file that ends it. -/
theorem collect_eq_error_iff {files : List Path} :
    collect loader target content files = .error fault ↔
      ∃ before file after, files = before ++ file :: after ∧
        (∀ other ∈ before, ∀ fault, ¬ Stops loader target content other fault) ∧
        Stops loader target content file fault := by
  induction files with
  | nil =>
      constructor
      · exact nofun
      · rintro ⟨before, file, after, h, -⟩
        cases before <;> cases h
  | cons first files ih =>
      by_cases hfirst : ∃ other, Stops loader target content first other
      · obtain ⟨other, hother⟩ := hfirst
        rw [collect_cons_of_stops hother]
        constructor
        · intro h
          cases h
          exact ⟨[], first, files, rfl, nofun, hother⟩
        · rintro ⟨before, file, after, h, hbefore, hstops⟩
          cases before with
          | nil =>
              cases h
              cases hother.1.symm.trans hstops.1
              rfl
          | cons _ before =>
              cases h
              exact absurd hother (hbefore _ List.mem_cons_self _)
      · have hquiet : ∀ other, ¬ Stops loader target content first other :=
          fun other h => hfirst ⟨other, h⟩
        obtain ⟨failures, hcons⟩ := collect_cons_of_quiet files hquiet
        rw [hcons, map_eq_error_iff, ih]
        constructor
        · rintro ⟨before, file, after, rfl, hbefore, hstops⟩
          exact ⟨first :: before, file, after, rfl, List.forall_mem_cons.mpr ⟨hquiet, hbefore⟩,
            hstops⟩
        · rintro ⟨before, file, after, h, hbefore, hstops⟩
          cases before with
          | nil =>
              cases h
              exact absurd hstops (hquiet _)
          | cons _ before =>
              cases h
              exact ⟨before, file, after, rfl, (List.forall_mem_cons.mp hbefore).2, hstops⟩

/-- **A discovery that does not fail** has what all files bring, and none of them ends it. -/
theorem collect_eq_ok {files : List Path} {found : Discovery ω}
    (h : collect loader target content files = .ok found) :
    found.specifications = files.filterMap (part? loader target content) ∧
      ∀ file ∈ files, ∀ fault, ¬ Stops loader target content file fault := by
  induction files generalizing found with
  | nil =>
      cases h
      exact ⟨rfl, nofun⟩
  | cons first files ih =>
      have hquiet : ∀ fault, ¬ Stops loader target content first fault := by
        intro fault hstops
        cases (collect_cons_of_stops hstops).symm.trans h
      obtain ⟨failures, hcons⟩ := collect_cons_of_quiet files hquiet
      rw [hcons] at h
      obtain ⟨rest, hrest, rfl⟩ := ok_of_map_ok h
      obtain ⟨hparts, hothers⟩ := ih hrest
      refine ⟨?_, List.forall_mem_cons.mpr ⟨hquiet, hothers⟩⟩
      dsimp only
      rw [hparts, List.filterMap_cons]
      cases part? loader target content first <;> rfl

/-- Merging what is collected changes nothing about the fault of a discovery. -/
theorem ofFiles_eq_error_iff {files : List Path} :
    ofFiles loader target content files = .error fault ↔
      collect loader target content files = .error fault := by
  unfold ofFiles
  cases collect loader target content files with
  | error other => exact Iff.rfl
  | ok found => exact iff_of_false nofun nofun

/-- A discovery fails with the first file that holds what cannot be written. -/
theorem ofFiles_eq_error_iff_unwritten {files : List Path}
    (hload : ∀ file ∈ files, Loadable (content file)) :
    ofFiles loader target content files = .error fault ↔
      ∃ before file after, files = before ++ file :: after ∧
        (∀ other ∈ before, ∀ fault, ¬ Unwritten target (content other) fault) ∧
        Unwritten target (content file) fault := by
  rw [ofFiles_eq_error_iff, collect_eq_error_iff]
  refine exists₃_congr fun before file after => and_congr_right ?_
  rintro rfl
  obtain ⟨hbefore, hrest⟩ := List.forall_mem_append.mp hload
  refine and_congr (forall₂_congr fun other hother => forall_congr' fun fault => ?_) ?_
  · rw [stops_iff (hbefore other hother)]
  · exact stops_iff (hrest file List.mem_cons_self)

/-- In what is discovered every broken file has left its fault. -/
theorem ofFiles_broken {files : List Path} {found : Discovery ω}
    (hload : ∀ file ∈ files, Loadable (content file))
    (h : ofFiles loader target content files = .ok found) (hfile : file ∈ files) {package : String}
    (hbreaks : Breaks loader target file (content file) package) :
    (∃ spec ∈ found.specifications, spec.package = package) ∧
      ∀ spec ∈ found.specifications, spec.package = package → spec.error.isSome = true := by
  unfold ofFiles at h
  obtain ⟨collected, hcollected, h⟩ := ok_of_bind_ok h
  cases h
  obtain ⟨hparts, hquiet⟩ := collect_eq_ok hcollected
  obtain ⟨part, hpart, rfl, hfault⟩ := part?_of_breaks (hload file hfile) (hquiet file hfile) hbreaks
  refine (Specification.merge_merged collected.specifications).isSome_error ?_ hfault
  rw [hparts]
  exact List.mem_filterMap.mpr ⟨file, hfile, hpart⟩

/-! ### Files of a tree -/

section Tree

variable {reader : DocumentReader} {tree : FileTree}

/-- The content of a file that is read as a system reads it, and as YAML is. -/
theorem loadable_documentsOf
    (hread : ∀ fault, tree.text file = .error fault → fault.family = .system)
    (hyaml : ∀ text fault, tree.text file = .ok text → .error fault ∈ reader text →
      fault.family = .yaml) :
    Loadable (documentsOf reader tree file) where
  system := fun fault h => hread fault (map_eq_error_iff.mp h)
  yaml := by
    intro documents h fault hmem
    obtain ⟨text, htext, rfl⟩ := ok_of_map_ok h
    exact hyaml text fault htext hmem

/-- What can be written is not unwritten. -/
theorem not_unwritten_documentsOf
    (hyaml : ∀ text fault, tree.text file = .ok text → .error fault ∈ reader text →
      fault.family = .yaml)
    (hwritable : ∀ text, tree.text file = .ok text → ∀ v, .ok v ∈ reader text → v.Writable) :
    ¬ Unwritten target (documentsOf reader tree file) fault := by
  intro h
  generalize hheld : documentsOf reader tree file = held at h
  obtain ⟨hraises⟩ := h
  obtain ⟨text, htext, rfl⟩ := ok_of_map_ok hheld
  cases hyaml _ _ htext (hraises.unreadable (hwritable _ htext))

end Tree

end Discovery

/-! ## Running -/

namespace Run

variable {impl : Implementation ω} {listener : Listener ω}

/-- A specification that could not be read does not succeed. -/
theorem Reported.not_success {spec : Specification ω} {r : SpecificationResult} {w w' : World ω}
    (h : Reported impl listener spec w r w') (hfault : spec.error.isSome = true) :
    r.success = false := by
  cases h with
  | unread _ => rfl
  | unbuilt hread _ =>
      rw [hread] at hfault
      cases hfault
  | ran hread _ _ =>
      rw [hread] at hfault
      cases hfault

/-- A run with a specification that could not be read does not succeed. -/
theorem success_of_broken {specs : List (Specification ω)} {rs : RunResult} {w w' : World ω}
    (h : runFrom (runAll impl listener specs) w = (.ok rs, w')) {spec : Specification ω}
    (hspec : spec ∈ specs) (hfault : spec.error.isSome = true) : RunResult.success rs = false := by
  induction specs generalizing rs w with
  | nil => exact absurd hspec List.not_mem_nil
  | cons first specs ih =>
      obtain ⟨r, later, w₁, hfirst, hlater, rfl⟩ := runAll_cons_cases h
      unfold RunResult.success
      rw [List.all_cons, Bool.and_eq_false_iff]
      rcases List.mem_cons.mp hspec with rfl | hspec
      · exact Or.inl ((runSpecification_reported hfirst).not_success hfault)
      · exact Or.inr (ih hlater hspec)

end Run

namespace CommandLine

/-- Arguments that ask for a check of what a path leads to, for a target. -/
structure AsksFor (environment : Environment) (arguments : List String) (path? : Option String)
    (target : String) : Prop where
  check : ∃ options, request arguments = .ok (.check options) ∧ options.path = path? ∧
    environment.targetFor options.target = target

open Run

variable {impl : Implementation ω} {reader : DocumentReader} {loader : HookLoader ω}
  {s : Surroundings} {arguments : List String} {path? : Option String} {target : String}

/-- If discovery fails, so does the program, with the same fault and before anything runs. -/
theorem program_of_not_found {fault : Fault} (hasks : AsksFor s.environment arguments path? target)
    (h : Discovery.discover reader loader s.tree s.directory path? target = .error fault)
    (w : World ω) : runFrom (program impl reader loader s arguments) w = (.error fault, w) := by
  obtain ⟨options, hrequest, rfl, rfl⟩ := hasks.check
  unfold program
  rw [hrequest]
  unfold check
  dsimp only
  rw [h]
  rfl

/-- A specification that could not be read makes the exit code 1, if no fault escapes. -/
theorem program_of_broken {found : Discovery ω} {spec : Specification ω} {w : World ω}
    (hasks : AsksFor s.environment arguments path? target)
    (hfound : Discovery.discover reader loader s.tree s.directory path? target = .ok found)
    (hspec : spec ∈ found.specifications) (hfault : spec.error.isSome = true)
    (hquiet : ∀ fault, (runFrom (runAll impl silent found.specifications) w).1 ≠ .error fault) :
    ∃ v, runFrom (program impl reader loader s arguments) w = (.ok 1, v) := by
  obtain ⟨options, hrequest, rfl, rfl⟩ := hasks.check
  rcases hrun : runFrom (runAll impl silent found.specifications) w with ⟨fault | rs, w'⟩
  · rw [hrun] at hquiet
    exact absurd rfl (hquiet fault)
  · obtain ⟨v, hchecked, -⟩ := check_prints hfound hrun
    rw [success_of_broken hrun hspec hfault, Bool.and_false] at hchecked
    refine ⟨v, ?_⟩
    unfold program
    rw [hrequest]
    exact hchecked

end CommandLine

open CommandLine Run in
/-- **A broken file never lets a run pass**, for every reader of documents, tree of files,
path and target.  Discovery fails exactly with the first located file that holds what
cannot be written, and not at all if everything that is read can be; the command line then
gives no exit code.  If discovery ends and a located file is broken, the specification of
its package carries a fault, whatever it was merged with, and the command line gives 1
unless a fault escapes from the run. -/
theorem broken_files_fail (reader : DocumentReader) (loader : HookLoader ω) (tree : FileTree)
    (directory : Path) (path? : Option String) (target : String)
    (hread : ∀ file ∈ tree.locate directory path?, ∀ fault,
      tree.text file = .error fault → fault.family = .system)
    (hyaml : ∀ file ∈ tree.locate directory path?, ∀ text fault,
      tree.text file = .ok text → .error fault ∈ reader text → fault.family = .yaml) :
    (∀ fault, Discovery.discover reader loader tree directory path? target = .error fault ↔
      ∃ before file after, tree.locate directory path? = before ++ file :: after ∧
        (∀ other ∈ before, ∀ fault,
          ¬ Unwritten target (Discovery.documentsOf reader tree other) fault) ∧
        Unwritten target (Discovery.documentsOf reader tree file) fault) ∧
    ((∀ file ∈ tree.locate directory path?, ∀ text, tree.text file = .ok text →
        ∀ v, .ok v ∈ reader text → v.Writable) →
      ∃ found, Discovery.discover reader loader tree directory path? target = .ok found) ∧
    (∀ fault, Discovery.discover reader loader tree directory path? target = .error fault →
      ∀ (impl : Implementation ω) (environment : Environment) (arguments : List String)
        (w : World ω), AsksFor environment arguments path? target →
        runFrom (program impl reader loader ⟨tree, directory, environment⟩ arguments) w =
          (.error fault, w)) ∧
    ∀ found, Discovery.discover reader loader tree directory path? target = .ok found →
      ∀ file ∈ tree.locate directory path?, ∀ package,
        Breaks loader target file (Discovery.documentsOf reader tree file) package →
          (∃ spec ∈ found.specifications, spec.package = package) ∧
          (∀ spec ∈ found.specifications, spec.package = package → spec.error.isSome = true) ∧
          ∀ (impl : Implementation ω) (environment : Environment) (arguments : List String)
            (w : World ω), AsksFor environment arguments path? target →
            (∀ fault, (runFrom (runAll impl silent found.specifications) w).1 ≠ .error fault) →
            ∃ v, runFrom (program impl reader loader ⟨tree, directory, environment⟩ arguments) w =
              (.ok 1, v) := by
  have hload : ∀ file ∈ tree.locate directory path?,
      Loadable (Discovery.documentsOf reader tree file) :=
    fun file hfile => Discovery.loadable_documentsOf (hread file hfile) (hyaml file hfile)
  have hfails : ∀ fault, Discovery.discover reader loader tree directory path? target =
      .error fault ↔ _ := fun fault => Discovery.ofFiles_eq_error_iff_unwritten hload
  refine ⟨hfails, fun hwritable => ?_, ?_, ?_⟩
  · cases hdiscovered : Discovery.discover reader loader tree directory path? target with
    | ok found => exact ⟨found, rfl⟩
    | error fault =>
        obtain ⟨before, file, after, hlocated, -, hunwritten⟩ := (hfails fault).mp hdiscovered
        have hfile : file ∈ tree.locate directory path? := by
          rw [hlocated]
          exact List.mem_append_right _ List.mem_cons_self
        exact absurd hunwritten
          (Discovery.not_unwritten_documentsOf (hyaml file hfile) (hwritable file hfile))
  · exact fun fault hfault impl environment arguments w hasks =>
      program_of_not_found (s := ⟨tree, directory, environment⟩) hasks hfault w
  · intro found hfound file hfile package hbreaks
    obtain ⟨hthere, hfault⟩ := Discovery.ofFiles_broken hload hfound hfile hbreaks
    refine ⟨hthere, hfault, fun impl environment arguments w hasks hquiet => ?_⟩
    obtain ⟨spec, hspec, hpackage⟩ := hthere
    exact program_of_broken (s := ⟨tree, directory, environment⟩) hasks hfound hspec
      (hfault spec hspec hpackage) hquiet

/-! ## Files that are read -/

section Files

open CommandLine Run

/-- Bytes of a plain text. -/
def plainBytes (text : String) : List UInt8 := text.toList.map fun c => UInt8.ofNat c.toNat

/-- The file is read, and so are all its documents. -/
def readsWell (tree : FileTree) (file : Path) : Bool :=
  match tree.text file with
  | .ok text => (Yaml.documents text).all (fun document => document.toOption.isSome)
  | .error _ => false

/-- Files that are read fail neither otherwise than a system nor otherwise than YAML. -/
theorem families_of_readsWell {tree : FileTree} {files : List Path}
    (h : ∀ file ∈ files, readsWell tree file = true) :
    (∀ file ∈ files, ∀ fault, tree.text file = .error fault → fault.family = .system) ∧
      ∀ file ∈ files, ∀ text fault, tree.text file = .ok text →
        .error fault ∈ Yaml.documents text → fault.family = .yaml := by
  constructor
  · intro file hfile fault htext
    have hwell := h file hfile
    unfold readsWell at hwell
    rw [htext] at hwell
    cases hwell
  · intro file hfile text fault htext hmem
    have hwell := h file hfile
    unfold readsWell at hwell
    rw [htext] at hwell
    cases List.all_eq_true.mp hwell _ hmem

/-! ### Two files of one package -/

/-- Two files that declare the package `p`.  The second has an entry that is no feature. -/
def twoFiles : FileTree :=
  [(["packspec", "b.yml"], .file (.ok (plainBytes "- PACKAGE: p\n- 3\n"))),
    (["packspec", "a.yml"], .file (.ok (plainBytes "- PACKAGE: p\n")))]

def goodFile : Path := ⟨.root, ["packspec", "a.yml"]⟩

def brokenFile : Path := ⟨.root, ["packspec", "b.yml"]⟩

theorem twoFiles_located : twoFiles.locate ⟨.root, []⟩ none = [goodFile, brokenFile] := by
  have hnames : (twoFiles.names ⟨.root, ["packspec"]⟩).filter FileTree.hasEnding =
      ["b.yml", "a.yml"] := by decide +kernel
  have hsorted : ["b.yml", "a.yml"].mergeSort (fun a b => a ≤ b) = ["a.yml", "b.yml"] := by
    simp [List.mergeSort]
  have hfile : twoFiles.isFile ((⟨.root, []⟩ : Path).child FileTree.defaultFile) = false := by
    decide +kernel
  unfold FileTree.locate
  dsimp only
  rw [hfile]
  change ((List.filter _ (twoFiles.names ⟨.root, ["packspec"]⟩)).mergeSort _).map _ = _
  rw [hnames, hsorted]
  rfl

/-- The documents are a declaration of the package `p` and the number 3. -/
def isBrokenDeclaration : Except Fault Documents → Bool
  | .ok [.ok (.list [declaration, .scalar (.int 3)])] =>
    (Specification.declaredBy "py" declaration).toOption == some (some "p")
  | _ => false

theorem brokenFile_breaks :
    Breaks emptyLoader "py" brokenFile
      (Discovery.documentsOf Yaml.documents twoFiles brokenFile) "p" := by
  have h : isBrokenDeclaration (Discovery.documentsOf Yaml.documents twoFiles brokenFile) = true := by
    decide +kernel
  generalize Discovery.documentsOf Yaml.documents twoFiles brokenFile = content at h
  unfold isBrokenDeclaration at h
  split at h
  · rename_i declaration
    cases hdeclared : Specification.declaredBy "py" declaration with
    | error fault =>
        rw [hdeclared] at h
        cases h
    | ok package? =>
        rw [hdeclared] at h
        obtain rfl : package? = some "p" := Option.some.inj (eq_of_beq h)
        exact .malformed (Specification.declares_iff.mpr hdeclared) (List.mem_singleton.mpr rfl) rfl
  · cases h

/-- What is found is one specification, with a fault. -/
def isOneBroken : Except Fault (Discovery Sample.Object) → Bool
  | .ok ⟨[spec], _⟩ => spec.error.isSome
  | _ => false

theorem twoFiles_isOneBroken :
    isOneBroken (Discovery.discover Yaml.documents emptyLoader twoFiles ⟨.root, []⟩ none "py") =
      true := by
  unfold Discovery.discover
  rw [twoFiles_located]
  decide +kernel

/-- No fault escapes from a specification that could not be read. -/
theorem runAll_broken {impl : Implementation ω} {spec : Specification ω}
    (h : spec.error.isSome = true) (w : World ω) (fault : Fault) :
    (runFrom (runAll impl silent [spec]) w).1 ≠ .error fault := by
  obtain ⟨cause, hcause⟩ := Option.isSome_iff_exists.mp h
  unfold runAll runSpecification
  rw [hcause]
  intro hescapes
  cases hescapes

theorem twoFiles_readsWell :
    ∀ file ∈ twoFiles.locate ⟨.root, []⟩ none, readsWell twoFiles file = true := by
  rw [twoFiles_located]
  refine List.forall_mem_cons.mpr ⟨?_, List.forall_mem_singleton.mpr ?_⟩
  · decide +kernel
  · decide +kernel

/-- The second file makes the exit code 1, though the first one is as it should be. -/
theorem twoFiles_fail :
    (∀ file ∈ twoFiles.locate ⟨.root, []⟩ none, ∀ fault,
      twoFiles.text file = .error fault → fault.family = .system) ∧
    (∀ file ∈ twoFiles.locate ⟨.root, []⟩ none, ∀ text fault,
      twoFiles.text file = .ok text → .error fault ∈ Yaml.documents text →
        fault.family = .yaml) ∧
    (∃ found, Discovery.discover Yaml.documents emptyLoader twoFiles ⟨.root, []⟩ none "py" =
      .ok found) ∧
    brokenFile ∈ twoFiles.locate ⟨.root, []⟩ none ∧
    Breaks emptyLoader "py" brokenFile
      (Discovery.documentsOf Yaml.documents twoFiles brokenFile) "p" ∧
    AsksFor ⟨none, none⟩ [] none "py" ∧
    ∃ v, runFrom (program listImplementation Yaml.documents emptyLoader
      ⟨twoFiles, ⟨.root, []⟩, ⟨none, none⟩⟩ []) (World.ofStore listStore) = (.ok 1, v) := by
  obtain ⟨hread, hyaml⟩ := families_of_readsWell twoFiles_readsWell
  have hlocated : brokenFile ∈ twoFiles.locate ⟨.root, []⟩ none := by
    rw [twoFiles_located]
    exact List.mem_cons_of_mem _ (List.mem_singleton.mpr rfl)
  have hasks : AsksFor ⟨none, none⟩ [] none "py" :=
    ⟨⟨none, none, false⟩, by decide +kernel, rfl, rfl⟩
  obtain ⟨-, -, -, hbroken⟩ :=
    broken_files_fail Yaml.documents emptyLoader twoFiles ⟨.root, []⟩ none "py" hread hyaml
  have hone := twoFiles_isOneBroken
  cases hfound : Discovery.discover Yaml.documents emptyLoader twoFiles ⟨.root, []⟩ none "py" with
  | error fault =>
      rw [hfound] at hone
      cases hone
  | ok found =>
      obtain ⟨-, -, hfails⟩ := hbroken found hfound brokenFile hlocated "p" brokenFile_breaks
      rw [hfound] at hone
      unfold isOneBroken at hone
      split at hone
      · rename_i spec failures heq
        cases heq
        exact ⟨hread, hyaml, ⟨_, rfl⟩, hlocated, brokenFile_breaks, hasks,
          hfails listImplementation ⟨none, none⟩ [] _ hasks (runAll_broken hone _)⟩
      · cases hone

/-! ### A file with pairs -/

/-- A file with a list of pairs, in one of which a date is the key of a mapping. -/
def pairsFile : FileTree :=
  [(["packspec.yml"],
    .file (.ok (plainBytes "- PACKAGE: p\n- x==: !!pairs [a: \x7b2020-01-02: 1\x7d]\n")))]

/-- Discovery fails. -/
def isFailure : Except Fault (Discovery Sample.Object) → Bool
  | .error _ => true
  | .ok _ => false

/-- **Discovery does not always end**, though files are read as a system reads them and
documents as YAML. -/
theorem discovery_not_always_ends :
    ¬ ∀ (ω : Type) (reader : DocumentReader) (loader : HookLoader ω) (tree : FileTree)
      (directory : Path) (path? : Option String) (target : String),
      (∀ file ∈ tree.locate directory path?, ∀ fault,
        tree.text file = .error fault → fault.family = .system) →
      (∀ file ∈ tree.locate directory path?, ∀ text fault,
        tree.text file = .ok text → .error fault ∈ reader text → fault.family = .yaml) →
      ∃ found, Discovery.discover reader loader tree directory path? target = .ok found := by
  intro h
  have hlocated : pairsFile.locate ⟨.root, []⟩ none = [⟨.root, ["packspec.yml"]⟩] := by
    decide +kernel
  have hwell : ∀ file ∈ pairsFile.locate ⟨.root, []⟩ none, readsWell pairsFile file = true := by
    rw [hlocated]
    exact List.forall_mem_singleton.mpr (by decide +kernel)
  have hfails : isFailure (Discovery.discover Yaml.documents emptyLoader pairsFile ⟨.root, []⟩ none
      "py") = true := by
    decide +kernel
  obtain ⟨hread, hyaml⟩ := families_of_readsWell hwell
  obtain ⟨found, hfound⟩ :=
    h Sample.Object Yaml.documents emptyLoader pairsFile ⟨.root, []⟩ none "py" hread hyaml
  rw [hfound] at hfails
  cases hfails

end Files

end Conformance
