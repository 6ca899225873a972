import Conformance.CommandLine.Program
import Conformance.Proofs.Oblivious
import Conformance.Proofs.Tally
import Conformance.Session
import Conformance.Yaml.Documents

/-!
# Three ways to run specifications

Specifications run by themselves, from the command line, which prints a report of
each, and in a test session, which gives a verdict on each.  All three run the same
specifications from the same state, and as a run does not look at what is printed,
they come to the same reports: `printSpecifications_prints` gives the output of the
command line from the reports of a silent run, and `runTests_verdicts` the verdicts.

So they agree on success, and none of them leaves out a specification because an
earlier one failed (`front_ends_agree`).
-/

namespace Conformance

variable {ω : Type} {impl : Implementation ω}

/-! ## What is printed -/

/-- Nothing is printed. -/
def SameOutput (w w' : World ω) : Prop := w'.output = w.output

namespace SameOutput

instance : Std.Refl (SameOutput (ω := ω)) := ⟨fun _ => rfl⟩

instance : IsTrans (World ω) SameOutput := ⟨fun _ _ _ h h' => h'.trans h⟩

/-- Printing nothing composes. -/
theorem composes : Composes (fun step : Exec ω _ => Moves SameOutput step) :=
  Composes.moves (fun _ _ => rfl) (fun _ _ => rfl)

end SameOutput

namespace Run

/-- A feature prints nothing itself. -/
theorem runFeature_sameOutput (scope : ScopeId) (f : Feature) :
    Moves SameOutput (runFeature impl scope f) :=
  runFeature_kept SameOutput.composes.keeps
    (Scope.assign_kept SameOutput.composes.keeps fun _ _ _ => rfl) scope f

theorem buildScope_sameOutput (spec : Specification ω) :
    Moves SameOutput (buildScope impl spec) :=
  buildScope_kept SameOutput.composes (fun _ _ => rfl) (fun _ _ _ => rfl) spec

end Run

namespace SpecificationResult

/-- What the command line prints for a specification. -/
def printed (r : SpecificationResult) : List String :=
  "---" :: r.results.map (·.format) ++ ["", r.summary, ""]

end SpecificationResult

namespace CommandLine

open Run

theorem printResult_reportsOnly : Listener.ReportsOnly (printResult : Listener ω) :=
  fun _ _ => ⟨_, _, rfl⟩

/-- Features that run print their results in order. -/
theorem runFeatures_prints {scope : ScopeId} {fs : List Feature} {rs : List FeatureResult}
    {stop : Option Fault} {w w' : World ω}
    (h : runFrom (runFeatures impl printResult scope fs) w = (.ok (rs, stop), w')) :
    w'.output.toList = w.output.toList ++ rs.map (·.format) := by
  induction fs generalizing rs w with
  | nil =>
      cases h
      rw [List.map_nil, List.append_nil]
  | cons f fs ih =>
      have hsame : SameOutput w (runFrom (runFeature impl scope f) w).2 :=
        runFeature_sameOutput scope f w
      rcases runFeatures_cons_cases h with
        ⟨fault, hf, rfl, rfl⟩ | ⟨r, later, w₁, w₂, hf, hheard, hlater, rfl⟩
      · rw [hf] at hsame
        rw [List.map_nil, List.append_nil, hsame]
      · rw [hf] at hsame
        cases hheard
        rw [ih hlater]
        change (w₁.output.push r.format).toList ++ _ = _
        rw [Array.toList_push, hsame]
        simp

/-- A specification that runs prints its results in order. -/
theorem runSpecification_prints {spec : Specification ω} {r : SpecificationResult}
    {w w' : World ω} (h : runFrom (runSpecification impl printResult spec) w = (.ok r, w')) :
    w'.output.toList = w.output.toList ++ r.results.map (·.format) := by
  have hsame : SameOutput w (runFrom (buildScope impl spec) w).2 := buildScope_sameOutput spec w
  cases runSpecification_reported h with
  | unread _ => exact (List.append_nil _).symm
  | unbuilt _ hbuilt =>
      rw [hbuilt] at hsame
      exact (congrArg Array.toList hsame).trans (List.append_nil _).symm
  | ran _ hbuilt hrun =>
      rw [hbuilt] at hsame
      have houtput := runFeatures_prints hrun
      rw [hsame] at houtput
      exact houtput

/-- **The command line prints the report of a silent run**, and goes on in the same
state. -/
theorem printSpecification_prints {spec : Specification ω} {r : SpecificationResult}
    {w w' v : World ω} (h : runFrom (runSpecification impl silent spec) w = (.ok r, w'))
    (hv : SameState w v) :
    ∃ v', runFrom (printSpecification impl spec) v = (.ok r.success, v') ∧ SameState w' v' ∧
      v'.output.toList = v.output.toList ++ r.printed := by
  have hstart : SameState w { v with output := v.output.push "---" } := ⟨hv.store, hv.scopes⟩
  obtain ⟨v₁, hrun, hv₁⟩ :=
    (runSpecification_agree silent_reportsOnly printResult_reportsOnly spec).run_eq hstart h
  have houtput := runSpecification_prints hrun
  refine ⟨{ v₁ with output := ((v₁.output.push "").push r.summary).push "" }, ?_, ?_, ?_⟩
  · unfold printSpecification
    rw [runFrom_bind_of_ok (runFrom_print "---" v), runFrom_bind_of_ok hrun]
    rfl
  · exact ⟨hv₁.store, hv₁.scopes⟩
  · rw [Array.toList_push, Array.toList_push, Array.toList_push, houtput]
    simp [SpecificationResult.printed]

/-- Specifications that are printed run like those that are not, whether or not the
earlier ones succeed. -/
theorem printSpecifications_prints {specs : List (Specification ω)} {rs : RunResult}
    {w w' v : World ω} (h : runFrom (runAll impl silent specs) w = (.ok rs, w'))
    (hv : SameState w v) :
    ∃ v', runFrom (printSpecifications impl specs) v = (.ok (RunResult.success rs), v') ∧
      SameState w' v' ∧
      v'.output.toList = v.output.toList ++ rs.flatMap (·.printed) := by
  induction specs generalizing rs w v with
  | nil =>
      cases h
      exact ⟨v, rfl, hv, by simp⟩
  | cons spec specs ih =>
      obtain ⟨r, later, w₁, hspec, hlater, rfl⟩ := runAll_cons_cases h
      obtain ⟨v₁, hprinted, hv₁, houtput⟩ := printSpecification_prints hspec hv
      obtain ⟨v₂, hothers, hv₂, houtput'⟩ := ih hlater hv₁
      refine ⟨v₂, ?_, hv₂, ?_⟩
      · unfold printSpecifications
        rw [runFrom_bind_of_ok hprinted, runFrom_bind_of_ok hothers]
        rfl
      · rw [houtput', houtput]
        simp

/-- What a check prints for a target and the reports of its specifications. -/
def printedReports (target : String) (rs : RunResult) : List String :=
  if rs.isEmpty then [nothingFound target] else heading target :: rs.flatMap (·.printed)

/-- Noting the files that cannot be loaded changes nothing but the log. -/
theorem runFrom_logFailures (failures : List (Path × Fault)) (w : World ω) :
    ∃ log, runFrom (logFailures failures) w = (.ok (), { w with log }) := by
  induction failures generalizing w with
  | nil => exact ⟨w.log, rfl⟩
  | cons failure failures ih =>
      obtain ⟨file, fault⟩ := failure
      unfold logFailures
      rw [runFrom_bind]
      exact ih _

/-- **A check** of specifications that were found and run without a fault. -/
theorem check_prints {reader : DocumentReader} {loader : HookLoader ω} {s : Surroundings}
    {options : Options} {found : Discovery ω} {rs : RunResult} {w w' : World ω}
    (hfound : Discovery.discover reader loader s.tree s.directory options.path
      (s.environment.targetFor options.target) = .ok found)
    (hrun : runFrom (runAll impl silent found.specifications) w = (.ok rs, w')) :
    ∃ v, runFrom (check impl reader loader s options) w =
        (.ok (codeOf (!found.specifications.isEmpty && RunResult.success rs)), v) ∧
      SameState w' v ∧
      v.output.toList =
        w.output.toList ++ printedReports (s.environment.targetFor options.target) rs := by
  obtain ⟨log, hlogged⟩ := runFrom_logFailures found.failures w
  unfold check
  dsimp only
  rw [hfound, runFrom_bind_of_ok (runFrom_mk_pure (.ok found) w), runFrom_bind_of_ok hlogged]
  unfold printReports printedReports
  cases hspecs : found.specifications with
  | nil =>
      rw [hspecs] at hrun
      cases hrun
      exact ⟨_, rfl, ⟨rfl, rfl⟩, by simp⟩
  | cons spec specs =>
      rw [hspecs] at hrun
      obtain ⟨r, later, -, -, -, rfl⟩ := runAll_cons_cases hrun
      have hstart : SameState w { w with
          log, output := w.output.push (heading (s.environment.targetFor options.target)) } :=
        ⟨rfl, rfl⟩
      obtain ⟨v, hprinted, hv, houtput⟩ := printSpecifications_prints hrun hstart
      refine ⟨v, ?_, hv, ?_⟩
      · change runFrom (Exec.print _ >>= _) _ = _
        rw [runFrom_bind_of_ok (runFrom_print _ _), runFrom_bind_of_ok hprinted]
        rfl
      · rw [houtput]
        simp

end CommandLine

namespace Session

open Run

/-- A test passes exactly if its specification succeeds. -/
theorem verdict_passed_iff {r : SpecificationResult} :
    verdict r = .passed ↔ r.success = true := by
  unfold verdict
  cases herror : r.error with
  | some error =>
      rw [SpecificationResult.success_of_error herror]
      exact iff_of_false nofun nofun
  | none =>
      cases r.success with
      | true => exact iff_of_true rfl rfl
      | false => exact iff_of_false nofun nofun

/-- A session gives a verdict on each report of a silent run, whether or not the
earlier ones pass. -/
theorem runTests_verdicts {specs : List (Specification ω)} {rs : RunResult} {w w' : World ω}
    (h : runFrom (runAll impl silent specs) w = (.ok rs, w')) :
    runFrom (runTests impl specs) w = (.ok (rs.map fun r => (r.package, verdict r)), w') := by
  induction specs generalizing rs w with
  | nil =>
      cases h
      rfl
  | cons spec specs ih =>
      obtain ⟨r, later, w₁, hspec, hlater, rfl⟩ := runAll_cons_cases h
      obtain ⟨hreports, -⟩ := (runSpecification_reported hspec).tally
      unfold runTests
      change runFrom (runSpecification impl silent spec >>= _) w = _
      rw [runFrom_bind_of_ok hspec, runFrom_bind_of_ok (ih hlater), List.map_cons,
        hreports.package]
      rfl

/-- **A session** of specifications that were found and run without a fault. -/
theorem run_verdicts {reader : DocumentReader} {loader : HookLoader ω} {tree : FileTree}
    {directory : Path} {environment : Environment} {options : Options} {arguments : List String}
    {found : Discovery ω} {rs : RunResult} {w w' : World ω}
    (hasks : arguments.contains argumentName = true)
    (hfound : specifications reader loader tree directory environment options = .ok found)
    (hrun : runFrom (runAll impl silent found.specifications) w = (.ok rs, w')) :
    runFrom (run impl reader loader tree directory environment options arguments) w =
      (.ok (some (rs.map fun r => (r.package, verdict r))), w') := by
  unfold run
  rw [if_pos hasks, hfound, runFrom_bind_of_ok (runFrom_mk_pure (.ok found) w),
    runFrom_bind_of_ok (runTests_verdicts hrun)]
  rfl

/-- All tests pass exactly if the run succeeds. -/
theorem all_passed_iff {rs : RunResult} :
    (∀ test ∈ rs.map (fun r => (r.package, verdict r)), test.2 = .passed) ↔
      RunResult.success rs = true := by
  unfold RunResult.success
  rw [List.all_eq_true]
  constructor
  · intro h r hr
    exact verdict_passed_iff.mp (h _ (List.mem_map_of_mem hr))
  · intro h test htest
    obtain ⟨r, hr, rfl⟩ := List.mem_map.mp htest
    exact verdict_passed_iff.mpr (h r hr)

end Session

/-! ## Agreement -/

theorem CommandLine.codeOf_eq_zero_iff {success : Bool} : codeOf success = 0 ↔ success = true := by
  cases success <;> decide

/-- A run that ended without a fault reports every specification. -/
theorem Run.runAll_reports {listener : Listener ω} {specs : List (Specification ω)}
    {rs : RunResult} {w w' : World ω}
    (h : runFrom (runAll impl listener specs) w = (.ok rs, w')) :
    List.Forall₂ Reports specs rs := by
  induction specs generalizing rs w with
  | nil =>
      cases h
      exact .nil
  | cons spec specs ih =>
      obtain ⟨r, later, w₁, hspec, hlater, rfl⟩ := runAll_cons_cases h
      obtain ⟨hreports, -⟩ := (runSpecification_reported hspec).tally
      exact .cons hreports (ih hlater)

open CommandLine Run in
/-- **The command line, a run and a test session agree** on a tree of files, a path and
a target, however documents are read, if no fault escapes from the run.  All three run
every specification that is found, in order, from the same state; the command line gives
0 exactly if there is one and the run succeeds, and exactly if there is one and all tests
pass. -/
theorem front_ends_agree (impl : Implementation ω) (reader : DocumentReader)
    (loader : HookLoader ω) (s : Surroundings) (arguments testArguments : List String)
    (options : CommandLine.Options) (testOptions : Session.Options) (found : Discovery ω)
    (rs : RunResult) (w w' : World ω)
    (hrequest : request arguments = .ok (.check options))
    (hasks : testArguments.contains Session.argumentName = true)
    (hpath : s.environment.pathFor testOptions.path = options.path)
    (htarget : s.environment.targetFor testOptions.target =
      s.environment.targetFor options.target)
    (hfound : Discovery.discover reader loader s.tree s.directory options.path
      (s.environment.targetFor options.target) = .ok found)
    (hrun : runFrom (runAll impl silent found.specifications) w = (.ok rs, w')) :
    ∃ code tests v v',
      runFrom (program impl reader loader s arguments) w = (.ok code, v) ∧
      runFrom (Session.run impl reader loader s.tree s.directory s.environment testOptions
        testArguments) w = (.ok (some tests), v') ∧
      (code = 0 ↔ found.specifications ≠ [] ∧ RunResult.success rs = true) ∧
      (code = 0 ↔ found.specifications ≠ [] ∧ ∀ test ∈ tests, test.2 = .passed) ∧
      List.Forall₂ Reports found.specifications rs ∧
      tests = rs.map (fun r => (r.package, Session.verdict r)) ∧
      v.output.toList =
        w.output.toList ++ printedReports (s.environment.targetFor options.target) rs := by
  obtain ⟨v, hchecked, -, houtput⟩ := check_prints hfound hrun
  have hprogram : runFrom (program impl reader loader s arguments) w =
      (.ok (codeOf (!found.specifications.isEmpty && RunResult.success rs)), v) := by
    unfold program
    rw [hrequest]
    exact hchecked
  have hspecifications : Session.specifications reader loader s.tree s.directory s.environment
      testOptions = .ok found := by
    unfold Session.specifications
    rw [hpath, htarget, hfound]
  have hsession := Session.run_verdicts hasks hspecifications hrun
  have hcode : codeOf (!found.specifications.isEmpty && RunResult.success rs) = 0 ↔
      found.specifications ≠ [] ∧ RunResult.success rs = true := by
    rw [codeOf_eq_zero_iff, Bool.and_eq_true, Bool.not_eq_true', List.isEmpty_eq_false_iff]
  refine ⟨_, _, v, w', hprogram, hsession, hcode, ?_, runAll_reports hrun, rfl, houtput⟩
  rw [Session.all_passed_iff]
  exact hcode

/-! ## A tree with one declaration -/

section Declaration

open CommandLine Run

/-- What is found is one file that does nothing but declare the package `p`. -/
def Discovery.isDeclaration : Except Fault (Discovery Sample.Object) → Bool
  | .ok ⟨[⟨package, [⟨text, false, .bind target (.scalar (.str value))⟩], [], [file], none⟩], []⟩ =>
    package == "p" && text == listDeclaration.text && target == "PACKAGE" && value == "p" &&
      file == "/packspec.yml"
  | _ => false

/-- The specification of that file. -/
def declaredSpecification : Specification Sample.Object :=
  ⟨"p", [listDeclaration], [], ["/packspec.yml"], none⟩

theorem Discovery.eq_of_isDeclaration {found : Except Fault (Discovery Sample.Object)}
    (h : isDeclaration found = true) : found = .ok ⟨[declaredSpecification], []⟩ := by
  unfold isDeclaration at h
  split at h
  · simp only [Bool.and_eq_true, beq_iff_eq] at h
    obtain ⟨⟨⟨⟨rfl, rfl⟩, rfl⟩, rfl⟩, rfl⟩ := h
    rfl
  · cases h

/-- The loader of sources that define nothing. -/
def emptyLoader : HookLoader Sample.Object := fun _ _ => .ok []

/-- A root directory with one file. -/
def declaringSurroundings : Surroundings :=
  ⟨[(["packspec.yml"], .file (.ok ("- PACKAGE: p\n".toList.map fun c => UInt8.ofNat c.toNat)))],
    ⟨.root, []⟩, ⟨none, none⟩⟩

theorem declaring_found :
    Discovery.discover Yaml.documents emptyLoader declaringSurroundings.tree
      declaringSurroundings.directory none "py" = .ok ⟨[declaredSpecification], []⟩ :=
  Discovery.eq_of_isDeclaration (by decide +kernel)

theorem declaring_runs : ∃ w',
    runFrom (runAll listImplementation silent [declaredSpecification]) (World.ofStore listStore) =
      (.ok [⟨"p", [⟨listDeclaration, .passed, .str "p", none⟩], 1, 0, none, some 0⟩], w') := by
  obtain ⟨log, hdeclared⟩ := listDeclaration_passes
  have hbuilt : runFrom (buildScope listImplementation declaredSpecification)
      (World.ofStore listStore) = (.ok 0, listWorld [] #[]) := rfl
  have hnone : runFrom (runFeatures listImplementation silent 0 [])
      (listWorld [("PACKAGE", .str "p")] log) =
        (.ok ([], none), listWorld [("PACKAGE", .str "p")] log) := rfl
  have hspec := runSpecification_stages rfl hbuilt (runFeatures_cons hdeclared rfl hnone)
  exact ⟨_, runAll_cons hspec rfl⟩

/-- The command line gives 0, and the one test passes. -/
theorem declaring_agrees :
    request [] = .ok (.check ⟨none, none, false⟩) ∧
    ["request", "packspec_spec"].contains Session.argumentName = true ∧
    declaringSurroundings.environment.pathFor (some "") = none ∧
    declaringSurroundings.environment.targetFor none = "py" ∧
    ∃ w', (∃ rs, runFrom (runAll listImplementation silent [declaredSpecification])
        (World.ofStore listStore) = (.ok rs, w')) ∧
      ∃ v v', runFrom (program listImplementation Yaml.documents emptyLoader
          declaringSurroundings []) (World.ofStore listStore) = (.ok 0, v) ∧
        runFrom (Session.run listImplementation Yaml.documents emptyLoader
          declaringSurroundings.tree declaringSurroundings.directory
          declaringSurroundings.environment ⟨some "", none⟩ ["request", "packspec_spec"])
          (World.ofStore listStore) = (.ok (some [("p", .passed)]), v') := by
  have hrequest : request [] = .ok (.check ⟨none, none, false⟩) := by decide +kernel
  have hasks : ["request", "packspec_spec"].contains Session.argumentName = true := by decide
  have hpath : declaringSurroundings.environment.pathFor (some "") = none := by decide
  obtain ⟨w', hrun⟩ := declaring_runs
  obtain ⟨code, tests, v, v', hprogram, hsession, hcode, -, -, rfl, -⟩ :=
    front_ends_agree listImplementation Yaml.documents emptyLoader declaringSurroundings []
      ["request", "packspec_spec"] ⟨none, none, false⟩ ⟨some "", none⟩ _ _ _ _ hrequest hasks hpath
      rfl declaring_found hrun
  obtain rfl : code = 0 := hcode.mpr ⟨List.cons_ne_nil _ _, rfl⟩
  exact ⟨hrequest, hasks, hpath, rfl, w', ⟨_, hrun⟩, v, v', hprogram, hsession⟩

end Declaration

end Conformance
