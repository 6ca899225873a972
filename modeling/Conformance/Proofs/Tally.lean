import Conformance.Proofs.Escape
import Conformance.Run.Report

/-!
# The counts of a report

The totals of a report are counted on the features before they run; what passed,
failed and was skipped is counted on the results.  The two agree because the
status of a result is settled by its feature as far as the totals can see:
`FeatureResult.Fits` says so of one result, and every result of a run fits.

From this `report_counts` accounts for every feature of a specification that has a
report: if nothing ended the run, then each feature is skipped, passed or failed
(or a comment), and the specification succeeds exactly when as many passed as were
to be tested.
-/

namespace Conformance

variable {ω : Type}

/-- The feature is neither a comment nor skipped. -/
def Feature.isTested (f : Feature) : Bool := !f.isComment && !f.skip

/-- The result is a verdict on a tested feature. -/
def FeatureResult.isTested (r : FeatureResult) : Bool :=
  r.status == .passed || r.status == .failed

theorem Feature.isTested_iff {f : Feature} :
    f.isTested = true ↔ f.isComment = false ∧ f.skip = false := by
  unfold isTested
  rw [Bool.and_eq_true, Bool.not_eq_true', Bool.not_eq_true']

/-- The features that are no comment are those skipped and those tested. -/
theorem Specification.tests_eq (fs : List Feature) :
    (statsOf fs).tests = (statsOf fs).skipped + fs.countP (·.isTested) := by
  unfold statsOf
  induction fs with
  | nil => rfl
  | cons f fs ih =>
      dsimp only at ih ⊢
      rw [List.countP_cons, List.countP_cons, List.countP_cons, ih, Feature.isTested]
      cases f.isComment <;> cases f.skip <;> simp <;> omega

namespace FeatureResult

/-- The status of a result is one that its feature can have. -/
structure Fits (r : FeatureResult) : Prop where
  skipped : (r.status == .skipped) = (!r.feature.isComment && r.feature.skip)
  tested : r.isTested = r.feature.isTested

/-- Every verdict on a tested feature is that it passed or that it failed. -/
theorem countP_verdicts (rs : List FeatureResult) :
    rs.countP (·.isTested) =
      rs.countP (fun r => r.status == .passed) + rs.countP (fun r => r.status == .failed) := by
  induction rs with
  | nil => rfl
  | cons r rs ih =>
      rw [List.countP_cons, List.countP_cons, List.countP_cons, ih, isTested]
      cases r.status <;> simp <;> omega

variable {rs : List FeatureResult} (h : ∀ r ∈ rs, r.Fits)
include h

/-- As many results are skipped as features are. -/
theorem countP_skipped :
    rs.countP (fun r => r.status == .skipped) =
      (Specification.statsOf (rs.map (·.feature))).skipped := by
  change _ = (rs.map (·.feature)).countP (fun f => !f.isComment && f.skip)
  rw [List.countP_map]
  refine List.countP_congr fun r hr => ?_
  rw [(h r hr).skipped]
  rfl

/-- As many results are verdicts as features are tested. -/
theorem countP_tested :
    rs.countP (·.isTested) = (rs.map (·.feature)).countP (·.isTested) := by
  rw [List.countP_map]
  refine List.countP_congr fun r hr => ?_
  rw [(h r hr).tested]
  rfl

end FeatureResult

namespace SpecificationResult

/-- Summary with a mark and two counts. -/
def countLine (mark : String) (package : String) (passed tested : Int) : String :=
  " " ++ mark ++ "  " ++ package ++ ": " ++ countText passed ++ "/" ++ countText tested

/-- The lines of success and of failure differ in their marks. -/
theorem countLine_ne (package package' : String) (p t p' t' : Int) :
    countLine "+" package p t ≠ countLine "x" package' p' t' := by
  intro h
  have hchars := congrArg (fun line => line.toList[1]?) h
  simp [countLine, String.toList_append] at hchars

/-- The summary of a report without an error tells its counts. -/
theorem summary_of_none {r : SpecificationResult} (h : r.error = none) :
    r.summary =
      countLine (if r.success then "+" else "x") r.package r.passedCount r.testedCount := by
  unfold summary
  rw [h]
  cases r.success with
  | true => rfl
  | false => rfl

/-- No feature failed exactly when the number of failures is zero. -/
theorem success_iff {r : SpecificationResult} :
    r.success = true ↔
      r.error = none ∧ r.results.countP (fun f => f.status == .failed) = 0 := by
  unfold success failed
  rw [Bool.and_eq_true, Option.isNone_iff_eq_none, List.isEmpty_iff_length_eq_zero,
    List.countP_eq_length_filter]

/-- A report with an error is not one of success. -/
theorem success_of_error {r : SpecificationResult} {error : String} (h : r.error = some error) :
    r.success = false := by
  unfold success
  rw [h]
  rfl

end SpecificationResult

namespace Run

variable {impl : Implementation ω} {listener : Listener ω}

/-- **The result of a feature fits it**: a comment is no verdict and not skipped, a
feature to be skipped is, and a tested feature passes or fails. -/
theorem runFeature_fits {scope : ScopeId} {f : Feature} {r : FeatureResult} {w w' : World ω}
    (h : runFrom (runFeature impl scope f) w = (.ok r, w')) : r.Fits := by
  by_cases htested : f.isComment = false ∧ f.skip = false
  · obtain ⟨outcome, w₁, w₂, -, -, hjudged⟩ := runFeature_ok htested h
    have hfeature : f.isTested = true := Feature.isTested_iff.mpr htested
    obtain ⟨hcomment, hskip⟩ := htested
    have hskipped : (!f.isComment && f.skip) = false := by rw [hcomment, hskip]; rfl
    cases judge_judged hjudged with
    | passed _ => exact ⟨hskipped.symm, hfeature.symm⟩
    | failed _ _ => exact ⟨hskipped.symm, hfeature.symm⟩
  · have hfeature : f.isTested = false := by grind [Feature.isTested_iff]
    unfold runFeature at h
    by_cases hcomment : f.isComment = true
    · rw [if_pos hcomment] at h
      cases h
      exact ⟨by simp [hcomment], hfeature.symm⟩
    · have hskip : f.skip = true := by grind
      rw [if_neg hcomment, if_pos hskip] at h
      cases h
      exact ⟨by simp [hcomment, hskip], hfeature.symm⟩

/-- What is known of features that ran, whoever listened: their results stand in
order, all have one unless a fault stopped them, and each result fits. -/
theorem runFeatures_tally {scope : ScopeId} {fs : List Feature} {rs : List FeatureResult}
    {stop : Option Fault} {w w' : World ω}
    (h : runFrom (runFeatures impl listener scope fs) w = (.ok (rs, stop), w')) :
    ReportsFeatures fs rs stop ∧ ∀ r ∈ rs, r.Fits := by
  induction fs generalizing rs w with
  | nil =>
      cases h
      exact ⟨⟨List.nil_prefix, fun _ => rfl⟩, fun _ hr => absurd hr List.not_mem_nil⟩
  | cons f fs ih =>
      rcases runFeatures_cons_cases h with
        ⟨fault, -, rfl, rfl⟩ | ⟨r, later, w₁, w₂, hf, -, hlater, rfl⟩
      · exact ⟨⟨List.nil_prefix, nofun⟩, fun _ hr => absurd hr List.not_mem_nil⟩
      · obtain ⟨⟨hfirst, hcomplete⟩, hfits⟩ := ih hlater
        have hfeature : r.feature = f := runFeature_feature hf
        refine ⟨⟨?_, fun hstop => ?_⟩, ?_⟩
        · rw [List.map_cons, hfeature]
          exact (List.prefix_cons_inj f).mpr hfirst
        · rw [List.map_cons, hfeature, hcomplete hstop]
        · intro r' hr'
          rcases List.mem_cons.mp hr' with rfl | hr'
          · exact runFeature_fits hf
          · exact hfits r' hr'

/-- The report of a specification is that of its features, and each result fits. -/
theorem Reported.tally {spec : Specification ω} {r : SpecificationResult} {w w' : World ω}
    (h : Reported impl listener spec w r w') : Reports spec r ∧ ∀ f ∈ r.results, f.Fits := by
  cases h with
  | unread _ =>
      exact ⟨⟨rfl, rfl, rfl, List.nil_prefix, nofun⟩, fun _ hf => absurd hf List.not_mem_nil⟩
  | unbuilt _ _ =>
      exact ⟨⟨rfl, rfl, rfl, List.nil_prefix, nofun⟩, fun _ hf => absurd hf List.not_mem_nil⟩
  | ran _ _ hrun =>
      obtain ⟨hreports, hfits⟩ := runFeatures_tally hrun
      refine ⟨⟨rfl, rfl, rfl, hreports.inOrder, fun hnone => ?_⟩, hfits⟩
      exact hreports.complete (Option.map_eq_none_iff.mp hnone)

/-- The number of features to be tested is counted on the features. -/
theorem Reports.testedCount_eq {spec : Specification ω} {r : SpecificationResult}
    (h : Reports spec r) : r.testedCount = (spec.features.countP (·.isTested) : Nat) := by
  have htests := Specification.tests_eq spec.features
  unfold SpecificationResult.testedCount
  rw [h.total, h.skipped]
  unfold Specification.stats
  omega

namespace Reported

variable {spec : Specification ω} {r : SpecificationResult} {w w' : World ω}
  (h : Reported impl listener spec w r w')
include h

/-- The features that passed and those that failed are the tested ones among those that
have a result. -/
theorem passed_add_failed :
    r.passedCount + r.results.countP (fun f => f.status == .failed) =
      (r.results.map (·.feature)).countP (·.isTested) := by
  obtain ⟨-, hfits⟩ := h.tally
  have hverdicts := FeatureResult.countP_verdicts r.results
  rw [FeatureResult.countP_tested hfits] at hverdicts
  exact hverdicts.symm

/-- No more features pass than were to be tested. -/
theorem passed_le : (r.passedCount : Int) ≤ r.testedCount := by
  obtain ⟨hreports, -⟩ := h.tally
  have hverdicts := h.passed_add_failed
  have hle : (r.results.map (·.feature)).countP (·.isTested) ≤
      spec.features.countP (·.isTested) := hreports.inOrder.sublist.countP_le
  rw [hreports.testedCount_eq]
  omega

/-- If nothing ended the run, every feature that was to be tested has a verdict. -/
theorem passed_add_failed_eq (hnone : r.error = none) :
    ((r.passedCount + r.results.countP (fun f => f.status == .failed) : Nat) : Int) =
      r.testedCount := by
  obtain ⟨hreports, -⟩ := h.tally
  rw [h.passed_add_failed, hreports.complete hnone, hreports.testedCount_eq]

/-- If nothing ended the run, it succeeded exactly if all that was tested passed. -/
theorem success_iff (hnone : r.error = none) :
    r.success = true ↔ (r.passedCount : Int) = r.testedCount := by
  have hall := h.passed_add_failed_eq hnone
  rw [SpecificationResult.success_iff]
  constructor
  · intro hboth
    omega
  · intro heq
    exact ⟨hnone, by omega⟩

end Reported

/-- **The counts of a report account for every feature.**  The results are those of a
first part of the features.  Without an error they are those of all of them, and
passing is what the counts say it is; with one, the specification does not succeed. -/
theorem report_counts (impl : Implementation ω) (listener : Listener ω) (spec : Specification ω)
    (w w' : World ω) (r : SpecificationResult)
    (h : runFrom (runSpecification impl listener spec) w = (.ok r, w')) :
    r.results.map (·.feature) <+: spec.features ∧
    (r.error = none →
      r.results.map (·.feature) = spec.features ∧
      r.results.countP (fun f => f.status == .skipped) = r.skipped ∧
      ((r.results.countP (fun f => f.status == .passed) +
        r.results.countP (fun f => f.status == .failed) : Nat) : Int) = r.testedCount ∧
      (r.success = true ↔ (r.passedCount : Int) = r.testedCount) ∧
      (r.success = true →
        r.summary = SpecificationResult.countLine "+" r.package r.testedCount r.testedCount) ∧
      (r.success = false →
        (r.passedCount : Int) < r.testedCount ∧
        r.summary = SpecificationResult.countLine "x" r.package r.passedCount r.testedCount) ∧
      ((∃ n, r.summary = SpecificationResult.countLine "+" r.package n n) ↔ r.success = true)) ∧
    ∀ error, r.error = some error →
      r.success = false ∧ (r.passedCount : Int) ≤ r.testedCount ∧
      r.summary = " !  " ++ r.package ++ ": specification error: " ++ error := by
  have hreported := runSpecification_reported h
  obtain ⟨hreports, hfits⟩ := hreported.tally
  have hle := hreported.passed_le
  refine ⟨hreports.inOrder, fun hnone => ?_, fun error herror =>
    ⟨SpecificationResult.success_of_error herror, hle, ?_⟩⟩
  · have hcomplete := hreports.complete hnone
    have hsuccess := hreported.success_iff hnone
    have hsummary := SpecificationResult.summary_of_none hnone
    refine ⟨hcomplete, ?_, hreported.passed_add_failed_eq hnone, hsuccess, ?_, ?_, ?_⟩
    · rw [FeatureResult.countP_skipped hfits, hcomplete, hreports.skipped]
      rfl
    · intro htrue
      rw [hsummary, htrue, hsuccess.mp htrue]
      rfl
    · intro hfalse
      rw [hfalse] at hsummary hsuccess
      have hne : (r.passedCount : Int) ≠ r.testedCount := fun heq => nomatch hsuccess.mpr heq
      exact ⟨by omega, hsummary⟩
    · constructor
      · rintro ⟨n, hline⟩
        cases htrue : r.success with
        | true => rfl
        | false =>
            rw [hsummary, htrue] at hline
            exact absurd hline.symm (SpecificationResult.countLine_ne _ _ _ _ _ _)
      · intro htrue
        rw [hsummary, htrue, hsuccess.mp htrue]
        exact ⟨_, rfl⟩
  · unfold SpecificationResult.summary
    rw [herror]

/-! ## A run with something of each kind -/

/-- A comment for another target. -/
def notedFeature : Feature := .ofAction true (.comment "later")

/-- Expects 5 of a name that is not bound. -/
def goneReading (skip : Bool) : Feature := .ofAction skip (.read none "gone" (.scalar (.int 5)))

/-- A specification with a declaration, a comment, a feature that is skipped and one
that is not. -/
def mixedSpecification : Specification Sample.Object :=
  ⟨"p", [listDeclaration, notedFeature, goneReading true, goneReading false], [], [], none⟩

/-- The result of the reading that is not skipped. -/
def goneResult : FeatureResult :=
  ⟨goneReading false, .failed, .error, some "Exception: LookupError: 'gone' is not bound"⟩

/-- The report of the specification. -/
def mixedReport : SpecificationResult :=
  ⟨"p", [⟨listDeclaration, .passed, .str "p", none⟩, ⟨notedFeature, .comment, .null, none⟩,
    ⟨goneReading true, .skipped, .null, none⟩, goneResult], 3, 1, none, some 0⟩

/-- The worlds behind the declaration. -/
def declaredWorld (log : Array Record) : World Sample.Object := listWorld [("PACKAGE", .str "p")] log

theorem goneReading_fails (log : Array Record) : ∃ log',
    runFrom (runFeature listImplementation 0 (goneReading false)) (declaredWorld log) =
      (.ok goneResult, declaredWorld log') := by
  have hspellings : Name.spellings "gone" = ["gone"] := by decide +kernel
  have hexecuted : runFrom (execute listImplementation 0 (goneReading false)) (declaredWorld log) =
      (.ok (.failed (.resolved (.int 5)) (.unbound "gone")), declaredWorld log) := by
    rw [execute_read rfl rfl, runFrom_readOperand_plain _ (by decide) (by decide), hspellings]
    rfl
  rw [runFeature_of_tested ⟨rfl, rfl⟩, runFrom_bind_of_ok hexecuted]
  exact ⟨_, judge_failed (goneReading false) (hasForm_int 5) rfl rfl _ _⟩

theorem mixedSpecification_runs : ∃ w',
    runFrom (runSpecification listImplementation (fun _ => pure ()) mixedSpecification)
      (World.ofStore listStore) = (.ok mixedReport, w') := by
  have hbuilt : runFrom (buildScope listImplementation mixedSpecification)
      (World.ofStore listStore) = (.ok 0, listWorld [] #[]) := rfl
  obtain ⟨log, hdeclared⟩ := listDeclaration_passes
  have hnoted : runFrom (runFeature listImplementation 0 notedFeature) (declaredWorld log) =
      (.ok ⟨notedFeature, .comment, .null, none⟩, declaredWorld log) := rfl
  have hskipped : runFrom (runFeature listImplementation 0 (goneReading true)) (declaredWorld log) =
      (.ok ⟨goneReading true, .skipped, .null, none⟩,
        declaredWorld (log.push ⟨.debug, .runner, "Skipped " ++ (goneReading true).text⟩)) := rfl
  obtain ⟨log', hgone⟩ := goneReading_fails
    (log.push ⟨.debug, .runner, "Skipped " ++ (goneReading true).text⟩)
  have hlast : runFrom (runFeatures listImplementation (fun _ => pure ()) 0 [goneReading false])
      (declaredWorld (log.push ⟨.debug, .runner, "Skipped " ++ (goneReading true).text⟩)) =
        (.ok ([goneResult], none), declaredWorld log') :=
    runFeatures_cons hgone rfl rfl
  have hrun := runFeatures_cons hdeclared rfl
    (runFeatures_cons hnoted rfl (runFeatures_cons hskipped rfl hlast))
  exact ⟨_, runSpecification_stages rfl hbuilt hrun⟩

/-- One of two features passes, and the summary says so. -/
theorem mixed_counts :
    ∃ r w', runFrom (runSpecification listImplementation (fun _ => pure ()) mixedSpecification)
        (World.ofStore listStore) = (.ok r, w') ∧
      r.error = none ∧ r.results.length = 4 ∧ r.skipped = 1 ∧ r.success = false ∧
      r.summary = " x  p: 1/2" := by
  obtain ⟨w', hrun⟩ := mixedSpecification_runs
  obtain ⟨-, hnone, -⟩ := report_counts _ _ _ _ _ _ hrun
  obtain ⟨-, -, -, -, -, hfailed, -⟩ := hnone rfl
  obtain ⟨-, hsummary⟩ := hfailed rfl
  exact ⟨_, w', hrun, rfl, rfl, rfl, rfl, hsummary.trans (by decide)⟩

end Run

end Conformance
