import Conformance.Proofs.FrontEnds

/-!
# The streamed report

The command line prints the line of each feature as soon as it is judged, and the summary of a
specification at its end.  A report is rendered from the results that are kept.  The two texts are
the same, up to the line of dashes in front and two line ends behind, because each result that is
kept is printed once, before the next feature starts, on every way through a run.

`StreamsReport` says so of the run of one specification, at its end and between two features, and
`streamed_report` of every list of specifications from which no fault escapes.
-/

namespace Conformance

/-! ## Lines of text -/

/-- Lines as they are written, each with its line end. -/
def written (lines : List String) : String := String.join (lines.map (· ++ "\n"))

theorem written_append (lines more : List String) :
    written (lines ++ more) = written lines ++ written more := by
  unfold written
  rw [List.map_append, String.join_append]

/-- Lines between line ends, and a line end behind the last. -/
theorem written_eq_intercalate {lines : List String} (h : lines ≠ []) :
    written lines = "\n".intercalate lines ++ "\n" := by
  induction lines with
  | nil => exact absurd rfl h
  | cons line lines ih =>
      unfold written at ih ⊢
      cases lines with
      | nil => simp
      | cons next rest =>
          rw [List.map_cons, String.join_cons, ih (List.cons_ne_nil next rest),
            String.intercalate_cons_cons]
          simp only [String.append_assoc]

/-- The text that was printed. -/
def World.text {ω : Type} (w : World ω) : String := written w.output.toList

/-- **What is printed of a specification** is its report between a line of dashes and two line
ends. -/
theorem SpecificationResult.written_printed (r : SpecificationResult) :
    written r.printed = "---\n" ++ r.format ++ "\n\n" := by
  have hlines : r.printed = ["---"] ++ (r.results.map (·.format) ++ ["", r.summary]) ++ [""] := by
    unfold printed
    simp
  have hsome : r.results.map (·.format) ++ ["", r.summary] ≠ [] := by simp
  rw [hlines, written_append, written_append, written_eq_intercalate hsome]
  unfold format
  simp [written, String.append_assoc]

/-- What is printed is added to the text. -/
theorem World.text_of_output {ω : Type} {w w' : World ω} {lines : List String}
    (h : w'.output.toList = w.output.toList ++ lines) : w'.text = w.text ++ written lines := by
  unfold text
  rw [h, written_append]

namespace CommandLine

open Run

variable {ω : Type} {impl : Implementation ω}

/-! ## One specification -/

/-- The world behind the line of dashes. -/
def dashed (w : World ω) : World ω := { w with output := w.output.push "---" }

theorem text_dashed (w : World ω) : (dashed w).text = w.text ++ "---\n" := by
  have houtput : (dashed w).output.toList = w.output.toList ++ ["---"] := Array.toList_push
  rw [World.text_of_output houtput]
  rfl

/-- Some features of a specification that is run have given results, and none of them was stopped:
the next one starts. -/
def Reaches (impl : Implementation ω) (spec : Specification ω) (w : World ω)
    (before : List Feature) (rs : List FeatureResult) (w₁ : World ω) : Prop :=
  spec.error = none ∧ before <+: spec.features ∧
    ∃ scope w₀, runFrom (buildScope impl spec) w = (.ok scope, w₀) ∧
      runFrom (runFeatures impl printResult scope before) w₀ = (.ok (rs, none), w₁)

/-- **Streaming a report.**  The report of a specification is printed on the way from one world
to another.  Whenever a feature starts, the results of those before it are kept and printed, and
nothing else is; at the end the whole report is there, with two line ends behind it. -/
structure StreamsReport (impl : Implementation ω) (spec : Specification ω)
    (r : SpecificationResult) (w w' : World ω) : Prop where
  reported : ∃ w₁, runFrom (runSpecification impl printResult spec) (dashed w) = (.ok r, w₁)
  asJudged : ∀ before rs w₁, Reaches impl spec (dashed w) before rs w₁ →
    rs <+: r.results ∧ w₁.text = w.text ++ "---\n" ++ written (rs.map (·.format))
  text : w'.text = w.text ++ "---\n" ++ r.format ++ "\n\n"

/-- The results that are there when a feature starts are kept and printed. -/
theorem Reaches.printed {spec : Specification ω} {r : SpecificationResult} {w w' w₁ : World ω}
    {before : List Feature} {rs : List FeatureResult}
    (h : runFrom (runSpecification impl printResult spec) w = (.ok r, w'))
    (hreaches : Reaches impl spec w before rs w₁) :
    rs <+: r.results ∧ w₁.text = w.text ++ written (rs.map (·.format)) := by
  obtain ⟨hread, ⟨after, hfeatures⟩, scope, w₀, hbuilt, hrun⟩ := hreaches
  constructor
  · cases runSpecification_reported h with
    | unread hbad =>
        rw [hread] at hbad
        cases hbad
    | unbuilt _ hfault =>
        rw [hbuilt] at hfault
        cases hfault
    | ran _ hbuilt' hrun' =>
        rw [hbuilt] at hbuilt'
        cases hbuilt'
        rw [← hfeatures, runFeatures_append, hrun] at hrun'
        dsimp only at hrun'
        rcases hlater : runFrom (runFeatures impl printResult scope after) w₁ with
          ⟨fault | ⟨later, stop⟩, w₂⟩
        · rw [hlater] at hrun'
          cases hrun'
        · rw [hlater] at hrun'
          cases hrun'
          exact List.prefix_append rs later
  · have hsame : SameOutput w (runFrom (buildScope impl spec) w).2 := buildScope_sameOutput spec w
    have houtput := runFeatures_prints hrun
    rw [hbuilt] at hsame
    rw [hsame] at houtput
    exact World.text_of_output houtput

/-- A specification that is printed streams its report, which is that of a silent run. -/
theorem printSpecification_streams {spec : Specification ω} {success : Bool} {w w' v : World ω}
    (h : runFrom (printSpecification impl spec) w = (.ok success, w')) (hv : SameState w v) :
    ∃ r v', success = r.success ∧ StreamsReport impl spec r w w' ∧
      runFrom (runSpecification impl silent spec) v = (.ok r, v') ∧ SameState w' v' := by
  unfold printSpecification at h
  rw [runFrom_bind_of_ok (runFrom_print "---" w)] at h
  obtain ⟨r, w₁, hrun, hrest⟩ := bind_eq_ok_iff.mp h
  rw [runFrom_bind_of_ok (runFrom_print "" _), runFrom_bind_of_ok (runFrom_print r.summary _),
    runFrom_bind_of_ok (runFrom_print "" _)] at hrest
  cases hrest
  have houtput := runSpecification_prints hrun
  have hstart : SameState (dashed w) v := ⟨hv.store, hv.scopes⟩
  obtain ⟨v', hsilent, hv'⟩ :=
    (runSpecification_agree printResult_reportsOnly silent_reportsOnly spec).run_eq hstart hrun
  refine ⟨r, v', rfl, ⟨⟨w₁, hrun⟩, fun before rs w₂ hreaches => ?_, ?_⟩, hsilent,
    hv'.store, hv'.scopes⟩
  · rw [← text_dashed]
    exact hreaches.printed hrun
  · have hlines : (((w₁.output.push "").push r.summary).push "").toList =
        w.output.toList ++ r.printed := by
      rw [Array.toList_push, Array.toList_push, Array.toList_push, houtput]
      simp [SpecificationResult.printed]
    rw [World.text_of_output hlines, r.written_printed]
    simp only [String.append_assoc]

/-! ## All specifications -/

/-- The reports of specifications are streamed one after another. -/
inductive StreamsReports (impl : Implementation ω) :
    List (Specification ω) → RunResult → World ω → World ω → Prop
  | nil (w : World ω) : StreamsReports impl [] [] w w
  | cons {spec : Specification ω} {specs : List (Specification ω)} {r : SpecificationResult}
      {rs : RunResult} {w w₁ w₂ : World ω} (hspec : StreamsReport impl spec r w w₁)
      (hlater : StreamsReports impl specs rs w₁ w₂) :
      StreamsReports impl (spec :: specs) (r :: rs) w w₂

/-- The text of reports that are streamed one after another. -/
theorem StreamsReports.text {specs : List (Specification ω)} {rs : RunResult} {w w' : World ω}
    (h : StreamsReports impl specs rs w w') :
    w'.text = w.text ++ String.join (rs.map fun r => "---\n" ++ r.format ++ "\n\n") := by
  induction h with
  | nil w => simp
  | cons hspec hlater ih =>
      rw [ih, hspec.text, List.map_cons, String.join_cons]
      simp only [String.append_assoc]

/-- Specifications that are printed stream their reports, which are those of a silent run. -/
theorem printSpecifications_streams {specs : List (Specification ω)} {success : Bool}
    {w w' v : World ω} (h : runFrom (printSpecifications impl specs) w = (.ok success, w'))
    (hv : SameState w v) :
    ∃ rs v', success = RunResult.success rs ∧ StreamsReports impl specs rs w w' ∧
      runFrom (runAll impl silent specs) v = (.ok rs, v') := by
  induction specs generalizing success w v with
  | nil =>
      cases h
      exact ⟨[], v, rfl, .nil _, rfl⟩
  | cons spec specs ih =>
      unfold printSpecifications at h
      obtain ⟨first, w₁, hspec, hrest⟩ := bind_eq_ok_iff.mp h
      obtain ⟨others, w₂, hlater, hend⟩ := bind_eq_ok_iff.mp hrest
      cases hend
      obtain ⟨r, v₁, rfl, hstreams, hsilent, hv₁⟩ := printSpecification_streams hspec hv
      obtain ⟨rs, v₂, rfl, hstreams', hsilent'⟩ := ih hlater hv₁
      exact ⟨r :: rs, v₂, rfl, .cons hstreams hstreams', runAll_cons hsilent hsilent'⟩

/-- **The streamed report is the rendered one.**  If no fault escapes, the specifications come to
the reports that a run without any output gives, and they succeed if these do.  Each report is
streamed, and behind its line of dashes the text is what rendering the report gives, with two
line ends.  This holds of every specification, whether it runs to its end or is ended by a mistake
of the author, before its first feature or at a later one. -/
theorem streamed_report {specs : List (Specification ω)} {success : Bool} {w w' : World ω}
    (h : runFrom (printSpecifications impl specs) w = (.ok success, w')) :
    ∃ rs v, runFrom (runAll impl silent specs) w = (.ok rs, v) ∧
      success = RunResult.success rs ∧ StreamsReports impl specs rs w w' ∧
      w'.text = w.text ++ String.join (rs.map fun r => "---\n" ++ r.format ++ "\n\n") := by
  obtain ⟨rs, v, hsuccess, hstreams, hsilent⟩ := printSpecifications_streams h (.refl w)
  exact ⟨rs, v, hsilent, hsuccess, hstreams, hstreams.text⟩

/-! ### Two specifications that are ended -/

/-- Sets a member of something that is not bound. -/
def strayFeature : Feature := .ofAction false (.bind "nope.x" (.scalar (.int 1)))

/-- The first specification is ended by its second feature, the other before any. -/
def endedSpecifications : List (Specification Sample.Object) :=
  [⟨"p", [listDeclaration, strayFeature], [], [], none⟩,
    ⟨"q", [], [], [], some (.hooksUnloadable "q.py" "boom")⟩]

/-- The assignment is a mistake of the author. -/
theorem strayFeature_stops (log : Array Record) :
    runFrom (runFeature listImplementation 0 strayFeature)
        (listWorld [("PACKAGE", .str "p")] log) =
      (.error (.invalidAssignment "nope.x" "'nope' is not bound"),
        listWorld [("PACKAGE", .str "p")] log) := by
  have hexecuted : runFrom (execute listImplementation 0 strayFeature)
      (listWorld [("PACKAGE", .str "p")] log) =
        (.ok (.done (.int 1) (.int 1)), listWorld [("PACKAGE", .str "p")] log) := rfl
  have hbound : runFrom (bindOutcome listImplementation 0 strayFeature
      (Outcome.done (.int 1) (.int 1)).value) (listWorld [("PACKAGE", .str "p")] log) =
        (.error (.invalidAssignment "nope.x" "'nope' is not bound"),
          listWorld [("PACKAGE", .str "p")] log) := rfl
  rw [runFeature_of_tested ⟨rfl, rfl⟩, runFrom_bind_of_ok hexecuted, runFrom_bind, hbound]

/-- A silent run of the two. -/
theorem endedSpecifications_run : ∃ w',
    runFrom (runAll listImplementation silent endedSpecifications) (World.ofStore listStore) =
      (.ok [⟨"p", [⟨listDeclaration, .passed, .str "p", none⟩], 2, 0,
          some "InvalidAssignment: Can't assign nope.x: 'nope' is not bound", some 0⟩,
        ⟨"q", [], 0, 0,
          some "SpecificationError: Failed to load hooks from q.py: boom", none⟩], w') := by
  obtain ⟨log, hdeclared⟩ := listDeclaration_passes
  have hbuilt : runFrom (buildScope listImplementation
      ⟨"p", [listDeclaration, strayFeature], [], [], none⟩) (World.ofStore listStore) =
        (.ok 0, listWorld [] #[]) := rfl
  have hstopped : runFrom (runFeatures listImplementation silent 0 [strayFeature])
      (listWorld [("PACKAGE", .str "p")] log) =
        (.ok ([], some (.invalidAssignment "nope.x" "'nope' is not bound")),
          listWorld [("PACKAGE", .str "p")] log) :=
    runFeatures_of_error (strayFeature_stops log)
  have hspec := runSpecification_stages rfl hbuilt (runFeatures_cons hdeclared rfl hstopped)
  dsimp only at hspec
  rw [abort_of_authoring rfl] at hspec
  exact ⟨_, runAll_cons hspec rfl⟩

/-- What is printed of them. -/
theorem ended_reports_streamed : ∃ w',
    runFrom (printSpecifications listImplementation endedSpecifications)
        (World.ofStore listStore) = (.ok false, w') ∧
      w'.text = "---\n +  PACKAGE = \"p\"\n\n !  p: specification error: InvalidAssignment: " ++
        "Can't assign nope.x: 'nope' is not bound\n\n---\n\n !  q: specification error: " ++
        "SpecificationError: Failed to load hooks from q.py: boom\n\n" := by
  obtain ⟨v, hsilent⟩ := endedSpecifications_run
  obtain ⟨w', hprinted, -, -⟩ := printSpecifications_prints hsilent (.refl _)
  obtain ⟨rs, v', hrun, -, -, htext⟩ := streamed_report hprinted
  cases hsilent.symm.trans hrun
  refine ⟨w', hprinted, htext.trans ?_⟩
  decide +kernel

end CommandLine

end Conformance
