import Conformance.Proofs.Loading
import Conformance.Proofs.Tally

/-!
# Running merged files

A file that is merged into an earlier one of its package gives its features to the
earlier specification, without the declaration it starts with.  A run of both is the
run of the earlier one, resumed with these features: `resume` runs them on the scope
that is left, unless the run was aborted.  The key fact is `runFeatures_append`, that
features behind others run from what those leave; the other stages, reading and
building the scope, are those of the earlier file as long as the later one brings no
hooks.
-/

namespace Conformance

variable {ω : Type}

/-- The report with the counts of another specification. -/
def SpecificationResult.countedFor (r : SpecificationResult) (spec : Specification ω) :
    SpecificationResult :=
  { r with total := spec.stats.tests, skipped := spec.stats.skipped }

/-! ## Reading -/

namespace Specification

variable {loader : HookLoader ω} {target : String} {source : Option String}
  {documents : Documents} {spec : Specification ω}

/-- The entries of a specification give its features, and nothing it reads is skipped
by what comes before them. -/
theorem features_of_build {package : String} {entries : List Literal}
    (h : build loader target source package entries documents = .ok spec) :
    spec.features = sectioned false (parseEntries target entries).1 := by
  unfold build at h
  rcases hread : parseEntries target entries with ⟨features, stop⟩
  rw [hread] at h
  dsimp only at h
  split at h
  · cases h
    rfl
  · split at h
    · cases h
      rfl
    · cases h

/-- A specification is read from entries that start with a declaration. -/
theorem build_of_parse (h : parse loader target source documents = .ok (some spec)) :
    ∃ entry entries rest package, documents = .ok (.list (entry :: entries)) :: rest ∧
      Declares target entry package ∧
      build loader target source package (entry :: entries) rest = .ok spec := by
  unfold parse at h
  split at h
  · cases h
  · rename_i first rest
    obtain ⟨v, hfirst, h⟩ := ok_of_bind_ok h
    split at h
    · rename_i entry entries
      obtain ⟨package?, hdeclared, h⟩ := ok_of_bind_ok h
      cases package? with
      | none => cases h
      | some package =>
          obtain ⟨built, hbuilt, h⟩ := ok_of_bind_ok h
          cases h
          exact ⟨entry, entries, rest, package, by rw [hfirst], declares_iff.mpr hdeclared, hbuilt⟩
    · cases h

/-- **The features of a specification** that was read start with the declaration of its
package. -/
theorem features_of_parse (h : parse loader target source documents = .ok (some spec)) :
    ∃ declaration rest, spec.features = declaration :: rest ∧
      declaration.assign? = some FeatureKey.packageKey := by
  obtain ⟨entry, entries, rest, package, -, hdeclares, hbuilt⟩ := build_of_parse h
  obtain ⟨f, value, hparse, hskip, haction, -⟩ := hdeclares.entry
  refine ⟨f, sectioned false (parseEntries target entries).1, ?_, ?_⟩
  · have hcomment : f.isComment = false := by
      unfold Feature.isComment
      rw [haction]
    have hsame : { f with skip := false || f.skip } = f := rfl
    rw [features_of_build hbuilt, parseEntries, hparse]
    dsimp only
    rw [sectioned, hcomment]
    simp only [Bool.false_eq_true, if_false]
    rw [hsame]
  · unfold Feature.assign?
    rw [haction]

/-- Adding a part that starts with its declaration adds the other features. -/
theorem features_append {s part : Specification ω} {declaration : Feature} {rest : List Feature}
    (h : part.features = declaration :: rest)
    (hdeclares : declaration.assign? = some FeatureKey.packageKey) :
    (s.append part).features = s.features ++ rest := by
  unfold append
  rw [h, withoutDeclaration, if_pos hdeclares]

/-- Two parts of one package are merged into one. -/
theorem merge_pair {s part : Specification ω} (h : s.package = part.package) :
    merge [s, part] = [s.append part] := by
  change insert [s] part = _
  rw [insert, if_pos h]

end Specification

/-! ## Running -/

namespace Run

variable (impl : Implementation ω)

/-- Runs more features where a specification left off, unless its run was aborted. -/
def resume (listener : Listener ω) (more : List Feature) (result : SpecificationResult) :
    Exec ω SpecificationResult :=
  match result.error, result.scope with
  | none, some scope => do
    let (results, fault) ← runFeatures impl listener scope more
    let result := { result with results := result.results ++ results }
    match fault with
    | none => return result
    | some fault => abort result fault
  | _, _ => return result

variable {impl} {listener : Listener ω} {spec : Specification ω}

/-- A fault ends a run in the same way whatever is counted. -/
theorem abort_countedFor (spec : Specification ω) (result : SpecificationResult) (fault : Fault)
    (w : World ω) :
    runFrom (abort (result.countedFor spec) fault) w =
      match runFrom (abort result fault) w with
      | (.ok r, w') => (.ok (r.countedFor spec), w')
      | (.error fault, w') => (.error fault, w') := by
  cases hauthoring : fault.isAuthoring with
  | true =>
      rw [abort_of_authoring hauthoring, abort_of_authoring hauthoring]
      rfl
  | false => rw [abort_of_other hauthoring, abort_of_other hauthoring]

/-- Nothing is resumed after a fault. -/
theorem resume_of_error {result : SpecificationResult} (h : result.error ≠ none)
    (more : List Feature) : resume impl listener more result = pure result := by
  unfold resume
  cases herror : result.error with
  | none => exact absurd herror h
  | some text => rfl

/-- The features that are resumed run on the scope of the specification. -/
theorem resume_of_scope {result : SpecificationResult} {scope : ScopeId}
    (herror : result.error = none) (hscope : result.scope = some scope) (more : List Feature) :
    resume impl listener more result =
      (do
        let (results, fault) ← runFeatures impl listener scope more
        match fault with
        | none => return { result with results := result.results ++ results }
        | some fault => abort { result with results := result.results ++ results } fault) := by
  unfold resume
  rw [herror, hscope]

/-- What is resumed of an aborted run is its report. -/
theorem resume_of_abort (result : SpecificationResult) (fault : Fault) (more : List Feature)
    (w : World ω) :
    runFrom (do
      let r ← abort result fault
      resume impl listener more (r.countedFor spec)) w =
      runFrom (abort (result.countedFor spec) fault) w := by
  rw [runFrom_bind, abort_countedFor]
  rcases habort : runFrom (abort result fault) w with ⟨escaped | r, w'⟩
  · rfl
  · obtain ⟨rfl, -⟩ := abort_ok habort
    dsimp only
    rw [resume_of_error (Option.some_ne_none _)]
    rfl

variable (impl listener) in
/-- **A specification that was extended** runs as the original, resumed with what was
added. -/
theorem runSpecification_extended {extended : Specification ω} {more : List Feature}
    (hread : spec.error = none) (hread' : extended.error = none)
    (hpackage : extended.package = spec.package) (hhooks : extended.hooks = spec.hooks)
    (hfeatures : extended.features = spec.features ++ more) (w : World ω) :
    runFrom (runSpecification impl listener extended) w =
      runFrom (do
        let r ← runSpecification impl listener spec
        resume impl listener more (r.countedFor extended)) w := by
  have hscope : buildScope impl extended = buildScope impl spec := by
    unfold buildScope
    rw [hpackage, hhooks]
  have hstart : startResult extended = (startResult spec).countedFor extended := by
    unfold startResult
    rw [hpackage]
    rfl
  unfold runSpecification
  rw [hread, hread']
  dsimp only
  unfold runLoaded
  rw [hscope, hstart, hfeatures, bind_assoc, runFrom_bind, runFrom_bind, runFrom_attempt]
  rcases runFrom (buildScope impl spec) w with ⟨fault | scope, w₁⟩
  · exact (resume_of_abort (startResult spec) fault more w₁).symm
  · dsimp only
    rw [bind_assoc, runFrom_bind, runFrom_bind, runFeatures_append]
    rcases runFrom (runFeatures impl listener scope spec.features) w₁ with
      ⟨fault | ⟨rs, stop | stop⟩, w₂⟩
    · rfl
    · dsimp only
      rw [runFrom_bind, runFrom_pure]
      dsimp only
      rw [resume_of_scope rfl rfl, runFrom_bind]
      rcases runFrom (runFeatures impl listener scope more) w₂ with
        ⟨fault | ⟨later, stop | stop⟩, w₃⟩
      · rfl
      · rfl
      · rfl
    · exact (resume_of_abort { startResult spec with results := rs, scope := some scope } stop more
        w₂).symm

/-- A resumed run that has a report ran the features to their end, or to the fault that
is noted. -/
theorem resume_reported {result whole : SpecificationResult} {scope : ScopeId}
    {more : List Feature} {w w' : World ω}
    (h : runFrom (resume impl listener more result) w = (.ok whole, w'))
    (herror : result.error = none) (hscope : result.scope = some scope) :
    ∃ later stop w₁ log,
      runFrom (runFeatures impl listener scope more) w = (.ok (later, stop), w₁) ∧
      whole.results = result.results ++ later ∧ whole.error = stop.map Fault.describe ∧
      w' = { w₁ with log } := by
  rw [resume_of_scope herror hscope] at h
  obtain ⟨⟨later, stop⟩, w₁, hrun, hend⟩ := bind_eq_ok_iff.mp h
  cases stop with
  | none =>
      cases hend
      exact ⟨later, none, w', w'.log, hrun, rfl, herror, rfl⟩
  | some fault =>
      obtain ⟨rfl, log, rfl⟩ := abort_ok hend
      exact ⟨later, some fault, w₁, log, hrun, rfl, rfl, rfl⟩

/-- A specification that was not aborted has a scope. -/
theorem Reported.scope_of_error {r : SpecificationResult} {w w' : World ω}
    (h : Reported impl listener spec w r w') (herror : r.error = none) :
    ∃ scope, r.scope = some scope := by
  cases h with
  | unread _ => cases herror
  | unbuilt _ _ => cases herror
  | ran _ _ _ => exact ⟨_, rfl⟩

/-- **A later file changes nothing of an earlier one.**  A specification of the same
package that was read, without hooks, is merged by leaving out its declaration, and the
merged specification runs as the earlier one, resumed with the other features.  So its
results start with those of the earlier one: if the run of that was aborted, they end
there with the same fault, and else the others are those of the later features, run in
order on the scope and in the state the earlier ones left. -/
theorem merged_run_continues (impl : Implementation ω) (listener : Listener ω)
    (loader : HookLoader ω) (target : String) (source : Option String) (documents : Documents)
    (first later : Specification ω)
    (hparse : Specification.parse loader target source documents = .ok (some later))
    (hfirst : first.error = none) (hlater : later.error = none) (hhooks : later.hooks = [])
    (hpackage : first.package = later.package) :
    ∃ declaration rest merged,
      later.features = declaration :: rest ∧
      declaration.assign? = some FeatureKey.packageKey ∧
      Specification.merge [first, later] = [merged] ∧
      (∀ w, runFrom (runSpecification impl listener merged) w =
        runFrom (do
          let r ← runSpecification impl listener first
          resume impl listener rest (r.countedFor merged)) w) ∧
      ∀ r w w₁, runFrom (runSpecification impl listener first) w = (.ok r, w₁) →
        (∀ whole w₂, runFrom (runSpecification impl listener merged) w = (.ok whole, w₂) →
          r.results <+: whole.results) ∧
        (r.error ≠ none →
          runFrom (runSpecification impl listener merged) w = (.ok (r.countedFor merged), w₁)) ∧
        (r.error = none → ∃ scope, r.scope = some scope ∧
          ∀ whole w₂, runFrom (runSpecification impl listener merged) w = (.ok whole, w₂) →
            ∃ results stop w₃ log,
              runFrom (runFeatures impl listener scope rest) w₁ = (.ok (results, stop), w₃) ∧
              whole.results = r.results ++ results ∧ whole.error = stop.map Fault.describe ∧
              w₂ = { w₃ with log }) := by
  obtain ⟨declaration, rest, hfeatures, hdeclares⟩ := Specification.features_of_parse hparse
  have hread : (first.append later).error = none := by
    unfold Specification.append
    rw [hfirst, hlater]
    rfl
  have hsame : (first.append later).hooks = first.hooks := by
    unfold Specification.append
    rw [hhooks]
    rfl
  have hrun := runSpecification_extended impl listener hfirst hread rfl hsame
    (Specification.features_append hfeatures hdeclares)
  refine ⟨declaration, rest, first.append later, hfeatures, hdeclares,
    Specification.merge_pair hpackage, hrun, ?_⟩
  intro r w w₁ hran
  have hresumed : runFrom (runSpecification impl listener (first.append later)) w =
      runFrom (resume impl listener rest (r.countedFor (first.append later))) w₁ := by
    rw [hrun, runFrom_bind_of_ok hran]
  have haborted : r.error ≠ none → runFrom (runSpecification impl listener (first.append later)) w =
      (.ok (r.countedFor (first.append later)), w₁) := by
    intro herror
    have hcounted : (r.countedFor (first.append later)).error ≠ none := herror
    rw [hresumed, resume_of_error hcounted]
    rfl
  have hcontinued : r.error = none → ∃ scope, r.scope = some scope ∧
      ∀ whole w₂, runFrom (runSpecification impl listener (first.append later)) w =
        (.ok whole, w₂) →
        ∃ results stop w₃ log,
          runFrom (runFeatures impl listener scope rest) w₁ = (.ok (results, stop), w₃) ∧
          whole.results = r.results ++ results ∧ whole.error = stop.map Fault.describe ∧
          w₂ = { w₃ with log } := by
    intro herror
    obtain ⟨scope, hscope⟩ := (runSpecification_reported hran).scope_of_error herror
    refine ⟨scope, hscope, fun whole w₂ hwhole => ?_⟩
    rw [hresumed] at hwhole
    exact (resume_reported hwhole herror hscope :)
  refine ⟨fun whole w₂ hwhole => ?_, haborted, hcontinued⟩
  by_cases herror : r.error = none
  · obtain ⟨scope, -, hall⟩ := hcontinued herror
    obtain ⟨results, -, -, -, -, hresults, -⟩ := hall whole w₂ hwhole
    exact ⟨results, hresults.symm⟩
  · rw [haborted herror] at hwhole
    cases hwhole
    exact List.prefix_rfl

/-! ## A declaration and a second file -/

/-- The documents of a file that declares `p` and expects 5 of a name that is not
bound. -/
def goneDocuments : Documents :=
  [.ok (.list [.map [(.str "PACKAGE", .str "p")], .map [(.str "gone==", .scalar (.int 5))]])]

/-- The specification of that file. -/
def goneSpecification : Specification Sample.Object :=
  ⟨"p", [listDeclaration, goneReading false], [], [], none⟩

theorem goneDocuments_parse :
    Specification.parse emptyLoader "py" none goneDocuments = .ok (some goneSpecification) := rfl

/-- The file that only declares `p` runs to its end, and is resumed with the reading
that fails. -/
theorem declaration_continued :
    Specification.parse emptyLoader "py" none goneDocuments = .ok (some goneSpecification) ∧
    declaredSpecification.error = none ∧ goneSpecification.error = none ∧
    goneSpecification.hooks = [] ∧ declaredSpecification.package = goneSpecification.package ∧
    ∃ merged whole w',
      Specification.merge [declaredSpecification, goneSpecification] = [merged] ∧
      runFrom (runSpecification listImplementation (fun _ => pure ()) merged)
        (World.ofStore listStore) = (.ok whole, w') ∧
      whole.results = [⟨listDeclaration, .passed, .str "p", none⟩, goneResult] := by
  refine ⟨goneDocuments_parse, rfl, rfl, rfl, rfl, ?_⟩
  obtain ⟨declaration, rest, merged, hfeatures, -, hmerged, hrun, -⟩ :=
    merged_run_continues listImplementation (fun _ => pure ()) emptyLoader "py" none goneDocuments
      declaredSpecification goneSpecification goneDocuments_parse rfl rfl rfl rfl
  obtain ⟨-, rfl⟩ := List.cons.inj hfeatures
  obtain ⟨log, hdeclared⟩ := listDeclaration_passes
  obtain ⟨log', hgone⟩ := goneReading_fails log
  have hbuilt : runFrom (buildScope listImplementation declaredSpecification)
      (World.ofStore listStore) = (.ok 0, listWorld [] #[]) := rfl
  have hran : runFrom (runFeatures listImplementation (fun _ => pure ()) 0
      declaredSpecification.features) (listWorld [] #[]) =
        (.ok ([⟨listDeclaration, .passed, .str "p", none⟩], none), declaredWorld log) :=
    runFeatures_cons hdeclared rfl rfl
  have hfirst := runSpecification_stages rfl hbuilt hran
  have hlater : runFrom (runFeatures listImplementation (fun _ => pure ()) 0 [goneReading false])
      (declaredWorld log) = (.ok ([goneResult], none), declaredWorld log') :=
    runFeatures_cons hgone rfl rfl
  have hmergedRun := hrun (World.ofStore listStore)
  rw [runFrom_bind_of_ok hfirst, resume_of_scope rfl rfl, runFrom_bind_of_ok hlater] at hmergedRun
  exact ⟨merged, _, _, hmerged, hmergedRun, rfl⟩

end Run

end Conformance
