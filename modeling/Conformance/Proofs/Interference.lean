import Conformance.Proofs.Oblivious
import Conformance.Proofs.Replay
import Conformance.Run.Report

/-!
# Runs that do not interfere

A specification that runs among others gives the result that it gives by itself.
For a local implementation this holds up to the attributes of the markers: they
are the one thing that all specifications share.

`runSpecification_follows` compares the run of a specification in a world with
the run in a world that has nothing but these attributes, and shows that what
was there before is left as it was.  `runAll_does_not_interfere` puts this
together for lists.
-/

namespace Conformance

/-- The specification is made of YAML-shaped features that leave the importer
alone, and its hooks keep no state. -/
structure Specification.IsPlain {ω : Type} [Relocatable ω] (spec : Specification ω) : Prop where
  features : ∀ f ∈ spec.features, f.IsPlain
  hooks : ∀ hook ∈ spec.hooks, Relocatable.isHook hook.2

/-- The result with the past in front of what it refers to. -/
def SpecificationResult.shift {ω : Type} (p : Past ω) (r : SpecificationResult) :
    SpecificationResult :=
  { r with
    results := r.results.map (FeatureResult.shift p.size)
    scope := r.scope.map (p.scopes.size + ·) }

namespace Run

variable {ω : Type} [Relocatable ω] {impl : Implementation ω} {p : Past ω}

/-! ## The initial scope -/

/-- Which keys are texts has nothing to do with locations. -/
theorem textEntries_shift (n : Nat) (entries : Entries Value) :
    textEntries (entries.shift n (Value.shift n)) = shiftNamed n (textEntries entries) := by
  induction entries with
  | nil => rfl
  | cons e rest ih =>
      obtain ⟨k, v⟩ := e
      rw [Entries.shift] at ih
      rw [Entries.shift, List.map_cons, textEntries, textEntries, Key.text?_shift]
      cases k.text? with
      | none => exact ih
      | some name => exact congrArg (List.cons (name, v.shift n)) ih

/-- Members set one after another move on together. -/
theorem foldl_setNamed_shift (n : Nat) (members acc : Bindings) :
    (shiftNamed n members).foldl (fun acc m => setNamed acc m.1 m.2) (shiftNamed n acc) =
      shiftNamed n (members.foldl (fun acc m => setNamed acc m.1 m.2) acc) := by
  induction members generalizing acc with
  | nil => rfl
  | cons m rest ih =>
      change (shiftNamed n rest).foldl _ (setNamed (shiftNamed n acc) m.1 (m.2.shift n)) = _
      rw [setNamed_shiftNamed]
      exact ih _

section Start

variable (h : impl.Local)
include h

/-- Reading the members of a package does not see the past. -/
theorem readMembers_follows (location : Loc) (o : ω) (names : List String) :
    Follows p.StoreAround (IsImage (shiftNamed p.size)) (readMembers impl location o names)
      (readMembers impl (p.size + location) (Relocatable.shift p.size o) names) := by
  induction names with
  | nil => exact Follows.pure rfl
  | cons name names ih =>
      unfold readMembers
      refine Follows.bind (h.read p location o name) ?_
      intro v _ hv
      obtain rfl := hv
      refine Follows.bind ih ?_
      intro rest _ hrest
      obtain rfl := hrest
      exact Follows.pure rfl

/-- The public members of a package are the moved ones. -/
theorem publicMembers_follows (package : Value) :
    Follows p.StoreAround (IsImage (shiftNamed p.size)) (publicMembers impl package)
      (publicMembers impl (package.shift p.size)) := by
  unfold publicMembers
  refine Follows.bind Past.store_follows ?_
  intro t _ ht
  obtain ⟨rfl, -⟩ := ht
  cases package with
  | map location =>
      simp only [Value.shift]
      rw [Past.entries_store]
      exact Follows.pure (textEntries_shift p.size _)
  | object location =>
      simp only [Value.shift]
      rw [Past.object?_store]
      cases t.object? location with
      | none => exact Follows.pure rfl
      | some o =>
          have hnames : publicNames impl (Relocatable.shift p.size o) = publicNames impl o := by
            unfold publicNames
            rw [h.exports?, h.names]
          dsimp only [Option.map_some]
          rw [hnames]
          refine Follows.bind (readMembers_follows h location o _) ?_
          intro members _ hmembers
          obtain rfl := hmembers
          exact Follows.pure (foldl_setNamed_shift p.size members [])
  | _ => exact Follows.pure rfl

/-- Loading a package does not see the past, and its members are moved on. -/
theorem loadMembers_follows (package : String) :
    Follows p.Around (IsImage (shiftNamed p.size)) (loadMembers impl package)
      (loadMembers impl package) := by
  unfold loadMembers
  have hload : Follows p.StoreAround (IsImage (shiftNamed p.size))
      (do publicMembers impl (← impl.load package))
      (do publicMembers impl (← impl.load package)) := by
    refine Follows.bind (h.load p package) ?_
    intro v _ hv
    obtain rfl := hv
    exact publicMembers_follows h v
  refine Follows.bind (Past.attempt_follows (Past.code_follows hload)) ?_
  intro r r' hr
  cases hr with
  | error fault => exact Follows.throw _
  | ok hmembers =>
      cases hmembers
      exact Follows.pure rfl

omit h in
/-- Installing hooks makes new cells behind the past, for functions that may be bound. -/
theorem installHooks_follows (scope : ScopeId) {hooks : List (String × ω)}
    (hhooks : ∀ hook ∈ hooks, Relocatable.isHook hook.2) :
    Follows p.Around (IsImage id) (Scope.installHooks scope hooks)
      (Scope.installHooks (p.scopes.size + scope) hooks) := by
  induction hooks with
  | nil => exact Follows.pure rfl
  | cons hook rest ih =>
      obtain ⟨name, function⟩ := hook
      have hfunction := hhooks (name, function) List.mem_cons_self
      have hinstall : Follows p.Around (IsImage id) (Scope.installHook scope name function)
          (Scope.installHook (p.scopes.size + scope) name function) := by
        have halloc := Past.alloc_follows (p := p) (c := .hook scope function []) (by
          intro _ _ _ heq
          cases heq
          exact hfunction)
        unfold Scope.installHook
        refine Follows.bind (Past.code_follows halloc) ?_
        intro location _ hlocation
        obtain rfl := hlocation
        refine Follows.bind (Past.bindings_follows scope) ?_
        intro b b' hb
        exact Past.setBindings_follows scope (hb.setNamed (.inl rfl))
      unfold Scope.installHooks
      refine Follows.bind hinstall fun _ _ _ => ?_
      exact ih fun other hmem => hhooks other (List.mem_cons_of_mem _ hmem)

/-- **The scope that a specification starts with does not show the past.** -/
theorem buildScope_follows {spec : Specification ω} (hspec : spec.IsPlain) :
    Follows p.Around (IsImage (p.scopes.size + ·)) (buildScope impl spec)
      (buildScope impl spec) := by
  unfold buildScope
  refine Follows.bind (loadMembers_follows h spec.package) ?_
  intro members _ hmembers
  obtain rfl := hmembers
  have hmembers : p.BindingsAround (setNamed members importName impl.importer)
      (setNamed (shiftNamed p.size members) importName impl.importer) :=
    (Past.BindingsAround.shiftNamed members).setNamed (.inr ⟨rfl, rfl⟩)
  refine Follows.bind (Past.newScope_follows hmembers) ?_
  intro scope _ hscope
  obtain rfl := hscope
  refine Follows.bind (installHooks_follows scope hspec.hooks) fun _ _ _ => ?_
  exact Follows.pure rfl

end Start

/-! ## A specification -/

section Specification

variable {listener listener' : Listener ω} (hlistener : listener.ReportsOnly)
  (hlistener' : listener'.ReportsOnly)
include hlistener hlistener'

/-- A listener that leaves the world alone may be told anything. -/
theorem listener_follows (r r' : FeatureResult) :
    Follows p.Around (IsImage id) (listener r) (listener' r') := by
  intro w w' hw
  obtain ⟨log, output, hrun⟩ := hlistener r w
  obtain ⟨log', output', hrun'⟩ := hlistener' r' w'
  rw [hrun, hrun']
  exact ⟨.ok rfl, hw.store, hw.size, hw.past, hw.own⟩

variable (h : impl.Local)
include h

/-- By induction on the features: the results come moved on, up to the same fault. -/
theorem runFeatures_follows (scope : ScopeId) {fs : List Feature} (hfs : ∀ f ∈ fs, f.IsPlain) :
    Follows p.Around
      (IsImage fun run : List FeatureResult × Option Fault =>
        (run.1.map (FeatureResult.shift p.size), run.2))
      (runFeatures impl listener scope fs)
      (runFeatures impl listener' (p.scopes.size + scope) fs) := by
  induction fs with
  | nil => exact Follows.pure rfl
  | cons f fs ih =>
      have hf := hfs f List.mem_cons_self
      unfold runFeatures
      refine Follows.bind (Past.attempt_follows (runFeature_follows h scope hf)) ?_
      intro r r' hr
      cases hr with
      | error fault => exact Follows.pure rfl
      | ok hresult =>
          cases hresult
          refine Follows.bind (listener_follows hlistener hlistener' _ _) fun _ _ _ => ?_
          refine Follows.bind (ih fun other hmem => hfs other (List.mem_cons_of_mem _ hmem)) ?_
          intro run _ hrun
          obtain ⟨rs, fault⟩ := run
          obtain rfl := hrun
          exact Follows.pure rfl

omit h hlistener hlistener' in
/-- A fault ends both specifications with the same report. -/
theorem abort_follows (result : SpecificationResult) (fault : Fault) :
    Follows p.Around (IsImage (SpecificationResult.shift p)) (abort result fault)
      (abort (result.shift p) fault) := by
  unfold abort
  refine Follows.ite ?_ (Follows.throw fault)
  exact Follows.bind (Past.log_follows _ _ _ _ _ _) fun _ _ _ => Follows.pure rfl

/-- **A specification does not see the past.**  What it gives behind a past is
what it gives without, moved on. -/
theorem runSpecification_follows {spec : Specification ω} (hspec : spec.IsPlain) :
    Follows p.Around (IsImage (SpecificationResult.shift p)) (runSpecification impl listener spec)
      (runSpecification impl listener' spec) := by
  unfold runSpecification
  cases spec.error with
  | some fault =>
      exact Follows.bind (Past.log_follows _ _ _ _ _ _) fun _ _ _ => Follows.pure rfl
  | none =>
      unfold runLoaded
      refine Follows.bind (Past.attempt_follows (buildScope_follows h hspec)) ?_
      intro r r' hr
      cases hr with
      | error fault => exact abort_follows (startResult spec) fault
      | ok hscope =>
          cases hscope
          refine Follows.bind (runFeatures_follows hlistener hlistener' h _ hspec.features) ?_
          intro run _ hrun
          obtain ⟨results, fault⟩ := run
          obtain rfl := hrun
          cases fault with
          | none => exact Follows.pure rfl
          | some fault => exact abort_follows _ fault

end Specification

end Run

/-! ## What stays as it was -/

/-- The cells and scopes of the first world are in the second as they were. -/
structure Keeps {ω : Type} (w w' : World ω) : Prop where
  cellCount : w.store.cells.size ≤ w'.store.cells.size
  cells : ∀ location < w.store.cells.size, w'.store.get? location = w.store.get? location
  scopeCount : w.scopes.size ≤ w'.scopes.size
  bindings : ∀ scope < w.scopes.size, w'.bindings scope = w.bindings scope

namespace Keeps

variable {ω : Type}

theorem refl (w : World ω) : Keeps w w :=
  ⟨Nat.le_refl _, fun _ _ => rfl, Nat.le_refl _, fun _ _ => rfl⟩

theorem trans {w w' w'' : World ω} (h : Keeps w w') (h' : Keeps w' w'') : Keeps w w'' where
  cellCount := Nat.le_trans h.cellCount h'.cellCount
  cells := fun location hlocation =>
    (h'.cells location (Nat.lt_of_lt_of_le hlocation h.cellCount)).trans (h.cells location hlocation)
  scopeCount := Nat.le_trans h.scopeCount h'.scopeCount
  bindings := fun scope hscope =>
    (h'.bindings scope (Nat.lt_of_lt_of_le hscope h.scopeCount)).trans (h.bindings scope hscope)

end Keeps

namespace Past

variable {ω : Type} [Relocatable ω] {p : Past ω}

/-- A world around the past keeps all that was there. -/
theorem Around.keeps {w v w' : World ω} (h : (Past.mk w.store.cells w.scopes).Around v w') :
    Keeps w w' where
  cellCount := by
    rw [h.store.1, size_store]
    exact Nat.le_add_right _ _
  cells := fun location hlocation => by
    rw [h.store.1, get?_store_past _ hlocation]
    rfl
  scopeCount := by
    rw [h.size]
    exact Nat.le_add_right _ _
  bindings := h.past

/-- A report, read in a world, is another one with the past in front of all that
it refers to. -/
structure Shows (p : Past ω) (own : SpecificationResult) (v : World ω) (r : SpecificationResult)
    (w : World ω) : Prop where
  result : r = own.shift p
  cellCount : p.size + v.store.cells.size ≤ w.store.cells.size
  cells : ∀ location < v.store.cells.size,
    w.store.get? (p.size + location) = (v.store.get? location).map p.cell
  scopeCount : p.scopes.size + v.scopes.size ≤ w.scopes.size
  bindings : ∀ scope < v.scopes.size,
    p.BindingsAround (v.bindings scope) (w.bindings (p.scopes.size + scope))

/-- The report of a run behind the past shows what the report without one does. -/
theorem Around.shows {v w : World ω} (h : p.Around v w) (own : SpecificationResult) :
    p.Shows own v (own.shift p) w where
  result := rfl
  cellCount := Nat.le_of_eq (by rw [h.store.1, size_store])
  cells := fun location _ => by rw [h.store.1, get?_store]
  scopeCount := Nat.le_of_eq h.size.symm
  bindings := fun scope _ => h.own scope

/-- What runs later does not change a report. -/
theorem Shows.keeps {own r : SpecificationResult} {v w w' : World ω} (h : p.Shows own v r w)
    (hkeeps : Keeps w w') : p.Shows own v r w' where
  result := h.result
  cellCount := Nat.le_trans h.cellCount hkeeps.cellCount
  cells := fun location hlocation => by
    have hbound : p.size + location < w.store.cells.size := by
      have := h.cellCount
      omega
    rw [hkeeps.cells _ hbound, h.cells location hlocation]
  scopeCount := Nat.le_trans h.scopeCount hkeeps.scopeCount
  bindings := fun scope hscope => by
    have hbound : p.scopes.size + scope < w.scopes.size := by
      have := h.scopeCount
      omega
    rw [hkeeps.bindings _ hbound]
    exact h.bindings scope hscope

/-- The text of a report is that of the report that it shows. -/
theorem Shows.format_eq {own r : SpecificationResult} {v w : World ω} (h : p.Shows own v r w) :
    r.format = own.format := by
  have hlines : (own.results.map (FeatureResult.shift p.size)).map (·.format) =
      own.results.map (·.format) := by
    rw [List.map_map]
    rfl
  have hpassed : (own.shift p).passedCount = own.passedCount := List.countP_map ..
  have hfailed : (own.shift p).failed = own.failed.map (FeatureResult.shift p.size) :=
    List.filter_map ..
  have hsuccess : (own.shift p).success = own.success := by
    unfold SpecificationResult.success
    rw [hfailed, List.isEmpty_map]
    rfl
  rw [h.result]
  unfold SpecificationResult.format SpecificationResult.summary
  rw [hpassed, hsuccess]
  exact congrArg (fun lines => "\n".intercalate (lines ++ ["", own.summary])) hlines

end Past

/-! ## Lists of specifications -/

namespace Run

variable {ω : Type} (impl : Implementation ω)

/-- The run of a specification by itself, in a world that has nothing but the
attributes of the markers. -/
def ownRun (marks : Marks) (spec : Specification ω) : Except Fault SpecificationResult × World ω :=
  runFrom (runSpecification impl silent spec) (World.ofStore ⟨#[], marks⟩)

/-- Each specification of a run beside the attributes that the markers have when
it starts. -/
def starts (listener : Listener ω) :
    List (Specification ω) → World ω → List (Specification ω × Marks)
  | [], _ => []
  | spec :: specs, w =>
    (spec, w.store.marks) ::
      starts listener specs (runFrom (runSpecification impl listener spec) w).2

/-- The starts of a run are those of its specifications, in order. -/
theorem starts_specifications (listener : Listener ω) (specs : List (Specification ω)) :
    ∀ w, (starts impl listener specs w).map Prod.fst = specs := by
  induction specs with
  | nil => exact fun _ => rfl
  | cons spec specs ih => exact fun _ => congrArg (List.cons spec) (ih _)

variable [Relocatable ω]

/-- The report of a specification in a world is its own run's, behind a past. -/
def OwnReport (marks : Marks) (spec : Specification ω) (r : SpecificationResult) (w : World ω) :
    Prop :=
  ∃ own v p, ownRun impl marks spec = (.ok own, v) ∧ Past.Shows p own v r w

/-- Two reports, each read in its world, are the same up to where things live:
both are the report of the specification's own run, behind a past each. -/
def SameReport (marks : Marks) (spec : Specification ω) (r : SpecificationResult) (w : World ω)
    (r' : SpecificationResult) (w' : World ω) : Prop :=
  ∃ own v p p', ownRun impl marks spec = (.ok own, v) ∧
    Past.Shows p own v r w ∧ Past.Shows p' own v r' w'

/-- A run of plain specifications to its end, in which no specification starts
with a list, a mapping or an object among the attributes of the markers. -/
structure PlainRun (listener : Listener ω) (specs : List (Specification ω)) (w : World ω)
    (rs : RunResult) (w' : World ω) : Prop where
  plain : ∀ spec ∈ specs, spec.IsPlain
  starts : ∀ start ∈ starts impl listener specs w, Marks.LocationFree start.2
  run : runFrom (runAll impl listener specs) w = (.ok rs, w')

variable {impl} {listener : Listener ω} {marks : Marks}

/-- Two runs whose reports are the run's own have the same report. -/
theorem SameReport.of_ownReports {spec : Specification ω} {r r' : SpecificationResult}
    {w w' : World ω} (h : OwnReport impl marks spec r w) (h' : OwnReport impl marks spec r' w') :
    SameReport impl marks spec r w r' w' := by
  obtain ⟨own, v, p, hown, hshows⟩ := h
  obtain ⟨own', v', p', hown', hshows'⟩ := h'
  rw [hown] at hown'
  cases hown'
  exact ⟨own, v, p, p', hown, hshows, hshows'⟩

/-- Same reports have the same text. -/
theorem SameReport.format_eq {spec : Specification ω} {r r' : SpecificationResult}
    {w w' : World ω} (h : SameReport impl marks spec r w r' w') : r.format = r'.format := by
  obtain ⟨own, v, p, p', -, hshows, hshows'⟩ := h
  rw [hshows.format_eq, hshows'.format_eq]

section List

variable (h : impl.Local) (hlistener : listener.ReportsOnly)
include h hlistener

/-- **One specification.**  What it gives is its own report, and what was there
before stays as it was. -/
theorem runSpecification_ownReport {spec : Specification ω} (hspec : spec.IsPlain) {w : World ω}
    (hmarks : Marks.LocationFree w.store.marks) :
    Keeps w (runFrom (runSpecification impl listener spec) w).2 ∧
      ResultRel
        (fun _ r =>
          OwnReport impl w.store.marks spec r (runFrom (runSpecification impl listener spec) w).2)
        (ownRun impl w.store.marks spec).1 (runFrom (runSpecification impl listener spec) w).1 := by
  obtain ⟨hresult, hworld⟩ := runSpecification_follows silent_reportsOnly hlistener h hspec _ _
    (Past.Around.start hmarks)
  refine ⟨hworld.keeps, ?_⟩
  change ResultRel _ (ownRun impl w.store.marks spec).1 _ at hresult
  rcases hown : ownRun impl w.store.marks spec with ⟨own, v⟩
  change Past.Around _ (ownRun impl w.store.marks spec).2 _ at hworld
  rw [hown] at hresult hworld
  generalize runFrom (runSpecification impl listener spec) w = out at hresult hworld ⊢
  obtain ⟨r, w'⟩ := out
  cases hresult with
  | error fault => exact .error fault
  | ok hr =>
      cases hr
      exact .ok ⟨_, v, _, hown, hworld.shows _⟩

/-- **A list of specifications.**  Every result is the own report of its
specification, still at the end, and what was there before stays as it was. -/
theorem runAll_ownReports {specs : List (Specification ω)} :
    ∀ {w : World ω} {rs : RunResult} {w' : World ω},
      PlainRun impl listener specs w rs w' →
      Keeps w w' ∧
        List.Forall₂ (fun start r => OwnReport impl start.2 start.1 r w')
          (starts impl listener specs w) rs := by
  induction specs with
  | nil =>
      intro w rs w' hplainRun
      obtain ⟨-, -, hrun⟩ := hplainRun
      cases hrun
      exact ⟨Keeps.refl w, .nil⟩
  | cons spec specs ih =>
      intro w rs w' hplainRun
      obtain ⟨hplain, hstarts, hrun⟩ := hplainRun
      have hmarks : Marks.LocationFree w.store.marks := hstarts _ List.mem_cons_self
      have hlater := fun start hmem => hstarts start (List.mem_cons_of_mem _ hmem)
      obtain ⟨hkeeps, hreports⟩ :=
        runSpecification_ownReport h hlistener (hplain spec List.mem_cons_self) hmarks
      obtain ⟨r, w₁, hfirst, hrest⟩ := bind_eq_ok_iff.mp hrun
      unfold starts
      rw [hfirst] at hkeeps hreports hlater ⊢
      obtain ⟨rs, w₂, hrest, hend⟩ := bind_eq_ok_iff.mp hrest
      cases hend
      obtain ⟨hkeeps', hall⟩ :=
        ih ⟨fun other hmem => hplain other (List.mem_cons_of_mem _ hmem), hlater, hrest⟩
      refine ⟨hkeeps.trans hkeeps', .cons ?_ hall⟩
      generalize (ownRun impl w.store.marks spec).1 = own at hreports
      cases hreports with
      | ok hr =>
          obtain ⟨own, v, p, hown, hshows⟩ := hr
          exact ⟨own, v, p, hown, hshows.keeps hkeeps'⟩

/-- The specification by itself, in any world with the same marks, ends well if it
does among others. -/
theorem runAlone_ownReport {spec : Specification ω} (hspec : spec.IsPlain)
    (hmarks : marks.LocationFree) {r : SpecificationResult} {w : World ω}
    (hr : OwnReport impl marks spec r w) {w₀ : World ω} (hw₀ : w₀.store.marks = marks) :
    ∃ r₀ w₁, runFrom (runAll impl listener [spec]) w₀ = (.ok [r₀], w₁) ∧
      OwnReport impl marks spec r₀ w₁ := by
  subst hw₀
  obtain ⟨own, v, p, hown, -⟩ := hr
  obtain ⟨-, hreports⟩ := runSpecification_ownReport h hlistener hspec hmarks
  rw [hown] at hreports
  rcases hrun : runFrom (runSpecification impl listener spec) w₀ with ⟨r₀, w₁⟩
  rw [hrun] at hreports
  cases hreports with
  | @ok _ r₀ hr => exact ⟨r₀, w₁, runAll_cons hrun rfl, hr⟩

end List

/-- **Runs do not interfere, but for the attributes of the markers.**  A run gives
one result for each specification, in order.  Each is what its specification
gives alone in any world in which the markers have the attributes with which it
started, whatever else is there and whoever listens, and what it gives at any
place of any other run at which it starts with these attributes. -/
theorem runAll_does_not_interfere (h : impl.Local) (hlistener : listener.ReportsOnly)
    {specs : List (Specification ω)} {w : World ω} {rs : RunResult} {w' : World ω}
    (hrun : PlainRun impl listener specs w rs w') :
    (starts impl listener specs w).map Prod.fst = specs ∧
    List.Forall₂
      (fun start r =>
        (∀ (listener₀ : Listener ω), listener₀.ReportsOnly →
          ∀ w₀ : World ω, w₀.store.marks = start.2 →
            ∃ r₀ w₁, runFrom (runAll impl listener₀ [start.1]) w₀ = (.ok [r₀], w₁) ∧
              SameReport impl start.2 start.1 r w' r₀ w₁) ∧
        ∀ (listener₂ : Listener ω), listener₂.ReportsOnly →
          ∀ (specs₂ : List (Specification ω)) (w₂ : World ω) (rs₂ : RunResult) (w₂' : World ω),
          PlainRun impl listener₂ specs₂ w₂ rs₂ w₂' →
          ∀ (i : Nat) (r₂ : SpecificationResult),
            (starts impl listener₂ specs₂ w₂)[i]? = some start → rs₂[i]? = some r₂ →
            SameReport impl start.2 start.1 r w' r₂ w₂')
      (starts impl listener specs w) rs := by
  have hspecs := starts_specifications impl listener specs w
  refine ⟨hspecs, ?_⟩
  obtain ⟨-, hall⟩ := runAll_ownReports h hlistener hrun
  refine List.forall₂_iff_get.mpr ⟨hall.length_eq, fun i hi hi' => ?_⟩
  have hmem := List.get_mem (starts impl listener specs w) ⟨i, hi⟩
  have hmarks := hrun.starts _ hmem
  have hspec := hrun.plain _ (hspecs ▸ List.mem_map_of_mem hmem)
  have hown := hall.get hi hi'
  constructor
  · intro listener₀ hlistener₀ w₀ hw₀
    obtain ⟨r₀, w₁, halone, hown₀⟩ := runAlone_ownReport h hlistener₀ hspec hmarks hown hw₀
    exact ⟨r₀, w₁, halone, SameReport.of_ownReports hown hown₀⟩
  · intro listener₂ hlistener₂ specs₂ w₂ rs₂ w₂' hrun₂ j r₂ hstart₂ hr₂
    obtain ⟨-, hall₂⟩ := runAll_ownReports h hlistener₂ hrun₂
    obtain ⟨hj, hget⟩ := List.getElem?_eq_some_iff.mp hstart₂
    obtain ⟨hj', hget'⟩ := List.getElem?_eq_some_iff.mp hr₂
    have hown₂ := hall₂.get hj hj'
    rw [List.get_eq_getElem, List.get_eq_getElem] at hown₂
    rw [hget, hget'] at hown₂
    exact SameReport.of_ownReports hown hown₂

end Run

/-! ## Packages with a list -/

namespace Run.Shelf

/-- The one function of the packages: it appends to a list in place. -/
inductive Tool
  | append

instance : Relocatable Tool where
  shift := fun _ tool => tool
  isHook := fun _ => False

/-- A package with a fresh list and the function. -/
def load : Code Tool Value := do
  let items ← Code.newList []
  let append ← Code.newObject .append
  Code.newMap [(.str "items", items), (.str "append", append)]

/-- Appends to a list in place. -/
def call : List Value → Code Tool Value
  | [.list location, v] => do
    let store ← Code.store
    Code.put location (.list (store.items location ++ [v]))
    return .null
  | _ => Code.raise .type "TypeError" "append needs a list and a value"

/-- An implementation in which every package has a list of its own and a function
that appends to lists. -/
def implementation : Implementation Tool where
  load := fun _ => load
  importer := .null
  callable := fun _ => true
  call := fun _ _ args => call args
  invoke := fun _ _ name _ => throw (.noAttribute "function" name)
  await? := fun _ => none
  read := fun _ _ name => throw (.noAttribute "function" name)
  write := fun _ _ name _ => throw (.noAttribute "function" name)
  names := fun _ => []
  exports? := fun _ => none
  equality? := fun _ => none
  shown := fun _ => [.text "<function append>"]
  functionText := fun _ => "<function append>"
  script := fun _ _ => .done (.error (.uncallableType "function"))

theorem call_follows (p : Past Tool) (args : List Value) :
    Follows p.StoreAround (IsImage (Value.shift p.size)) (call args)
      (call (args.map (Value.shift p.size))) := by
  rcases args with _ | ⟨v, _ | ⟨u, _ | ⟨t, rest⟩⟩⟩
  · exact Follows.throw _
  · cases v <;> exact Follows.throw _
  · cases v with
    | list location =>
        refine Follows.bind Past.store_follows ?_
        intro t _ ht
        obtain ⟨rfl, -⟩ := ht
        have hput := Past.put_follows (p := p) location (c := .list (t.items location ++ [u])) nofun
        rw [Past.cell, List.map_append] at hput
        rw [Past.items_store]
        exact Follows.bind hput fun _ _ _ => Follows.pure rfl
    | _ => exact Follows.throw _
  · cases v <;> exact Follows.throw _

/-- The implementation changes lists in place, and it is local. -/
theorem implementation_local : implementation.Local where
  load := fun p _ => by
    refine Follows.bind (Past.newList_follows []) ?_
    intro items _ hitems
    obtain rfl := hitems
    refine Follows.bind (R := IsImage (Value.shift p.size)) ?_ ?_
    · refine Follows.bind (Past.alloc_follows (c := .object Tool.append) nofun) ?_
      intro location _ hlocation
      obtain rfl := hlocation
      exact Follows.pure rfl
    · intro append _ happend
      obtain rfl := happend
      exact Past.newMap_follows [(.str "items", items), (.str "append", append)]
  callable := fun _ _ => rfl
  call := fun p _ _ args => call_follows p args
  invoke := fun _ _ _ _ _ => Follows.throw _
  await? := fun _ _ => .none
  read := fun _ _ _ _ => Follows.throw _
  write := fun _ _ _ _ _ => Follows.throw _
  names := fun _ _ => rfl
  exports? := fun _ _ => rfl
  equality? := fun _ _ => .none
  shown := fun _ _ => rfl
  script := fun _ _ _ h => h.elim

/-! ### Specifications of three features -/

/-- A specification that declares its package, binds the failure marker, and has
one more feature. -/
def specification (package : String) (f : Feature) : Specification Tool :=
  ⟨package, [.ofAction false (.bind "PACKAGE" (.str package)),
    .ofAction false (.bind "x" (.scalar (.sentinel .error))), f], [], [], none⟩

/-- The world after the first two features. -/
def opened (package : String) (scope : ScopeId) (w : World Tool) (log : Array Record) :
    World Tool :=
  let bindings := setNamed (w.bindings scope) "PACKAGE" (.str package)
  { w with
    scopes := (w.scopes.setIfInBounds scope bindings).setIfInBounds scope
      (setNamed bindings "x" .error)
    log }

/-- The results of the first two features. -/
def openedResults (package : String) : List FeatureResult :=
  [⟨.ofAction false (.bind "PACKAGE" (.str package)), .passed, .str package, none⟩,
    ⟨.ofAction false (.bind "x" (.scalar (.sentinel .error))), .passed, .error, none⟩]

/-- The report of a specification whose third feature has the given result. -/
def report (package : String) (f : Feature) (scope : ScopeId) (r : FeatureResult) :
    SpecificationResult :=
  { startResult (specification package f) with
    results := openedResults package ++ [r], scope := some scope }

/-- The first two features pass in every scope without a declared package, and
the third one is run after them. -/
theorem specification_runs {package : String} {f : Feature} {scope : ScopeId} {w w₁ : World Tool}
    (hbuilt : runFrom (buildScope implementation (specification package f)) w = (.ok scope, w₁))
    (hscope : scope < w₁.scopes.size) (hfree : named? (w₁.bindings scope) "PACKAGE" = none)
    {r : FeatureResult} {store : Store Tool}
    (hf : ∀ log, ∃ log', runFrom (runFeature implementation scope f) (opened package scope w₁ log) =
      (.ok r, { opened package scope w₁ log' with store })) :
    ∃ log, runFrom (runSpecification implementation silent (specification package f)) w =
      (.ok (report package f scope r), { opened package scope w₁ log with store }) := by
  obtain ⟨log₁, hdeclared⟩ := Scope.assign_plain implementation (by decide : '.' ∉ "PACKAGE".toList)
    (by decide) (fun _ => hfree) (.str package)
  obtain ⟨log₂, hfirst⟩ :=
    runFeature_bind_scalar hdeclared (hasForm_str package) (by simp [Scalar.equal]) rfl
  have hvariable : Name.isConstant "x" = false := by decide +kernel
  obtain ⟨log₃, hmarked⟩ := Scope.assign_plain implementation (by decide : '.' ∉ "x".toList)
    (by decide) (fun h => absurd h (by simp [hvariable])) (.scalar (.sentinel .error))
  obtain ⟨log₄, hsecond⟩ :=
    runFeature_bind_scalar hmarked (hasForm_sentinel .error) (by decide) rfl
  have hsame : World.bindings { w₁ with
      scopes := w₁.scopes.setIfInBounds scope
        (setNamed (w₁.bindings scope) "PACKAGE" (.str package))
      log := log₂ } scope = setNamed (w₁.bindings scope) "PACKAGE" (.str package) :=
    (World.bindings_set w₁ scope scope _).trans (if_pos ⟨rfl, hscope⟩)
  rw [hsame] at hsecond
  obtain ⟨log, hthird⟩ := hf log₄
  exact ⟨log, runSpecification_stages rfl hbuilt
    (runFeatures_cons hfirst rfl (runFeatures_cons hsecond rfl (runFeatures_cons hthird rfl rfl)))⟩

/-- Assigning a scalar is plain, unless the path is the importer's. -/
theorem bind_plain {path : String} (hpath : AvoidsImporter path) (s : Scalar) :
    (Feature.ofAction false (.bind path (.scalar s))).IsPlain where
  shape := by
    intro v hv
    change v ∈ [Literal.scalar s] at hv
    rw [List.mem_singleton.mp hv]
    rfl
  paths := by
    intro other hmem
    change other ∈ [path] at hmem
    rw [List.mem_singleton.mp hmem]
    exact hpath

/-- A specification of its declaration and one plain feature is plain. -/
theorem specification_plain {package : String} {f : Feature} (hf : f.IsPlain) :
    (specification package f).IsPlain where
  features := by
    intro g hg
    change g ∈ [_, _, f] at hg
    simp only [List.mem_cons, List.not_mem_nil, or_false] at hg
    rcases hg with rfl | rfl | rfl
    · exact bind_plain (by decide +kernel) _
    · exact bind_plain (by decide +kernel) _
    · exact hf
  hooks := fun _ hmem => absurd hmem List.not_mem_nil

/-- The world in which a specification starts its features, in a scope of its
own. -/
def startWorld (w : World Tool) : World Tool :=
  { w with
    store := ⟨w.store.cells ++ #[.list [], .object .append,
      .map [(.str "items", .list w.store.cells.size),
        (.str "append", .object (w.store.cells.size + 1))]], w.store.marks⟩
    scopes := w.scopes.push [("items", .list w.store.cells.size),
      ("append", .object (w.store.cells.size + 1)), ("$import", .null)] }

/-! ### A list that grows -/

/-- Appends to the list of the package. -/
def appending : Feature :=
  .ofAction false (.call none "append" [.reference "items", .str "more"] [] .null)

theorem appending_plain : appending.IsPlain where
  shape := by decide +kernel
  paths := by decide +kernel

/-- The world behind a specification that appends. -/
def appendedWorld (log : Array Record) : World Tool :=
  { opened "a" 0 (startWorld (World.ofStore Store.empty)) log with
    store := (startWorld (World.ofStore Store.empty)).store.put 0 (.list [.str "more"]) }

/-- In an empty world the feature passes and leaves a list behind. -/
theorem appending_runs : ∃ log,
    runFrom (runSpecification implementation silent (specification "a" appending))
      (World.ofStore Store.empty) =
        (.ok (report "a" appending 0 ⟨appending, .passed, .null, none⟩), appendedWorld log) :=
  @specification_runs "a" appending 0 _ (startWorld (World.ofStore Store.empty)) rfl (by decide) rfl
    _ _ fun _ => ⟨_, rfl⟩

/-- In the world that is left it passes again. -/
theorem appending_runs_again (log : Array Record) : ∃ w',
    runFrom (runSpecification implementation silent (specification "a" appending))
      (appendedWorld log) =
        (.ok (report "a" appending 1 ⟨appending, .passed, .null, none⟩), w') := by
  obtain ⟨log', hrun⟩ := @specification_runs "a" appending 1 (appendedWorld log)
    (startWorld (appendedWorld log)) rfl (Nat.lt_succ_self 1) rfl ⟨appending, .passed, .null, none⟩
    ((startWorld (appendedWorld log)).store.put 3 (.list [.str "more"])) fun _ => ⟨_, rfl⟩
  exact ⟨_, hrun⟩

/-- The run of a specification that changes a list of its package in place, twice
in a row: the second report is the same as the first. -/
theorem append_runs_again :
    implementation.Local ∧ Listener.ReportsOnly (silent : Listener Tool) ∧ ∃ r r' w',
      PlainRun implementation silent [specification "a" appending, specification "a" appending]
        (World.ofStore Store.empty) [r, r'] w' ∧
      r.success = true ∧
      SameReport implementation (fun _ => []) (specification "a" appending) r w' r' w' := by
  obtain ⟨log, hfirst⟩ := appending_runs
  obtain ⟨w', hsecond⟩ := appending_runs_again log
  have hstarts : starts implementation silent
      [specification "a" appending, specification "a" appending] (World.ofStore Store.empty) =
        [(specification "a" appending, fun _ => []), (specification "a" appending, fun _ => [])] := by
    unfold starts
    rw [hfirst]
    rfl
  have hrun : PlainRun implementation silent
      [specification "a" appending, specification "a" appending] (World.ofStore Store.empty)
        [report "a" appending 0 ⟨appending, .passed, .null, none⟩,
          report "a" appending 1 ⟨appending, .passed, .null, none⟩] w' := by
    refine ⟨?_, ?_, ?_⟩
    · intro spec hspec
      simp only [List.mem_cons, List.not_mem_nil, or_false, or_self] at hspec
      rw [hspec]
      exact specification_plain appending_plain
    · rw [hstarts]
      intro start hstart
      simp only [List.mem_cons, List.not_mem_nil, or_false, or_self] at hstart
      rw [hstart]
      exact Marks.none_locationFree
    · exact runAll_cons hfirst (runAll_cons hsecond rfl)
  obtain ⟨-, hall⟩ := runAll_does_not_interfere implementation_local silent_reportsOnly hrun
  rw [hstarts] at hall
  exact ⟨implementation_local, silent_reportsOnly, _, _, w', hrun, rfl,
    (List.forall₂_cons.mp hall).1.2 silent silent_reportsOnly _ _ _ _ hrun 1 _ (by rw [hstarts]; rfl)
      rfl⟩

/-! ### A marker that tells -/

/-- Sets an attribute of the failure marker. -/
def marking : Feature := .ofAction false (.bind "x.seen" (.scalar (.int 1)))

/-- Reads the attribute. -/
def asking : Feature := .ofAction false (.read none "x.seen" (.scalar (.int 1)))

theorem marking_plain : marking.IsPlain := bind_plain (by decide +kernel) _

theorem asking_plain : asking.IsPlain where
  shape := by decide +kernel
  paths := by decide +kernel

/-- The world behind a specification that marks. -/
def markedWorld (log : Array Record) : World Tool :=
  { opened "a" 0 (startWorld (World.ofStore Store.empty)) log with
    store := (startWorld (World.ofStore Store.empty)).store.mark .error "seen" (.int 1) }

/-- The marker has its attribute after the run. -/
theorem marking_runs : ∃ log,
    runFrom (runSpecification implementation silent (specification "a" marking))
      (World.ofStore Store.empty) =
        (.ok (report "a" marking 0 ⟨marking, .passed, .int 1, none⟩), markedWorld log) := by
  refine specification_runs rfl (by decide) rfl fun log => ?_
  have hwalk : runFrom (Scope.locate implementation 0 "x.seen")
      (opened "a" 0 (startWorld (World.ofStore Store.empty)) log) =
        (.ok (.value .error, "seen"), opened "a" 0 (startWorld (World.ofStore Store.empty)) log) := rfl
  have hconstant : Name.isConstant "seen" = false := by decide +kernel
  have hassigned : ∃ log', runFrom (Scope.assign implementation 0 "x.seen" (.int 1))
      (opened "a" 0 (startWorld (World.ofStore Store.empty)) log) = (.ok (), markedWorld log') := by
    rw [Scope.assign_stages, hwalk]
    dsimp only
    rw [Scope.runFrom_isBoundConstant, if_neg (by simp [hconstant])]
    exact ⟨_, rfl⟩
  obtain ⟨_, hassigned⟩ := hassigned
  obtain ⟨log', hrun⟩ := runFeature_bind_scalar hassigned (hasForm_int 1) (by decide) rfl
  exact ⟨log', hrun⟩

/-- Alone, a specification that asks does not find the attribute. -/
theorem asking_fails : ∃ w',
    runFrom (runSpecification implementation silent (specification "b" asking))
      (World.ofStore Store.empty) =
        (.ok (report "b" asking 0 ⟨asking, .failed, .error,
          some ("Exception: " ++ (Fault.unbound "x.seen").describe)⟩), w') := by
  have hasked : ∀ log, ∃ log', runFrom (runFeature implementation 0 asking)
      (opened "b" 0 (startWorld (World.ofStore Store.empty)) log) =
        (.ok ⟨asking, .failed, .error, some ("Exception: " ++ (Fault.unbound "x.seen").describe)⟩,
          opened "b" 0 (startWorld (World.ofStore Store.empty)) log') := by
    intro log
    have hexecuted : runFrom (execute implementation 0 asking)
        (opened "b" 0 (startWorld (World.ofStore Store.empty)) log) =
          (.ok (.failed (.resolved (.int 1)) (.unbound "x.seen")),
            opened "b" 0 (startWorld (World.ofStore Store.empty)) log) := rfl
    rw [runFeature_of_tested ⟨rfl, rfl⟩, runFrom_bind_of_ok hexecuted]
    exact ⟨_, judge_failed asking (hasForm_int 1) (by decide) rfl _ _⟩
  obtain ⟨log, hrun⟩ := @specification_runs "b" asking 0 (World.ofStore Store.empty)
    (startWorld (World.ofStore Store.empty)) rfl (by decide) rfl _ (startWorld _).store hasked
  exact ⟨_, hrun⟩

/-- Behind one that marks, it finds it. -/
theorem asking_passes (log : Array Record) : ∃ w',
    runFrom (runSpecification implementation silent (specification "b" asking)) (markedWorld log) =
      (.ok (report "b" asking 1 ⟨asking, .passed, .int 1, none⟩), w') := by
  have hasked : ∀ log', ∃ log'', runFrom (runFeature implementation 1 asking)
      (opened "b" 1 (startWorld (markedWorld log)) log') =
        (.ok ⟨asking, .passed, .int 1, none⟩, opened "b" 1 (startWorld (markedWorld log)) log'') := by
    intro log'
    have hexecuted : runFrom (execute implementation 1 asking)
        (opened "b" 1 (startWorld (markedWorld log)) log') =
          (.ok (.done (.int 1) (.int 1)), opened "b" 1 (startWorld (markedWorld log)) log') := rfl
    rw [runFeature_of_tested ⟨rfl, rfl⟩, runFrom_bind_of_ok hexecuted]
    exact ⟨_, judge_passed asking (hasForm_int 1) (hasForm_int 1) (by decide) rfl _⟩
  obtain ⟨log', hrun⟩ := @specification_runs "b" asking 1 (markedWorld log)
    (startWorld (markedWorld log)) rfl (Nat.lt_succ_self 1) rfl _ (startWorld _).store hasked
  exact ⟨_, hrun⟩

/-- An attribute set on the failure marker is there for the specifications that
come later: one of them succeeds behind the other and fails alone. -/
theorem marks_interfere :
    implementation.Local ∧ (specification "a" marking).IsPlain ∧
      (specification "b" asking).IsPlain ∧ ∃ r r' r₀ w w₀,
      runFrom (runAll implementation silent [specification "a" marking, specification "b" asking])
        (World.ofStore Store.empty) = (.ok [r, r'], w) ∧
      runFrom (runAll implementation silent [specification "b" asking])
        (World.ofStore Store.empty) = (.ok [r₀], w₀) ∧
      r'.success = true ∧ r₀.success = false := by
  obtain ⟨log, hmarked⟩ := marking_runs
  obtain ⟨w, hpassed⟩ := asking_passes log
  obtain ⟨w₀, hfailed⟩ := asking_fails
  exact ⟨implementation_local, specification_plain marking_plain, specification_plain asking_plain,
    _, _, _, w, w₀, runAll_cons hmarked (runAll_cons hpassed rfl), runAll_cons hfailed rfl, rfl, rfl⟩

end Run.Shelf

end Conformance
