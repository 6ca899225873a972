import Conformance.Proofs.FrontEnds
import Conformance.Proofs.Writable
import Conformance.Yaml.Documents

/-!
# Loading a declared specification

A stream of documents that declares a package is loaded entry by entry.  Its specification has
the features of the entries up to the first that is none, and where the entries or the hooks are
at fault it keeps the fault and has no hooks.

The faults that are kept are those of the grammar, of hook source and of YAML.  `Raises` lists
where another comes from: the first document, an entry that says what cannot be written, and a
hooks document with a value that cannot be made.  `parse_loads_or_raises` says that these are all,
and what is loaded otherwise.
-/

namespace Conformance

variable {ω : Type}

/-! ## Declarations -/

/-- The entry declares a package for a target. -/
structure Declares (target : String) (entry : Literal) (package : String) : Prop where
  named : package ≠ ""
  entry : ∃ f value, Feature.parse entry target = .ok f ∧ f.skip = false ∧
    f.action = .bind FeatureKey.packageKey value ∧ value.text? = some package

namespace Specification

/-- An entry declares a package if it is read as a declaration of it. -/
theorem declares_iff {target package : String} {entry : Literal} :
    Declares target entry package ↔ declaredBy target entry = .ok (some package) := by
  unfold declaredBy
  constructor
  · intro h
    obtain ⟨hnamed, f, value, hparse, hskip, haction, htext⟩ := h
    rw [hparse]
    dsimp only
    unfold declared?
    rw [haction]
    simp [hskip, htext, hnamed]
  · intro h
    cases hparse : Feature.parse entry target with
    | error fault =>
        rw [hparse] at h
        cases fault <;> cases h
    | ok f =>
        rw [hparse] at h
        have hdeclared := Except.ok.inj h
        unfold declared? at hdeclared
        split at hdeclared
        · rename_i name value haction
          by_cases hother : (f.skip || name ≠ FeatureKey.packageKey) = true
          · rw [if_pos hother] at hdeclared
            cases hdeclared
          · rw [if_neg hother] at hdeclared
            obtain ⟨htext, hnamed⟩ := Option.filter_eq_some_iff.mp hdeclared
            simp at hother hnamed
            obtain ⟨hskip, rfl⟩ := hother
            exact ⟨hnamed, f, value, hparse, hskip, haction, htext⟩
        · cases hdeclared

end Specification

/-! ## Entries -/

/-- The entry is a feature for a target. -/
def Parses (target : String) (entry : Literal) (f : Feature) : Prop :=
  Feature.parse entry target = .ok f

/-- The feature, which may be skipped with the comment before it. -/
structure Feature.Sectioned (own f : Feature) : Prop where
  text : f.text = own.text
  action : f.action = own.action
  skip : own.skip = true → f.skip = true

namespace Specification

/-- Features are passed the skipping of comments and are otherwise left as they are. -/
theorem sectioned_forall₂ (skip : Bool) (fs : List Feature) :
    List.Forall₂ Feature.Sectioned fs (sectioned skip fs) := by
  induction fs generalizing skip with
  | nil => exact .nil
  | cons f fs ih =>
      rw [sectioned]
      refine .cons ⟨rfl, rfl, fun h => ?_⟩ (ih _)
      dsimp only
      rw [h, Bool.or_true]

variable {target : String} {entries : List Literal}

/-- Entries that are features are read to their end. -/
theorem parseEntries_of_all {fs : List Feature} (h : List.Forall₂ (Parses target) entries fs) :
    parseEntries target entries = (fs, none) := by
  induction h with
  | nil => rfl
  | cons hentry hrest ih => rw [parseEntries, hentry, ih]

/-- Entries are read up to the first that is no feature. -/
theorem parseEntries_of_first {before after : List Literal} {entry : Literal} {fs : List Feature}
    {fault : Fault} (hbefore : List.Forall₂ (Parses target) before fs)
    (h : Feature.parse entry target = .error fault) :
    parseEntries target (before ++ entry :: after) = (fs, some fault) := by
  induction hbefore with
  | nil => rw [List.nil_append, parseEntries, h]
  | cons hentry hrest ih => rw [List.cons_append, parseEntries, hentry, ih]

variable (target entries) in
/-- All entries are features, or there is a first that is none. -/
theorem all_or_first :
    (∃ fs, List.Forall₂ (Parses target) entries fs) ∨
      ∃ before entry after fs fault, entries = before ++ entry :: after ∧
        List.Forall₂ (Parses target) before fs ∧ Feature.parse entry target = .error fault := by
  induction entries with
  | nil => exact Or.inl ⟨[], .nil⟩
  | cons first entries ih =>
      cases hfirst : Feature.parse first target with
      | error fault => exact Or.inr ⟨[], first, entries, [], fault, rfl, .nil, hfirst⟩
      | ok f =>
          rcases ih with ⟨fs, hfs⟩ | ⟨before, entry, after, fs, fault, rfl, hbefore, hfault⟩
          · exact Or.inl ⟨f :: fs, .cons hfirst hfs⟩
          · exact Or.inr ⟨first :: before, entry, after, f :: fs, fault, rfl,
              .cons hfirst hbefore, hfault⟩

/-- Not all entries are features if one is none. -/
theorem not_all_of_first {before after : List Literal} {entry : Literal} {fault : Fault}
    (h : Feature.parse entry target = .error fault) :
    ¬ ∃ fs, List.Forall₂ (Parses target) (before ++ entry :: after) fs := by
  rintro ⟨fs, hfs⟩
  induction before generalizing fs with
  | nil =>
      cases hfs with
      | cons hentry => cases h.symm.trans hentry
  | cons first before ih =>
      cases hfs with
      | cons _ hrest => exact ih _ hrest

/-! ## Hooks -/

section Hooks

variable (loader : HookLoader ω) (target : String) (source : Option String)

/-- The hooks of a document are those of its source for the target, if it has one. -/
theorem parseHooks_cons (document : Literal) (rest : Documents) :
    parseHooks loader target source (.ok document :: rest) =
      (hookSource? target document).elim (.ok [])
        (fun text => loadHooks loader text (hookFile source)) := by
  unfold parseHooks
  dsimp only [Bind.bind, Except.bind]
  cases hookSource? target document with
  | none => rfl
  | some text => rfl

/-- The hooks that further documents give: those of the source for the target, without the
private ones, and none if there is no document or it has no such source. -/
inductive HooksLoad : Documents → List (String × ω) → Prop
  | absent : HooksLoad [] []
  | sourceless {document : Literal} {rest : Documents}
      (hsource : hookSource? target document = none) : HooksLoad (.ok document :: rest) []
  | loaded {document : Literal} {rest : Documents} {text : String} {defined : List (String × ω)}
      (hsource : hookSource? target document = some text)
      (hload : loader text (hookFile source) = .ok defined) :
      HooksLoad (.ok document :: rest) (defined.filter fun e => !isPrivate e.1)

/-- Further documents give no hooks: the first cannot be read, or its source does not load. -/
inductive HooksFail : Documents → Fault → Prop
  | unread {fault : Fault} {rest : Documents} : HooksFail (.error fault :: rest) fault
  | unloadable {document : Literal} {rest : Documents} {text reason : String}
      (hsource : hookSource? target document = some text)
      (hload : loader text (hookFile source) = .error reason) :
      HooksFail (.ok document :: rest) (.hooksUnloadable (hookFile source) reason)

/-- Further documents give hooks or they do not. -/
theorem parseHooks_cases (documents : Documents) :
    (∃ hooks, parseHooks loader target source documents = .ok hooks ∧
      HooksLoad loader target source documents hooks) ∨
    ∃ fault, parseHooks loader target source documents = .error fault ∧
      HooksFail loader target source documents fault := by
  cases documents with
  | nil => exact Or.inl ⟨[], rfl, .absent⟩
  | cons document rest =>
      cases document with
      | error fault => exact Or.inr ⟨fault, rfl, .unread⟩
      | ok document =>
          rw [parseHooks_cons]
          cases hsource : hookSource? target document with
          | none => exact Or.inl ⟨[], rfl, .sourceless hsource⟩
          | some text =>
              rw [Option.elim_some]
              unfold loadHooks
              cases hload : loader text (hookFile source) with
              | error reason => exact Or.inr ⟨_, rfl, .unloadable hsource hload⟩
              | ok defined => exact Or.inl ⟨_, rfl, .loaded hsource hload⟩

variable {loader target source}

/-- Documents do not give hooks and none. -/
theorem HooksLoad.not_fail {documents : Documents} {hooks : List (String × ω)} {fault : Fault}
    (h : HooksLoad loader target source documents hooks) :
    ¬ HooksFail loader target source documents fault := by
  intro hfail
  cases hfail with
  | unread => cases h
  | unloadable hsource hload =>
      cases h with
      | sourceless hnone => cases hsource.symm.trans hnone
      | loaded hsome hok =>
          cases hsource.symm.trans hsome
          cases hload.symm.trans hok

end Hooks

/-! ## Streams -/

/-- The first document is a list of entries that starts with the declaration of a package. -/
inductive DeclaresPackage (target : String) :
    Documents → List Literal → Documents → String → Prop
  | intro {declaration : Literal} {later : List Literal} {rest : Documents} {package : String}
      (h : Declares target declaration package) :
      DeclaresPackage target (.ok (.list (declaration :: later)) :: rest) (declaration :: later)
        rest package

/-- Where a fault comes from that is not kept: the first document cannot be read, or its first
entry says what cannot be written, or one behind the declaration does, or the hooks document
cannot be read, and that for another reason than its YAML. -/
inductive Raises (target : String) : Documents → Fault → Prop
  | unread {fault : Fault} {rest : Documents} : Raises target (.error fault :: rest) fault
  | declaration {entry : Literal} {entries : List Literal} {rest : Documents} {fault : Fault}
      (hentry : Feature.parse entry target = .error fault) (hkept : isKept fault = false) :
      Raises target (.ok (.list (entry :: entries)) :: rest) fault
  | entry {documents rest : Documents} {before after : List Literal} {entry : Literal}
      {package : String} {fs : List Feature} {fault : Fault}
      (hdeclares : DeclaresPackage target documents (before ++ entry :: after) rest package)
      (hbefore : List.Forall₂ (Parses target) before fs)
      (hentry : Feature.parse entry target = .error fault) (hkept : isKept fault = false) :
      Raises target documents fault
  | hooks {documents rest : Documents} {entries : List Literal} {package : String}
      {fs : List Feature} {fault : Fault}
      (hdeclares : DeclaresPackage target documents entries (.error fault :: rest) package)
      (hentries : List.Forall₂ (Parses target) entries fs) (hkept : isKept fault = false) :
      Raises target documents fault

/-- **What is loaded** of entries and further documents.  The features are those of the longest
part of the entries up to one that does not follow the grammar.  There is no fault exactly if
every entry is a feature and the further documents give hooks, and these are then the hooks; with
a fault there are none. -/
structure Loaded (loader : HookLoader ω) (target : String) (source : Option String)
    (package : String) (entries : List Literal) (rest : Documents) (spec : Specification ω) :
    Prop where
  package : spec.package = package
  features : ∃ good bad fs, entries = good ++ bad ∧ List.Forall₂ (Parses target) good fs ∧
    List.Forall₂ Feature.Sectioned fs spec.features ∧
    ∀ entry after, bad = entry :: after →
      ∃ why, Feature.parse entry target = .error (.malformed why)
  error : spec.error = none ↔
    (∃ fs, List.Forall₂ (Parses target) entries fs) ∧
      ∃ hooks, HooksLoad loader target source rest hooks
  hooks : spec.error = none → HooksLoad loader target source rest spec.hooks
  withoutHooks : spec.error ≠ none → spec.hooks = []

variable {loader : HookLoader ω} {source : Option String} {package : String} {rest : Documents}

/-- A fault of an entry that is kept is one of the grammar. -/
theorem malformed_of_isKept {entry : Literal} {fault : Fault}
    (h : Feature.parse entry target = .error fault) (hkept : isKept fault = true) :
    ∃ why, fault = .malformed why := by
  rcases Feature.parse_error_cases h with hwhy | ⟨-, type, rfl⟩
  · exact hwhy
  · cases hkept

/-- Building with an entry that is no feature. -/
theorem build_of_first {before after : List Literal} {entry : Literal} {fs : List Feature}
    {fault : Fault} (hbefore : List.Forall₂ (Parses target) before fs)
    (h : Feature.parse entry target = .error fault) :
    build loader target source package (before ++ entry :: after) rest =
      if isKept fault then
        .ok ⟨package, sectioned false fs, [], source.toList, some fault⟩
      else .error fault := by
  unfold build
  rw [parseEntries_of_first hbefore h]

/-- Building with entries that are features and hooks that load. -/
theorem build_of_hooks {fs : List Feature} {hooks : List (String × ω)}
    (hentries : List.Forall₂ (Parses target) entries fs)
    (hhooks : parseHooks loader target source rest = .ok hooks) :
    build loader target source package entries rest =
      .ok ⟨package, sectioned false fs, hooks, source.toList, none⟩ := by
  unfold build
  rw [parseEntries_of_all hentries]
  dsimp only
  rw [hhooks]

/-- Building with entries that are features and hooks that do not load. -/
theorem build_of_unhooked {fs : List Feature} {fault : Fault}
    (hentries : List.Forall₂ (Parses target) entries fs)
    (hhooks : parseHooks loader target source rest = .error fault) :
    build loader target source package entries rest =
      if isKept fault then
        .ok ⟨package, sectioned false fs, [], source.toList, some fault⟩
      else .error fault := by
  unfold build
  rw [parseEntries_of_all hentries]
  dsimp only
  rw [hhooks]

/-! ### Loading -/

/-- An entry that says what cannot be written is no declaration and not none. -/
theorem declaredBy_eq_error_iff {entry : Literal} {fault : Fault} :
    declaredBy target entry = .error fault ↔
      Feature.parse entry target = .error fault ∧ isKept fault = false := by
  unfold declaredBy
  cases hparse : Feature.parse entry target with
  | ok f => exact ⟨nofun, fun h => nomatch h.1⟩
  | error other =>
      rcases Feature.parse_error_cases hparse with ⟨why, rfl⟩ | ⟨-, type, rfl⟩
      · refine ⟨nofun, ?_⟩
        rintro ⟨⟨⟩, ⟨⟩⟩
      · constructor
        · rintro ⟨⟩
          exact ⟨rfl, rfl⟩
        · rintro ⟨⟨⟩, -⟩
          rfl

variable (loader source) in
/-- A stream that declares a package is built. -/
theorem parse_eq_build {documents : Documents}
    (h : DeclaresPackage target documents entries rest package) :
    parse loader target source documents =
      (build loader target source package entries rest).map some := by
  cases h with
  | @intro declaration later _ _ hdeclares =>
      change (declaredBy target declaration >>= _) = _
      rw [declares_iff.mp hdeclares]
      change (build loader target source package (declaration :: later) rest >>= _) = _
      cases build loader target source package (declaration :: later) rest with
      | error fault => rfl
      | ok spec => rfl

variable (loader source) in
/-- What raises a fault makes loading fail with it. -/
theorem Raises.parse_eq {documents : Documents} {fault : Fault}
    (h : Raises target documents fault) :
    parse loader target source documents = .error fault := by
  cases h with
  | unread => rfl
  | @declaration entry _ _ _ hentry hkept =>
      change (declaredBy target entry >>= _) = _
      rw [declaredBy_eq_error_iff.mpr ⟨hentry, hkept⟩]
      rfl
  | entry hdeclares hbefore hentry hkept =>
      rw [parse_eq_build loader source hdeclares, build_of_first hbefore hentry, hkept]
      rfl
  | @hooks _ rest _ _ _ _ hdeclares hentries hkept =>
      have hhooks : parseHooks loader target source (.error fault :: rest) = .error fault := rfl
      rw [parse_eq_build loader source hdeclares, build_of_unhooked hentries hhooks, hkept]
      rfl

variable (loader source) in
/-- **Loading what declares a package** gives a specification with what is loaded, or something
raises a fault. -/
theorem parse_declared {documents : Documents}
    (h : DeclaresPackage target documents entries rest package) :
    (∃ spec, parse loader target source documents = .ok (some spec) ∧
      Loaded loader target source package entries rest spec) ∨
    ∃ fault, Raises target documents fault := by
  have hparse := parse_eq_build loader source h
  rcases all_or_first target entries with
    ⟨fs, hfs⟩ | ⟨before, entry, after, fs, fault, rfl, hbefore, hentry⟩
  · have hall : ∃ good bad fs', entries = good ++ bad ∧ List.Forall₂ (Parses target) good fs' ∧
        List.Forall₂ Feature.Sectioned fs' (sectioned false fs) ∧ ∀ entry after,
          bad = entry :: after → ∃ why, Feature.parse entry target = .error (.malformed why) :=
      ⟨entries, [], fs, (List.append_nil _).symm, hfs, sectioned_forall₂ false fs, nofun⟩
    rcases parseHooks_cases loader target source rest with
      ⟨hooks, hhooks, hload⟩ | ⟨fault, hhooks, hfail⟩
    · rw [build_of_hooks hfs hhooks] at hparse
      exact Or.inl ⟨_, hparse, rfl, hall, ⟨fun _ => ⟨⟨fs, hfs⟩, hooks, hload⟩, fun _ => rfl⟩,
        fun _ => hload, fun hnot => absurd rfl hnot⟩
    · rw [build_of_unhooked hfs hhooks] at hparse
      cases hkept : isKept fault with
      | true =>
          rw [hkept] at hparse
          refine Or.inl ⟨_, hparse, rfl, hall, ⟨nofun, ?_⟩, nofun, fun _ => rfl⟩
          rintro ⟨-, hooks, hload⟩
          exact absurd hfail hload.not_fail
      | false =>
          cases hfail with
          | unread => exact Or.inr ⟨_, .hooks h hfs hkept⟩
          | unloadable => cases hkept
  · rw [build_of_first hbefore hentry] at hparse
    cases hkept : isKept fault with
    | false => exact Or.inr ⟨fault, .entry h hbefore hentry hkept⟩
    | true =>
        obtain ⟨why, rfl⟩ := malformed_of_isKept hentry hkept
        rw [hkept] at hparse
        refine Or.inl ⟨_, hparse, rfl, ⟨before, entry :: after, fs, rfl, hbefore,
          sectioned_forall₂ false fs, ?_⟩, ⟨nofun, ?_⟩, nofun, fun _ => rfl⟩
        · rintro entry' after' ⟨⟩
          exact ⟨why, hentry⟩
        · rintro ⟨hall, -⟩
          exact absurd hall (not_all_of_first hentry)

variable (loader source) in
/-- Loading what declares no package gives nothing, or something raises a fault. -/
theorem parse_undeclared {documents : Documents}
    (h : ¬ ∃ entries rest package, DeclaresPackage target documents entries rest package) :
    parse loader target source documents = .ok none ∨ ∃ fault, Raises target documents fault := by
  cases documents with
  | nil => exact Or.inl rfl
  | cons first rest =>
      cases first with
      | error fault => exact Or.inr ⟨fault, .unread⟩
      | ok first =>
          cases first with
          | list entries =>
              cases entries with
              | nil => exact Or.inl rfl
              | cons entry entries =>
                  cases hdeclared : declaredBy target entry with
                  | error fault =>
                      obtain ⟨hentry, hkept⟩ := declaredBy_eq_error_iff.mp hdeclared
                      exact Or.inr ⟨fault, .declaration hentry hkept⟩
                  | ok package? =>
                      cases package? with
                      | some package =>
                          exact absurd ⟨_, _, _, .intro (declares_iff.mpr hdeclared)⟩ h
                      | none =>
                          refine Or.inl ?_
                          change (declaredBy target entry >>= _) = _
                          rw [hdeclared]
                          rfl
          | scalar s => exact Or.inl rfl
          | reference path => exact Or.inl rfl
          | tuple items => exact Or.inl rfl
          | map entries => exact Or.inl rfl

variable (loader source) in
/-- **Loading fails** exactly with what raises a fault. -/
theorem parse_eq_error_iff {documents : Documents} {fault : Fault} :
    parse loader target source documents = .error fault ↔ Raises target documents fault := by
  constructor
  · intro h
    by_cases hdeclares : ∃ entries rest package,
        DeclaresPackage target documents entries rest package
    · obtain ⟨entries, rest, package, hdeclares⟩ := hdeclares
      rcases parse_declared loader source hdeclares with ⟨spec, hspec, -⟩ | ⟨other, hother⟩
      · cases h.symm.trans hspec
      · cases h.symm.trans (hother.parse_eq loader source)
        exact hother
    · rcases parse_undeclared loader source hdeclares with hnone | ⟨other, hother⟩
      · cases h.symm.trans hnone
      · cases h.symm.trans (hother.parse_eq loader source)
        exact hother
  · exact fun h => h.parse_eq loader source

/-- A fault is raised by the first document, for what cannot be written, or by another document
and not kept. -/
theorem Raises.origin {documents : Documents} {fault : Fault} (h : Raises target documents fault) :
    (∃ later, documents = .error fault :: later) ∨ (∃ type, fault = .jsonKey type) ∨
      .error fault ∈ documents ∧ isKept fault = false := by
  have hentry : ∀ {entry : Literal}, Feature.parse entry target = .error fault →
      isKept fault = false → ∃ type, fault = .jsonKey type := by
    intro entry hparse hkept
    rcases Feature.parse_error_cases hparse with ⟨why, rfl⟩ | ⟨-, type, rfl⟩
    · cases hkept
    · exact ⟨type, rfl⟩
  cases h with
  | unread => exact Or.inl ⟨_, rfl⟩
  | declaration hparse hkept => exact Or.inr (Or.inl (hentry hparse hkept))
  | entry _ _ hparse hkept => exact Or.inr (Or.inl (hentry hparse hkept))
  | hooks hdeclares _ hkept =>
      cases hdeclares
      exact Or.inr (Or.inr ⟨List.mem_cons_of_mem _ List.mem_cons_self, hkept⟩)

/-- With values that can be written only a document that cannot be read raises a fault. -/
theorem Raises.unreadable {documents : Documents} {fault : Fault}
    (h : Raises target documents fault)
    (hwritable : ∀ v, .ok v ∈ documents → v.Writable) : .error fault ∈ documents := by
  have hentries : ∀ {entries rest package}, DeclaresPackage target documents entries rest package →
      ∀ entry ∈ entries, entry.Writable := by
    rintro entries rest package ⟨-⟩
    exact Literal.writable_list_iff.mp (hwritable _ List.mem_cons_self)
  have hkeeps : ∀ {entry : Literal}, entry.Writable → Feature.parse entry target = .error fault →
      isKept fault = true := by
    intro entry hentry hparse
    obtain ⟨why, rfl⟩ := Feature.parse_fault hentry hparse
    rfl
  cases h with
  | unread => exact List.mem_cons_self
  | declaration hentry hkept =>
      have hfirst := Literal.writable_list_iff.mp (hwritable _ List.mem_cons_self)
      rw [hkeeps (hfirst _ List.mem_cons_self) hentry] at hkept
      cases hkept
  | entry hdeclares _ hentry hkept =>
      have hmem := hentries hdeclares _ (List.mem_append_right _ List.mem_cons_self)
      rw [hkeeps hmem hentry] at hkept
      cases hkept
  | hooks hdeclares =>
      cases hdeclares
      exact List.mem_cons_of_mem _ List.mem_cons_self

/-- **Loading is all or a prefix** where nothing raises a fault, and it fails exactly with what is
raised.  Otherwise there is no specification exactly if no package is declared, and if one is,
the specification has what is loaded.  Of documents whose values can all be written only one that
cannot be read raises a fault. -/
theorem parse_loads_or_raises (loader : HookLoader ω) (target : String) (source : Option String)
    (documents : Documents) :
    (∀ fault, parse loader target source documents = .error fault ↔
      Raises target documents fault) ∧
    (parse loader target source documents = .ok none ↔
      (¬ ∃ fault, Raises target documents fault) ∧
        ¬ ∃ entries rest package, DeclaresPackage target documents entries rest package) ∧
    (∀ entries rest package, DeclaresPackage target documents entries rest package →
      (¬ ∃ fault, Raises target documents fault) →
      ∃ spec, parse loader target source documents = .ok (some spec) ∧
        Loaded loader target source package entries rest spec) ∧
    ((∀ v, .ok v ∈ documents → v.Writable) →
      ∀ fault, Raises target documents fault → .error fault ∈ documents) := by
  refine ⟨fun _ => parse_eq_error_iff loader source, ⟨fun h => ⟨?_, ?_⟩, ?_⟩, ?_, ?_⟩
  · rintro ⟨fault, hfault⟩
    cases h.symm.trans (hfault.parse_eq loader source)
  · rintro ⟨entries, rest, package, hdeclares⟩
    rcases parse_declared loader source hdeclares with ⟨spec, hspec, -⟩ | ⟨other, hother⟩
    · cases h.symm.trans hspec
    · cases h.symm.trans (hother.parse_eq loader source)
  · rintro ⟨hquiet, hdeclares⟩
    exact (parse_undeclared loader source hdeclares).resolve_right hquiet
  · exact fun entries rest package hdeclares hquiet =>
      (parse_declared loader source hdeclares).resolve_right hquiet
  · exact fun hwritable fault h => h.unreadable hwritable

/-- A stream whose third entry is a number. -/
def brokenStream : Documents :=
  [.ok (.list [.map [(.str "PACKAGE", .scalar (.str "p"))], .scalar (.str "A comment"),
      .scalar (.int 3), .scalar (.str "Another comment")]),
    .ok (.map [])]

/-- It is loaded up to there. -/
theorem brokenStream_loaded :
    (∃ entries rest, DeclaresPackage "py" brokenStream entries rest "p") ∧
    (¬ ∃ fault, Raises "py" brokenStream fault) ∧
    (∀ v, .ok v ∈ brokenStream → v.Writable) ∧
    ∃ spec, parse emptyLoader "py" none brokenStream = .ok (some spec) ∧ spec.package = "p" ∧
      spec.features.length = 2 ∧ spec.error ≠ none ∧ spec.hooks = [] := by
  have hdeclares : Declares "py" (.map [(.str "PACKAGE", .scalar (.str "p"))]) "p" :=
    declares_iff.mpr (by decide +kernel)
  have hwritable : ∀ v, .ok v ∈ brokenStream → v.Writable := by
    intro v hv
    rcases List.mem_cons.mp hv with heq | hv
    · cases heq
      rfl
    · cases List.mem_singleton.mp hv
      rfl
  obtain ⟨-, -, hloads, hunread⟩ := parse_loads_or_raises emptyLoader "py" none brokenStream
  have hquiet : ¬ ∃ fault, Raises "py" brokenStream fault := by
    rintro ⟨fault, hfault⟩
    have hmem := hunread hwritable fault hfault
    unfold brokenStream at hmem
    simp at hmem
  obtain ⟨spec, hspec, hloaded⟩ := hloads _ _ "p" (.intro hdeclares) hquiet
  have hcount : ((parse emptyLoader "py" none brokenStream).toOption.bind id).map
      (·.features.length) = some 2 := by decide +kernel
  have hbroken : spec.error ≠ none := by
    intro hnone
    obtain ⟨hall, -⟩ := hloaded.error.mp hnone
    have hthree : Feature.parse (.scalar (.int 3)) "py" =
        .error (.malformed (.shape (String.ofList (Literal.scalar (.int 3)).shown))) := rfl
    have hnot : ¬ ∃ fs, List.Forall₂ (Parses "py")
        ([.map [(.str "PACKAGE", .scalar (.str "p"))], .scalar (.str "A comment")] ++
          .scalar (.int 3) :: [.scalar (.str "Another comment")]) fs := not_all_of_first hthree
    exact hnot hall
  rw [hspec] at hcount
  exact ⟨⟨_, _, .intro hdeclares⟩, hquiet, hwritable, spec, hspec, hloaded.package,
    Option.some.inj hcount, hbroken, hloaded.withoutHooks hbroken⟩

/-- A text that declares a package and has a month that is none in its hooks document. -/
def impossibleDate : String := "- PACKAGE: p\n---\npy: 2020-13-01\n"

/-- The documents are a declaration of the package `p` and one that cannot be read, and not for
its YAML. -/
def isUnkeptDeclaration : Documents → Bool
  | [.ok (.list [declaration]), .error fault] =>
    (declaredBy "py" declaration).toOption == some (some "p") && !isKept fault
  | _ => false

/-- Not every text that declares a package is loaded. -/
theorem declared_not_always_loaded :
    ¬ ∀ (text : List Char) (entries : List Literal) (rest : Documents) (package : String),
      DeclaresPackage "py" (Yaml.documents text) entries rest package →
      ∃ spec, parse emptyLoader "py" none (Yaml.documents text) = .ok (some spec) := by
  intro h
  have hdate : isUnkeptDeclaration (Yaml.documents impossibleDate.toList) = true := by
    decide +kernel
  have hall := h impossibleDate.toList
  generalize Yaml.documents impossibleDate.toList = documents at hdate hall
  unfold isUnkeptDeclaration at hdate
  split at hdate
  · rename_i declaration fault
    obtain ⟨hdeclared, hkept⟩ := Bool.and_eq_true_iff.mp hdate
    rw [Bool.not_eq_true'] at hkept
    cases hby : declaredBy "py" declaration with
    | error other =>
        rw [hby] at hdeclared
        cases hdeclared
    | ok package? =>
        rw [hby] at hdeclared
        obtain rfl : package? = some "p" := Option.some.inj (eq_of_beq hdeclared)
        have hdeclares := declares_iff.mpr hby
        obtain ⟨f, -, hparse, -⟩ := hdeclares.entry
        have hraises : Raises "py" [.ok (.list [declaration]), .error fault] fault :=
          .hooks (.intro hdeclares) (.cons hparse .nil) hkept
        obtain ⟨spec, hspec⟩ := hall _ _ _ (.intro hdeclares)
        cases (hraises.parse_eq emptyLoader none).symm.trans hspec
  · cases hdate

end Specification

end Conformance
