import Conformance.Proofs.Filters
import Conformance.Proofs.Continuation

/-!
# Sections

A comment starts a section, which reaches up to the next comment, and its filter counts for the
whole of it.  Entries are read with one flag that every comment sets anew (`sectioned`); what an
entry finds in it is said here without the flag: the filter of the nearest comment at or before
the entry (`NearestComment`), and nothing before the first one.

The other half of the rule is the entry's own filter.  A key is folded before it is taken apart,
so the tags that count are not always those that are written (`Literal.readTags?`); `TagsKept`
says which entries have the filter that is written.
-/

namespace Conformance

/-! ## The filter of an entry -/

namespace FeatureKey

/-- The tags in parentheses at the start of a text. -/
def tags? (cs : List Char) : Option (List Char) := (parenthesis? cs).map (·.1)

theorem comment_filter (cs : List Char) : (comment cs).1 = tags? cs := by
  unfold comment tags?
  cases parenthesis? cs <;> rfl

end FeatureKey

open FeatureKey

namespace Literal

/-- The tags of an entry as they are written at the start of the comment or of the key. -/
def writtenTags? : Literal → Option (List Char)
  | .map [(key, _)] => key.text?.bind fun text => tags? text.toList
  | entry => entry.text?.bind fun text => tags? text.toList

/-- The tags of an entry that count: those of a comment as they are written, those of a key as
they are left in the folded key. -/
def readTags? : Literal → Option (List Char)
  | .map [(key, _)] => key.text?.bind fun text => keptTags? (Name.camel text.toList)
  | entry => entry.text?.bind fun text => tags? text.toList

/-- Entries whose filter is read as it is written: comments, keys with a filter that has no
underscore and with no read marker right behind it, and keys that have no filter and start with
neither a parenthesis nor an underscore. -/
inductive TagsKept : Literal → Prop
  | comment {entry : Literal} {text : String} (h : entry.text? = some text) : TagsKept entry
  | filtered {key : Key} {right : Literal} {tags rest : String}
      (htext : key.text? = some (withFilter tags rest)) (hclosing : ')' ∉ tags.toList)
      (htags : '_' ∉ tags.toList) (hmark : ¬ readMark <+: Name.camel rest.toList) :
      TagsKept (.map [(key, right)])
  | unfiltered {key : Key} {right : Literal} {text : String} (htext : key.text? = some text)
      (hopening : text.toList.head? ≠ some '(') (hfold : text.toList.head? ≠ some '_') :
      TagsKept (.map [(key, right)])

theorem tags_of_text? {entry : Literal} {text : String} (h : entry.text? = some text) :
    entry.readTags? = tags? text.toList ∧ entry.writtenTags? = tags? text.toList := by
  cases entry with
  | scalar s =>
      unfold readTags? writtenTags?
      dsimp only
      rw [h]
      exact ⟨rfl, rfl⟩
  | _ => cases h

theorem tags?_of_head? {cs : List Char} (h : cs.head? ≠ some '(') :
    tags? cs = none ∧ keptTags? cs = none := by
  have hnone : parenthesis? cs = none := by
    unfold parenthesis?
    split
    · exact absurd rfl h
    · rfl
  unfold tags? keptTags?
  rw [hnone]
  exact ⟨rfl, rfl⟩

/-- **Kept tags** are read as they are written. -/
theorem TagsKept.readTags?_eq {entry : Literal} (h : entry.TagsKept) :
    entry.readTags? = entry.writtenTags? := by
  cases h with
  | comment htext =>
      obtain ⟨hread, hwritten⟩ := tags_of_text? htext
      rw [hread, hwritten]
  | @filtered key right tags rest htext hclosing htags hmark =>
      have hread : parenthesis? (Name.camel (withFilter tags rest).toList) =
          some (tags.toList, Name.camel rest.toList) := by
        rw [parenthesis?_withFilter hclosing, foldedTags_of_not_mem htags]
      have hwritten : parenthesis? (withFilter tags rest).toList =
          some (tags.toList, rest.toList) :=
        parenthesis?_eq_some_iff.mpr ⟨hclosing, toList_withFilter tags rest⟩
      unfold readTags? writtenTags?
      dsimp only
      rw [htext, Option.bind_some, Option.bind_some, keptTags?, tags?, hread, hwritten]
      exact if_neg hmark
  | @unfiltered key right text htext hopening hfold =>
      have hhead : (Name.camel text.toList).head? = text.toList.head? := by
        cases htext : text.toList with
        | nil => rfl
        | cons c rest =>
            rw [htext] at hfold
            have hc : c ≠ '_' := fun heq => hfold (congrArg some heq)
            have hcamel := Name.camel_append hc [] rest
            rw [List.nil_append, List.nil_append] at hcamel
            rw [hcamel]
            simp [Name.camel]
      unfold readTags? writtenTags?
      dsimp only
      rw [htext, Option.bind_some, Option.bind_some, (tags?_of_head? hopening).1,
        (tags?_of_head? (hhead ▸ hopening)).2]

end Literal

/-- **A feature's own filter** decides whether it is skipped by itself. -/
theorem Feature.skip_of_parse {entry : Literal} {target : String} {f : Feature}
    (h : Feature.parse entry target = .ok f) :
    f.skip = Filter.skips? entry.readTags? target := by
  rcases Feature.parse_cases h with ⟨text, htext, rfl⟩ | ⟨key, right, rfl⟩
  · rw [(Literal.tags_of_text? htext).1]
    exact congrArg (Filter.skips? · target) (comment_filter text.toList)
  · obtain ⟨text, filter, form, htext, hread, -, rfl⟩ := Feature.parse_entry_eq_ok_iff.mp h
    unfold Literal.readTags?
    dsimp only
    rw [htext, Option.bind_some, ← filter_of_read? hread]
    rfl

/-! ## The nearest comment -/

/-- The comment at a position, if there is one. -/
def commentAt? (entries : List Literal) (i : Nat) : Option String :=
  entries[i]?.bind Literal.text?

/-- The last comment at or before a position, and where it is. -/
structure NearestComment (entries : List Literal) (i j : Nat) (text : String) : Prop where
  before : j ≤ i
  comment : commentAt? entries j = some text
  nearest : ∀ k, j < k → k ≤ i → commentAt? entries k = none

/-- There is one nearest comment. -/
theorem NearestComment.unique {entries : List Literal} {i j j' : Nat} {text text' : String}
    (h : NearestComment entries i j text) (h' : NearestComment entries i j' text') :
    j = j' ∧ text = text' := by
  have hsame : j = j' := by
    rcases Nat.lt_trichotomy j j' with hlt | heq | hlt
    · cases h'.comment.symm.trans (h.nearest j' hlt h'.before)
    · exact heq
    · cases h.comment.symm.trans (h'.nearest j hlt h.before)
  subst hsame
  exact ⟨rfl, Option.some.inj (h.comment.symm.trans h'.comment)⟩

section Cons

variable {entry : Literal} {entries : List Literal}

/-- The nearest comment to the first entry is that entry. -/
theorem nearestComment_zero_iff {j : Nat} {text : String} :
    NearestComment (entry :: entries) 0 j text ↔ j = 0 ∧ entry.text? = some text := by
  constructor
  · intro h
    obtain rfl : j = 0 := Nat.le_zero.mp h.before
    exact ⟨rfl, h.comment⟩
  · rintro ⟨rfl, htext⟩
    exact ⟨Nat.le_refl 0, htext, fun k hk hk' => absurd hk' (Nat.not_le.mpr hk)⟩

/-- Behind the first entry, a nearest comment behind it is one of the other entries. -/
theorem nearestComment_succ_iff {i j : Nat} {text : String} :
    NearestComment (entry :: entries) (i + 1) (j + 1) text ↔ NearestComment entries i j text := by
  constructor
  · intro h
    exact ⟨Nat.succ_le_succ_iff.mp h.before, h.comment,
      fun k hk hk' => h.nearest (k + 1) (Nat.succ_lt_succ hk) (Nat.succ_le_succ hk')⟩
  · intro h
    refine ⟨Nat.succ_le_succ h.before, h.comment, fun k hk hk' => ?_⟩
    cases k with
    | zero => exact absurd hk (Nat.not_lt_zero _)
    | succ k => exact h.nearest k (Nat.lt_of_succ_lt_succ hk) (Nat.le_of_succ_le_succ hk')

/-- The first entry is the nearest comment to all entries up to the next one. -/
theorem nearestComment_first_iff {i : Nat} {text : String} :
    NearestComment (entry :: entries) (i + 1) 0 text ↔
      entry.text? = some text ∧ ∀ k ≤ i, commentAt? entries k = none := by
  constructor
  · intro h
    exact ⟨h.comment, fun k hk => h.nearest (k + 1) (Nat.succ_pos k) (Nat.succ_le_succ hk)⟩
  · rintro ⟨htext, hnone⟩
    refine ⟨Nat.zero_le _, htext, fun k hk hk' => ?_⟩
    cases k with
    | zero => exact absurd hk (Nat.lt_irrefl 0)
    | succ k => exact hnone k (Nat.le_of_succ_le_succ hk')

end Cons

/-! ## The flag and the nearest comment -/

section Flag

variable (target : String)

/-- The filter of the nearest comment excludes the target. -/
def SectionSkips (entries : List Literal) (i : Nat) : Prop :=
  ∃ j text, NearestComment entries i j text ∧ Filter.skips? (tags? text.toList) target = true

/-- What the flag says at a position if it is set to `skip` in front of the first entry: that the
nearest comment excludes the target or, if there is none, what it was set to. -/
def FlagSkips (skip : Bool) (entries : List Literal) (i : Nat) : Prop :=
  SectionSkips target entries i ∨ skip = true ∧ ∀ k ≤ i, commentAt? entries k = none

/-- The flag behind an entry. -/
def passedOn (skip : Bool) (entry : Literal) : Bool :=
  match entry.text? with
  | some text => Filter.skips? (tags? text.toList) target
  | none => skip

variable {target} {entry : Literal} {entries : List Literal}

/-- The flag at the first entry is the one behind it. -/
theorem flagSkips_zero_iff {skip : Bool} :
    FlagSkips target skip (entry :: entries) 0 ↔ passedOn target skip entry = true := by
  have hnone : (∀ k ≤ 0, commentAt? (entry :: entries) k = none) ↔ entry.text? = none := by
    simp only [Nat.le_zero, forall_eq]
    rfl
  unfold FlagSkips SectionSkips passedOn
  rw [hnone]
  simp only [nearestComment_zero_iff]
  cases entry.text? with
  | none => simp
  | some text => simp

/-- The flag behind the first entry is handed on to the others. -/
theorem flagSkips_succ_iff {skip : Bool} {i : Nat} :
    FlagSkips target skip (entry :: entries) (i + 1) ↔
      FlagSkips target (passedOn target skip entry) entries i := by
  have hnone : (∀ k ≤ i + 1, commentAt? (entry :: entries) k = none) ↔
      entry.text? = none ∧ ∀ k ≤ i, commentAt? entries k = none := by
    constructor
    · intro h
      exact ⟨h 0 (Nat.zero_le _), fun k hk => h (k + 1) (Nat.succ_le_succ hk)⟩
    · rintro ⟨htext, hnone⟩ k hk
      cases k with
      | zero => exact htext
      | succ k => exact hnone k (Nat.le_of_succ_le_succ hk)
  unfold FlagSkips SectionSkips passedOn
  -- The nearest comment is the first entry or one behind it.
  rw [hnone, ← Nat.or_exists_add_one]
  simp only [nearestComment_first_iff, nearestComment_succ_iff]
  cases entry.text? with
  | none => simp
  | some text => simp [or_comm, and_comm]

/-- An entry is a comment if it is a text. -/
theorem Feature.isComment_of_parse {f : Feature} (h : Feature.parse entry target = .ok f) :
    f.isComment = entry.text?.isSome := by
  rcases Feature.parse_cases h with ⟨text, htext, rfl⟩ | ⟨key, right, rfl⟩
  · rw [htext]
    rfl
  · obtain ⟨text, filter, form, -, -, -, rfl⟩ := Feature.parse_entry_eq_ok_iff.mp h
    cases form with
    | operand assign property => cases right <;> rfl
    | _ => rfl

/-- The flag behind the feature of an entry. -/
theorem passedOn_eq {f : Feature} (h : Feature.parse entry target = .ok f) (skip : Bool) :
    (if f.isComment then f.skip else skip) = passedOn target skip entry := by
  unfold passedOn
  rw [Feature.isComment_of_parse h, Feature.skip_of_parse h]
  cases htext : entry.text? with
  | none => rfl
  | some text =>
      rw [(Literal.tags_of_text? htext).1]
      rfl

/-- **What the flag does to a feature**: it is skipped by its own filter or by the flag. -/
theorem skip_sectioned_iff {fs : List Feature}
    (h : List.Forall₂ (Parses target) entries fs) {skip : Bool} {i : Nat} {f : Feature}
    (hentry : entries[i]? = some entry)
    (hf : (Specification.sectioned skip fs)[i]? = some f) :
    f.skip = true ↔
      Filter.skips? entry.readTags? target = true ∨ FlagSkips target skip entries i := by
  induction h generalizing skip i with
  | nil => cases hentry
  | @cons first own entries fs hparse _ ih =>
      rw [Specification.sectioned, passedOn_eq hparse] at hf
      cases i with
      | zero =>
          cases hentry
          cases hf
          rw [flagSkips_zero_iff]
          dsimp only
          rw [Feature.skip_of_parse hparse, Bool.or_eq_true, or_comm]
      | succ i =>
          rw [flagSkips_succ_iff]
          exact ih hentry hf

end Flag

/-! ## Sections of a specification -/

namespace Specification

variable {ω : Type} {loader : HookLoader ω} {target : String} {source : Option String}
  {documents : Documents} {spec : Specification ω}

/-- What is built without a fault has a feature for every entry. -/
theorem features_of_unfaulted {package : String} {entries : List Literal}
    (h : build loader target source package entries documents = .ok spec)
    (herror : spec.error = none) :
    ∃ fs, List.Forall₂ (Parses target) entries fs ∧ spec.features = sectioned false fs := by
  rcases all_or_first target entries with
    ⟨fs, hfs⟩ | ⟨before, entry, after, fs, fault, rfl, hbefore, hfault⟩
  · refine ⟨fs, hfs, ?_⟩
    rw [features_of_build h, parseEntries_of_all hfs]
  · rw [build_of_first hbefore hfault] at h
    split at h
    · cases h
      cases herror
    · cases h

/-- **When a feature is skipped**, for the entry at a position and the feature that is read from
it: when its own filter or that of the nearest comment excludes the target.  So a comment without
a filter ends a section that is skipped, and in front of the first comment the own filter alone
counts.  The own filter is the one that is written if the entry keeps it. -/
structure SectionRule (target : String) (entries : List Literal) (i : Nat) (entry : Literal)
    (f : Feature) : Prop where
  skip : f.skip = true ↔
    Filter.skips? entry.readTags? target = true ∨ SectionSkips target entries i
  written : entry.TagsKept → (f.skip = true ↔
    Filter.skips? entry.writtenTags? target = true ∨ SectionSkips target entries i)
  nearest : ∀ j text, NearestComment entries i j text → (f.skip = true ↔
    Filter.skips? entry.readTags? target = true ∨ Filter.skips? (tags? text.toList) target = true)
  unfiltered : ∀ j text, NearestComment entries i j text → tags? text.toList = none →
    (f.skip = true ↔ Filter.skips? entry.readTags? target = true)
  opening : (∀ j ≤ i, commentAt? entries j = none) →
    (f.skip = true ↔ Filter.skips? entry.readTags? target = true)

/-- The nearest comment is the only one whose filter counts. -/
theorem sectionSkips_iff {entries : List Literal} {i j : Nat} {text : String}
    (h : NearestComment entries i j text) :
    SectionSkips target entries i ↔ Filter.skips? (tags? text.toList) target = true := by
  constructor
  · rintro ⟨j', text', h', hskips⟩
    obtain ⟨-, rfl⟩ := h.unique h'
    exact hskips
  · exact fun hskips => ⟨j, text, h, hskips⟩

theorem not_sectionSkips {entries : List Literal} {i : Nat}
    (h : ∀ j ≤ i, commentAt? entries j = none) : ¬ SectionSkips target entries i := by
  rintro ⟨j, text, hnearest, -⟩
  cases hnearest.comment.symm.trans (h j hnearest.before)

/-- The rule follows from what it says first. -/
theorem SectionRule.of_skip {entries : List Literal} {i : Nat} {entry : Literal} {f : Feature}
    (h : f.skip = true ↔
      Filter.skips? entry.readTags? target = true ∨ SectionSkips target entries i) :
    SectionRule target entries i entry f where
  skip := h
  written := fun hkept => hkept.readTags?_eq ▸ h
  nearest := fun j text hnearest => by rw [h, sectionSkips_iff hnearest]
  unfiltered := fun j text hnearest hnone => by
    rw [h, sectionSkips_iff hnearest, hnone]
    exact or_iff_left Bool.false_ne_true
  opening := fun hnone => by
    rw [h]
    exact or_iff_left (not_sectionSkips hnone)

/-- **Filters reach exactly their section.**  The first document of a specification that was read
without a fault is a list, there is a feature for every entry of it, and each is skipped by its
own filter or that of the nearest comment, and by no other. -/
theorem sections_skipped (h : parse loader target source documents = .ok (some spec))
    (herror : spec.error = none) :
    ∃ entries rest, documents = .ok (.list entries) :: rest ∧
      spec.features.length = entries.length ∧
      ∀ i entry f, entries[i]? = some entry → spec.features[i]? = some f →
        SectionRule target entries i entry f := by
  obtain ⟨declaration, entries, rest, package, rfl, -, hbuilt⟩ := build_of_parse h
  obtain ⟨fs, hfs, hfeatures⟩ := features_of_unfaulted hbuilt herror
  refine ⟨declaration :: entries, rest, rfl, ?_, fun i entry f hentry hf => ?_⟩
  · rw [hfeatures, ← (sectioned_forall₂ false fs).length_eq, hfs.length_eq]
  · rw [hfeatures] at hf
    have hskip := skip_sectioned_iff hfs hentry hf
    unfold FlagSkips at hskip
    exact .of_skip (by simpa using hskip)

/-! ### A section that is skipped, and one that is not -/

/-- A section for another target and an unfiltered one behind it. -/
def sectionEntries : List Literal :=
  [.map [(.str "PACKAGE", .str "p")], .str "(js)Not here", .map [(.str "foo", .scalar (.int 1))],
    .str "Here", .map [(.str "bar", .scalar (.int 2))]]

/-- The specification of the entries. -/
def sectionSpecification : Specification Sample.Object where
  package := "p"
  features := [.ofAction false (.bind "PACKAGE" (.str "p")), .ofAction true (.comment "Not here"),
    .ofAction true (.read none "foo" (.scalar (.int 1))), .ofAction false (.comment "Here"),
    .ofAction false (.read none "bar" (.scalar (.int 2)))]
  hooks := []
  sources := []
  error := none

theorem sectionEntries_parse :
    parse emptyLoader "py" none [.ok (.list sectionEntries)] = .ok (some sectionSpecification) :=
  rfl

/-- The first section is skipped, and the second is not. -/
theorem unfiltered_comment_ends :
    parse emptyLoader "py" none [.ok (.list sectionEntries)] = .ok (some sectionSpecification) ∧
      sectionSpecification.error = none ∧ SectionSkips "py" sectionEntries 2 ∧
      ¬ SectionSkips "py" sectionEntries 4 := by
  obtain ⟨entries, rest, heq, -, hrule⟩ := sections_skipped sectionEntries_parse rfl
  cases heq
  have hfoo := hrule 2 _ _ rfl rfl
  have hbar := hrule 4 _ _ rfl rfl
  refine ⟨sectionEntries_parse, rfl, ?_, ?_⟩
  · exact (hfoo.skip.mp rfl).resolve_left (by decide)
  · exact fun hskips => absurd (hbar.skip.mpr (.inr hskips)) (by decide)

/-- A feature for `my_target`, which is skipped for this very target. -/
def underscoredEntries : List Literal :=
  [.map [(.str "PACKAGE", .str "p")], .map [(.str "(my_target)foo", .scalar (.int 1))]]

/-- The own filter is not always the one that is written. -/
theorem written_filter_not_always_own :
    ¬ ∀ (loader : HookLoader Sample.Object) (target : String) (source : Option String)
      (entries : List Literal) (rest : Documents) (spec : Specification Sample.Object),
      parse loader target source (.ok (.list entries) :: rest) = .ok (some spec) →
      spec.error = none → ∀ i entry f, entries[i]? = some entry → spec.features[i]? = some f →
        (f.skip = true ↔
          Filter.skips? entry.writtenTags? target = true ∨ SectionSkips target entries i) := by
  intro h
  have hparse : parse emptyLoader "my_target" none [.ok (.list underscoredEntries)] =
      .ok (some ⟨"p", [.ofAction false (.bind "PACKAGE" (.str "p")),
        .ofAction true (.read none "foo" (.scalar (.int 1)))], [], [], none⟩) := rfl
  have hnone : ∀ j ≤ 1, commentAt? underscoredEntries j = none := by decide
  rcases (h _ _ _ _ _ _ hparse rfl 1 _ _ rfl rfl).mp rfl with hown | hsection
  · exact absurd hown (by decide +kernel)
  · exact not_sectionSkips hnone hsection

end Specification

end Conformance
