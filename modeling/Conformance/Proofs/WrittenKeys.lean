import Conformance.Proofs.Filters

/-!
# Written keys are read back

A key that is written from tags, a target and an operand is read as the same tags, target and
operand: the uses of `=` are never taken for one another.  `written_key_read` says so for keys
that folding leaves as they are.  One key stands for something else: the name under which a
package is declared is its own target if it stands alone.

The value on the right decides between a read and a call, and in one more way whether there is a
feature at all.  It is written into the text of the feature, and there is a value that cannot
be: a tuple in which a mapping has a key that JSON does not have.
-/

namespace Conformance

open FeatureKey

namespace FeatureKey.Written

/-- A key as it is written behind its filter, if it has one. -/
def withTags (key : Written) : Option String → String
  | none => key.text
  | some tags => withFilter tags key.text

/-- The target that is written. -/
def assign? : Written → Option String
  | .target assign => some assign
  | .operand assign _ _ => assign

/-- The operand that is written. -/
def path? : Written → Option String
  | .target _ => none
  | .operand _ path _ => some path

/-- The kind of feature that a key and the value on its right make. -/
def kind : Written → Literal → Feature.Kind
  | .target _, _ => .value
  | .operand _ _ false, .list _ => .call
  | .operand _ _ _, _ => .read

/-- The key under which a package is declared. -/
def package : Written := .operand none packageKey false

end FeatureKey.Written

/-! ## Reading what was written -/

namespace FeatureKey.Written

/-- A key without underscores in its parts has none. -/
theorem text_unfolded {key : Written} (h : ∀ part ∈ key.parts, '_' ∉ part.toList) :
    '_' ∉ key.text.toList := by
  have hoperand : ∀ path marked, '_' ∉ path.toList → '_' ∉ (operandText path marked).toList := by
    intro path marked hpath
    cases marked with
    | false => exact hpath
    | true =>
        unfold operandText
        rw [if_pos rfl, String.toList_append, List.mem_append, not_or]
        exact ⟨hpath, by decide⟩
  cases key with
  | target assign =>
      have hassign := h assign List.mem_cons_self
      unfold text
      rw [String.toList_append, List.mem_append, not_or]
      exact ⟨hassign, by decide⟩
  | operand assign path marked =>
      have hpath := hoperand path marked (h path (List.mem_append_right _ List.mem_cons_self))
      cases assign with
      | none => exact hpath
      | some assign =>
          have hassign := h assign List.mem_cons_self
          rw [text_withTarget, String.toList_append, String.toList_append, List.mem_append,
            List.mem_append, not_or, not_or]
          exact ⟨hassign, by decide, hpath⟩

/-- Tags, target and operand of a written key are read back. -/
theorem read?_withTags {tags : Option String} {key : Written}
    (htags : ∀ t ∈ tags, ')' ∉ t.toList ∧ '_' ∉ t.toList)
    (hkey : ∀ part ∈ key.parts, IsPart part ∧ '_' ∉ part.toList) :
    read? (key.withTags tags) = some (tags.map String.toList, key.form) := by
  have hparts : ∀ part ∈ key.parts, IsPart part := fun part hpart => (hkey part hpart).1
  have hcamel : Name.camel key.text.toList = key.text.toList := by
    have hunfolded := text_unfolded fun part hpart => (hkey part hpart).2
    exact Name.camel_of_not_mem_dropLast fun hmem => hunfolded (List.dropLast_subset _ hmem)
  cases tags with
  | none => exact read?_of_camel hcamel hparts
  | some tags =>
      obtain ⟨hclosing, hunderscore⟩ := htags tags rfl
      have hform : unfiltered? (Name.camel key.text.toList) = some key.form := by
        rw [hcamel]
        exact unfiltered?_text hparts
      have hread := read?_withFilter_of_unfiltered hclosing hform
      rw [foldedTags_of_not_mem hunderscore] at hread
      exact hread

/-- The key under which a package is declared asks for its binding. -/
theorem form_package : package.form = .value packageKey := by decide

/-- Another key asks for what is written in it. -/
theorem actionOf_form {key : Written} (hkey : key ≠ package) (right : Literal) (skip : Bool) :
    (Feature.ofAction skip (Feature.actionOf key.form right)).assign? = key.assign? ∧
      (Feature.ofAction skip (Feature.actionOf key.form right)).property? = key.path? ∧
      (Feature.ofAction skip (Feature.actionOf key.form right)).kind = key.kind right := by
  cases key with
  | target assign => exact ⟨rfl, rfl, rfl⟩
  | operand assign path marked =>
      cases marked with
      | true => exact ⟨rfl, rfl, rfl⟩
      | false =>
          have hother : ¬ (path = packageKey ∧ assign = none) := by
            rintro ⟨rfl, rfl⟩
            exact hkey rfl
          have hform : (operand assign path false).form = .operand assign path := if_neg hother
          rw [hform]
          cases right <;> exact ⟨rfl, rfl, rfl⟩

end FeatureKey.Written

namespace Feature

open FeatureKey.Written

/-- What a text key makes with a value, or why it makes nothing. -/
theorem parse_of_read? {key : String} {filter : Option (List Char)} {form : Form}
    (h : read? key = some (filter, form)) (right : Literal) (target : String) :
    parse (.map [(.str key, right)]) target =
      match (actionOf form right).unwritable? with
      | some bad => .error (.jsonKey bad.shortTypeName)
      | none => .ok (.ofAction (Filter.skips? filter target) (actionOf form right)) := by
  have htext : (Key.str key).text? = some key := rfl
  unfold parse ofEntry
  cases hbad : (actionOf form right).unwritable? with
  | some bad => simp only [htext, h, hbad]
  | none => simp only [htext, h, hbad]

/-- **Parsing undoes writing a key.**  Let a key be written from tags without `)`, a target and
an operand, all of them without underscores.  With a value that can be written on its right it
is a feature, and in general it is none only where what it says holds a key that JSON does not
have.  The feature is skipped for the targets that the tags exclude.  It has the target and the
operand that were written, and its kind is told by what was written and by whether the value is
a list.  There is one exception, the key under which a package is declared: it binds the value
to that name. -/
theorem written_key_read {tags : Option String} {key : Written}
    (htags : ∀ t ∈ tags, ')' ∉ t.toList ∧ '_' ∉ t.toList)
    (hkey : ∀ part ∈ key.parts, IsPart part ∧ '_' ∉ part.toList)
    (right : Literal) (target : String) :
    (right.Writable → ∃ f, parse (.map [(.str (key.withTags tags), right)]) target = .ok f) ∧
    (∀ fault, parse (.map [(.str (key.withTags tags), right)]) target = .error fault ↔
      ∃ bad, (actionOf key.form right).unwritable? = some bad ∧
        fault = .jsonKey bad.shortTypeName) ∧
    ∀ f, parse (.map [(.str (key.withTags tags), right)]) target = .ok f →
      f.skip = Filter.skips? (tags.map String.toList) target ∧
      (key = package → f.action = .bind packageKey (tagExpected right)) ∧
      (key ≠ package → f.assign? = key.assign? ∧ f.property? = key.path? ∧
        f.kind = key.kind right) := by
  have hparse := parse_of_read? (read?_withTags htags hkey) right target
  refine ⟨fun hright => ?_, fun fault => ?_, fun f hf => ?_⟩
  · have hwritable := actionOf_writable hright key.form
    rw [hwritable] at hparse
    exact ⟨_, hparse⟩
  · rw [hparse]
    cases (actionOf key.form right).unwritable? with
    | none => simp
    | some bad => simp [eq_comm]
  · cases hwritable : (actionOf key.form right).unwritable? with
    | some bad =>
        rw [hparse, hwritable] at hf
        cases hf
    | none =>
        rw [hparse, hwritable] at hf
        obtain rfl := Except.ok.inj hf
        refine ⟨rfl, ?_, fun hother => actionOf_form hother right _⟩
        rintro rfl
        rw [form_package]
        rfl

/-- The marker is told from the mark of a target, and a list behind it is no call. -/
theorem marked_operand_read :
    (Written.operand (some "x") "foo.bar" true).withTags (some "js|py") = "(js|py)x=foo.bar==" ∧
      ∃ f, parse (.map [(.str "(js|py)x=foo.bar==", .list [.scalar (.int 1)])]) "py" = .ok f ∧
        f.skip = false ∧ f.assign? = some "x" ∧ f.property? = some "foo.bar" ∧
        f.kind = .read := by
  have htext : (Written.operand (some "x") "foo.bar" true).withTags (some "js|py") =
      "(js|py)x=foo.bar==" := by decide +kernel
  have htags : ∀ t ∈ some "js|py", ')' ∉ t.toList ∧ '_' ∉ t.toList := by
    rintro t ⟨⟩
    decide
  have hkey : ∀ part ∈ (Written.operand (some "x") "foo.bar" true).parts,
      IsPart part ∧ '_' ∉ part.toList := by
    intro part hpart
    rcases List.mem_cons.mp hpart with rfl | hpart
    · exact ⟨⟨by decide, by decide +kernel, by decide, by decide, by decide⟩, by decide⟩
    · obtain rfl := List.mem_singleton.mp hpart
      exact ⟨⟨by decide, by decide +kernel, by decide, by decide, by decide⟩, by decide⟩
  obtain ⟨hmade, -, hread⟩ := written_key_read htags hkey (.list [.scalar (.int 1)]) "py"
  rw [htext] at hmade hread
  obtain ⟨f, hf⟩ := hmade rfl
  obtain ⟨hskip, -, hother⟩ := hread f hf
  obtain ⟨hassign, hproperty, hkind⟩ := hother (by decide)
  exact ⟨htext, f, hf, hskip.trans (by decide +kernel), hassign, hproperty, hkind⟩

/-- A tuple in a list, with a mapping from a date, which is no key of JSON. -/
def dateKeyed : Literal :=
  .list [.tuple [.scalar (.str "a"), .map [(.scalar (.date ⟨2020, 1, 2⟩), .scalar (.int 1))]]]

/-- A written key is not read with every value. -/
theorem written_key_not_always_read :
    ¬ ∀ (tags : Option String) (key : Written) (right : Literal) (target : String),
      (∀ t ∈ tags, ')' ∉ t.toList ∧ '_' ∉ t.toList) →
      (∀ part ∈ key.parts, IsPart part ∧ '_' ∉ part.toList) →
      ∃ f, parse (.map [(.str (key.withTags tags), right)]) target = .ok f := by
  intro h
  have hkey : ∀ part ∈ (Written.operand none "x" true).parts, IsPart part ∧ '_' ∉ part.toList := by
    intro part hpart
    obtain rfl := List.mem_singleton.mp hpart
    exact ⟨⟨by decide, by decide +kernel, by decide, by decide, by decide⟩, by decide⟩
  have htags : ∀ t ∈ (none : Option String), ')' ∉ t.toList ∧ '_' ∉ t.toList := by
    rintro t ⟨⟩
  obtain ⟨f, hf⟩ := h none (.operand none "x" true) dateKeyed "py" htags hkey
  have hparse := parse_of_read? (read?_withTags htags hkey) dateKeyed "py"
  have hbad : (actionOf (Written.operand none "x" true).form dateKeyed).unwritable? =
      some (.scalar (.date ⟨2020, 1, 2⟩)) := rfl
  rw [hbad] at hparse
  cases hparse.symm.trans hf

end Feature

end Conformance
