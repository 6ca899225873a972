import Conformance.Proofs.Binding
import Conformance.Proofs.KeyGrammar
import Conformance.Proofs.Preservation
import Conformance.Proofs.Spelling
import Conformance.Proofs.Stages
import Conformance.Sample.Implementation

/-!
# Members are read under their own spelling

A feature whose key is the name of a member and the read marker looks the name
up camel-style.  `execute_own_spelling` follows it through the grammar of keys
and the lookup: the member is what the feature gives if its name spells back,
and if it does not, the feature looks for other names only.
-/

namespace Conformance

open Name

/-! ## The key -/

namespace FeatureKey

/-- A plain character is no mark of the grammar and no white space. -/
theorem plain_facts {c : Char} (h : isPlainChar c = true) :
    c ≠ '.' ∧ c ≠ '=' ∧ c ≠ '(' ∧ Text.isBlank c = false := by
  simp only [isPlainChar, Bool.and_eq_true, bne_iff_ne, Bool.not_eq_true'] at h
  exact ⟨h.1.1.1.1, h.1.1.1.2, h.1.1.2, h.2⟩

/-- **The key of a name.**  A plain name with the read marker behind it reads
what it spells. -/
theorem read?_of_plain {name : String} (h : IsPlain name) :
    read? (name ++ "==") = some (none, .read none (spelled name)) := by
  obtain ⟨c, rest, -, hspelled, -⟩ := h.spelled_toList
  have hplain : ∀ d ∈ (spelled name).toList, isPlainChar d = true := by
    rw [spelled, String.toList_ofList]
    exact spelledChars_plain h.plain
  have hfacts := fun d hd => plain_facts (hplain d hd)
  have hpart : IsPart (spelled name) := by
    refine isPart_of_not_blank ?_ (fun d hd => (hfacts d hd).2.2.2) ?_ ?_
    · rw [Ne, ← String.toList_eq_nil_iff, hspelled]
      exact List.cons_ne_nil c rest
    · rw [hspelled, List.head?_cons]
      exact fun heq => (hfacts c (hspelled ▸ List.mem_cons_self)).2.2.1 (Option.some.inj heq)
    · exact fun hmem => (hfacts '=' hmem).2.1 rfl
  have hcamel : camel (name ++ "==").toList =
      (Written.operand none (spelled name) true).text.toList := by
    have hchars : (spelled name).toList = spelledChars name.toList := String.toList_ofList
    rw [Written.text, Written.operandText, if_pos rfl, String.toList_append, String.toList_append,
      hchars]
    exact camel_append_mark h.plain
  exact read?_of_camel hcamel (List.forall_mem_singleton.mpr hpart)

end FeatureKey

/-! ## The feature -/

/-- What is parsed is the comment of a text or the feature of a key and a value. -/
theorem Feature.parse_cases {entry : Literal} {target : String} {f : Feature}
    (h : Feature.parse entry target = .ok f) :
    (∃ text, entry.text? = some text ∧ f = .ofComment text target) ∨
      ∃ key right, entry = .map [(key, right)] := by
  unfold Feature.parse at h
  split at h
  · next key right => exact .inr ⟨key, right, rfl⟩
  · split at h
    · next text htext =>
        cases h
        exact .inl ⟨text, htext, rfl⟩
    · cases h

/-- A key and a value make a feature exactly if the key is a text that follows the grammar
and what it does with the value can be written. -/
theorem Feature.parse_entry_eq_ok_iff {key : Key} {target : String} {right : Literal}
    {f : Feature} :
    Feature.parse (.map [(key, right)]) target = .ok f ↔
      ∃ text filter form, key.text? = some text ∧
        FeatureKey.read? text = some (filter, form) ∧
        (Feature.actionOf form right).unwritable? = none ∧
        f = .ofAction (Filter.skips? filter target) (Feature.actionOf form right) := by
  unfold Feature.parse Feature.ofEntry
  dsimp only
  cases htext : key.text? with
  | none => simp
  | some text =>
      dsimp only
      cases hread : FeatureKey.read? text with
      | none => simp [hread]
      | some parts =>
          obtain ⟨filter, form⟩ := parts
          dsimp only
          cases hwritable : (Feature.actionOf form right).unwritable? with
          | none =>
              constructor
              · rintro ⟨⟩
                exact ⟨text, filter, form, rfl, hread, hwritable, rfl⟩
              · rintro ⟨text', filter', form', heq, hread', -, rfl⟩
                cases heq
                cases hread.symm.trans hread'
                rfl
          | some bad =>
              constructor
              · rintro ⟨⟩
              · rintro ⟨text', filter', form', heq, hread', hnone, -⟩
                cases heq
                cases hread.symm.trans hread'
                rw [hwritable] at hnone
                cases hnone

/-- The same for a key that is written as a text. -/
theorem Feature.parse_key_eq_ok_iff {key target : String} {right : Literal} {f : Feature} :
    Feature.parse (.map [(.str key, right)]) target = .ok f ↔
      ∃ filter form, FeatureKey.read? key = some (filter, form) ∧
        (Feature.actionOf form right).unwritable? = none ∧
        f = .ofAction (Filter.skips? filter target) (Feature.actionOf form right) := by
  have htext : (Key.str key).text? = some key := rfl
  simp [Feature.parse_entry_eq_ok_iff, htext]

/-- The feature of a plain name and the read marker reads the spelling of the
name, for every target. -/
theorem Feature.parse_of_plain {name : String} (h : IsPlain name) {v : Literal}
    (hwritable : (Feature.tagExpected v).unwritable? = none) (target : String) :
    ∃ text, Feature.parse (.map [(.str (name ++ "=="), v)]) target =
      .ok ⟨text, false, .read none (spelled name) (Feature.tagExpected v)⟩ := by
  have hread : (Action.read none (spelled name) (Feature.tagExpected v)).unwritable? = none :=
    hwritable
  exact ⟨_, Feature.parse_key_eq_ok_iff.mpr
    ⟨none, .read none (spelled name), FeatureKey.read?_of_plain h, hread, rfl⟩⟩

/-! ## The member -/

section Member

variable {ω : Type} (impl : Implementation ω)

/-- The spelling of a plain name is a name without dots. -/
theorem Name.IsPlain.spelled_plain {name : String} (h : IsPlain name) :
    '.' ∉ (spelled name).toList ∧ spelled name ≠ "" := by
  obtain ⟨c, rest, -, hspelled, -⟩ := h.spelled_toList
  constructor
  · intro hmem
    rw [spelled, String.toList_ofList] at hmem
    exact absurd (spelledChars_plain h.plain '.' hmem) (by decide)
  · intro heq
    rw [heq] at hspelled
    cases hspelled

/-- A name that spells back is the first of its spellings that is bound, if its
camel-style spelling is free. -/
theorem findSome?_of_spellsBack {name : String} {bindings : Bindings} {u : Value}
    (h : IsPlain name) (hbound : named? bindings name = some u)
    (hfree : camelize name = name ∨ named? bindings (camelize name) = none)
    (hback : SpellsBack name) :
    (spellings (spelled name)).findSome? (named? bindings) = some u := by
  have hmem := (mem_spellings_iff h).mpr hback
  rcases hback with hnone | ⟨-, -, hseparated⟩
  · have hself : spelled name = name := by
      unfold spelled
      rw [spelledChars_of_not_mem hnone, String.ofList_toList]
    rw [hself, Scope.findSome?_spellings_of_bound hbound]
  · have hcamel : camelize name = spelled name := by
      unfold camelize spelled
      rw [camel_of_separated h.plain hseparated]
    rw [hcamel] at hfree
    unfold spellings at hmem ⊢
    split at hmem
    · rcases List.mem_cons.mp hmem with heq | hrest
      · rw [if_pos ‹_›, List.findSome?_cons, ← heq, hbound]
      · rcases hfree with heq | hfree
        · rw [if_pos ‹_›, List.findSome?_cons, heq, hbound]
        · rw [if_pos ‹_›, List.findSome?_cons, hfree, ← List.mem_singleton.mp hrest]
          simp [hbound]
    · rw [if_neg ‹_›, ← List.mem_singleton.mp hmem]
      simp [hbound]

end Member

/-! ## Executing the feature -/

namespace Run

variable {ω : Type} (impl : Implementation ω)

/-- The entry of a plain name gives the first spelling of what the name spells
that is bound. -/
theorem execute_of_plain (target : String) {name : String} (h : IsPlain name) {v : Literal}
    (hwritable : (Feature.tagExpected v).unwritable? = none) {scope : ScopeId} {w w₁ : World ω}
    {e : Value}
    (hresolve : runFrom (Scope.resolve impl scope (Feature.tagExpected v)) w = (.ok e, w₁)) :
    ∃ f, Feature.parse (.map [(.str (name ++ "=="), v)]) target = .ok f ∧ f.skip = false ∧
      f.property? = some (spelled name) ∧
      runFrom (execute impl scope f) w =
        match (spellings (spelled name)).findSome? (named? (w.bindings scope)) with
        | some u => (.ok (.done u e), w₁)
        | none => (.ok (.failed (.resolved e) (.unbound (spelled name))), w₁) := by
  obtain ⟨text, hparse⟩ := Feature.parse_of_plain h hwritable target
  obtain ⟨hdots, hname⟩ := h.spelled_plain
  have hsame := Scope.bindings_of_resolve hresolve scope
  refine ⟨_, hparse, rfl, rfl, ?_⟩
  rw [execute_read rfl hresolve, runFrom_readOperand_plain impl hdots hname, hsame]
  cases (spellings (spelled name)).findSome? (named? (w.bindings scope)) with
  | none => rfl
  | some u => rfl

/-- **A member is read under its own spelling exactly if it spells back.**  The
entry of a plain name and the read marker is a feature that is not skipped.
Where no other member takes its camel-style spelling and the expected value
resolves, it gives the member itself if the name spells back.  If it does not,
the feature looks for other names alone, and with none of them bound it fails
because the spelling is not bound. -/
theorem execute_own_spelling (target : String) {name : String} (h : IsPlain name) {v : Literal}
    (hwritable : (Feature.tagExpected v).unwritable? = none) (scope : ScopeId) (w : World ω)
    {u : Value} (hbound : named? (w.bindings scope) name = some u)
    (hfree : camelize name = name ∨ named? (w.bindings scope) (camelize name) = none)
    {e : Value} {w₁ : World ω}
    (hresolve : runFrom (Scope.resolve impl scope (Feature.tagExpected v)) w = (.ok e, w₁)) :
    ∃ f, Feature.parse (.map [(.str (name ++ "=="), v)]) target = .ok f ∧ f.skip = false ∧
      f.property? = some (spelled name) ∧
      (SpellsBack name → runFrom (execute impl scope f) w = (.ok (.done u e), w₁)) ∧
      (¬ SpellsBack name → name ∉ spellings (spelled name) ∧
        ((∀ other ∈ spellings (spelled name), named? (w.bindings scope) other = none) →
          runFrom (execute impl scope f) w =
            (.ok (.failed (.resolved e) (.unbound (spelled name))), w₁))) := by
  obtain ⟨f, hparse, hskip, hproperty, hexecute⟩ :=
    execute_of_plain impl target h hwritable hresolve
  refine ⟨f, hparse, hskip, hproperty, fun hback => ?_, fun hback => ⟨?_, fun hnone => ?_⟩⟩
  · rw [hexecute, findSome?_of_spellsBack h hbound hfree hback]
  · exact fun hmem => hback ((mem_spellings_iff h).mp hmem)
  · rw [hexecute, List.findSome?_eq_none_iff.mpr hnone]

/-- The world of a scope with the one member `name`, which is 5. -/
def memberWorld (name : String) : World Sample.Object :=
  ⟨Sample.initialStore, #[[(name, .int 5)]], #[], #[]⟩

/-- The member `to_upper` is what the entry `to_upper==` gives. -/
theorem to_upper_read :
    IsPlain "to_upper" ∧ SpellsBack "to_upper" ∧ ∃ f,
      Feature.parse (.map [(.str ("to_upper" ++ "=="), .scalar (.int 5))]) "py" = .ok f ∧
      runFrom (execute (Sample.implementation []) 0 f) (memberWorld "to_upper") =
        (.ok (.done (.int 5) (.int 5)), memberWorld "to_upper") := by
  have hplain : IsPlain "to_upper" :=
    ⟨⟨'t', _, rfl, by decide⟩, List.all_eq_true.mp (by decide +kernel)⟩
  have hback : SpellsBack "to_upper" := by decide +kernel
  have hresolve : runFrom (Scope.resolve (Sample.implementation []) 0
      (Feature.tagExpected (.scalar (.int 5)))) (memberWorld "to_upper") =
        (.ok (.int 5), memberWorld "to_upper") := rfl
  obtain ⟨f, hparse, -, -, hread, -⟩ := execute_own_spelling (Sample.implementation []) "py" hplain
    rfl 0 (memberWorld "to_upper") rfl (Or.inr (by decide +kernel)) hresolve
  exact ⟨hplain, hback, f, hparse, hread hback⟩

/-- The member `get_x_y` is bound and the entry `get_x_y==` does not find it: the
entry spells `getXY`, whose borders are marked as in `get_xy`. -/
theorem get_x_y_not_read :
    IsPlain "get_x_y" ∧ named? ((memberWorld "get_x_y").bindings 0) "get_x_y" = some (.int 5) ∧
      named? ((memberWorld "get_x_y").bindings 0) (camelize "get_x_y") = none ∧ ∃ f,
      Feature.parse (.map [(.str ("get_x_y" ++ "=="), .scalar (.int 5))]) "py" = .ok f ∧
      runFrom (execute (Sample.implementation []) 0 f) (memberWorld "get_x_y") =
        (.ok (.failed (.resolved (.int 5)) (.unbound "getXY")), memberWorld "get_x_y") := by
  have hplain : IsPlain "get_x_y" :=
    ⟨⟨'g', _, rfl, by decide⟩, List.all_eq_true.mp (by decide +kernel)⟩
  have hspelled : spelled "get_x_y" = "getXY" := by decide +kernel
  have hspellings : spellings "getXY" = ["getXY", "get_xy"] := by decide +kernel
  have hresolve : runFrom (Scope.resolve (Sample.implementation []) 0
      (Feature.tagExpected (.scalar (.int 5)))) (memberWorld "get_x_y") =
        (.ok (.int 5), memberWorld "get_x_y") := rfl
  obtain ⟨f, hparse, -, -, hread⟩ :=
    execute_of_plain (Sample.implementation []) "py" hplain rfl hresolve
  refine ⟨hplain, rfl, by decide +kernel, f, hparse, ?_⟩
  rw [hread, hspelled, hspellings]
  rfl

end Run

end Conformance
