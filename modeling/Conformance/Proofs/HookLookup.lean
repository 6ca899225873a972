import Conformance.Proofs.Constants
import Conformance.Proofs.OwnSpelling
import Conformance.Sample.HookSource
import Mathlib.Data.List.Nodup

/-!
# Calling hooks

A hook is bound under its name with a `$` in front.  A key that calls it is
folded camel-style like any other key, and a name with a `$` in front is looked
up as it is written: no underscore is put back.  So `hook_lookup` finds two
cases.  A hook whose only underscore, if any, is its last character is what the
call finds; a hook with an underscore before that is not, and unless something
else is bound under the folded name, the call fails because that name is not
bound.

The hooks of a specification have different names with the characters of an
identifier.  `parse_hookNames` and `merge_hookNames` state this of every
specification that was read and merged.
-/

namespace Conformance

/-! ## Folding a name -/

namespace Name

open Text

/-- Folding plain characters gives plain characters. -/
theorem camel_plain {cs : List Char} (hplain : ∀ c ∈ cs, isPlainChar c = true) :
    ∀ c ∈ camel cs, isPlainChar c = true := by
  induction cs using camel.induct with
  | case1 => exact hplain
  | case2 c => exact hplain
  | case3 c d rest hc hd ih =>
      rw [ne_newline (hplain d (by simp))] at hd
      cases hd
  | case4 c d rest hc hd ih =>
      intro e hmem
      have hd := ne_newline (hplain d (by simp))
      simp only [camel, hc, hd, if_true, Bool.false_eq_true, if_false, List.mem_append] at hmem
      rcases hmem with hleft | hright
      · exact upperChar_plain (hplain d (by simp)) e hleft
      · exact ih (fun c hmem => hplain c (by simp [hmem])) e hright
  | case5 c d rest hc ih =>
      intro e hmem
      simp only [camel, hc, Bool.false_eq_true, if_false, List.mem_cons] at hmem
      rcases hmem with rfl | hright
      · exact hplain _ (by simp)
      · exact ih (fun c hmem => hplain c (by simp [hmem])) e hright

/-- Folding adds no underscore, and drops one if there is one before the last
character. -/
theorem count_camel {cs : List Char} (hplain : ∀ c ∈ cs, isPlainChar c = true) :
    (camel cs).count '_' ≤ cs.count '_' ∧
      ('_' ∈ cs.dropLast → (camel cs).count '_' < cs.count '_') := by
  induction cs using camel.induct with
  | case1 => simp [camel]
  | case2 c => simp [camel]
  | case3 c d rest hc hd ih =>
      rw [ne_newline (hplain d (by simp))] at hd
      cases hd
  | case4 c d rest hc hd ih =>
      obtain rfl := eq_of_beq hc
      have himage := count_upperChar (hplain d (by simp))
      have hrest := (ih fun c hmem => hplain c (by simp [hmem])).1
      have hlt : (camel ('_' :: d :: rest)).count '_' < ('_' :: d :: rest).count '_' := by
        have hd := ne_newline (hplain d (by simp))
        simp only [camel, hc, hd, if_true, Bool.false_eq_true, if_false, List.count_append, himage,
          List.count_cons, beq_iff_eq]
        split <;> omega
      exact ⟨Nat.le_of_lt hlt, fun _ => hlt⟩
  | case5 c d rest hc ih =>
      have hne : c ≠ '_' := by simpa using hc
      have hrest := ih fun c hmem => hplain c (by simp [hmem])
      have hcount : (camel (c :: d :: rest)).count '_' = (camel (d :: rest)).count '_' := by
        simp [camel, hne, List.count_cons_of_ne]
      rw [hcount, List.count_cons_of_ne hne]
      refine ⟨hrest.1, fun hmem => hrest.2 ?_⟩
      rw [List.dropLast_cons_cons] at hmem
      rcases List.mem_cons.mp hmem with heq | hmem
      · exact absurd heq.symm hne
      · exact hmem

/-- Without an underscore before the last character nothing is folded. -/
theorem camel_of_not_mem_dropLast {cs : List Char} (h : '_' ∉ cs.dropLast) : camel cs = cs := by
  induction cs using camel.induct with
  | case1 => rfl
  | case2 c => rfl
  | case3 c d rest hc hd ih =>
      obtain rfl := eq_of_beq hc
      simp at h
  | case4 c d rest hc hd ih =>
      obtain rfl := eq_of_beq hc
      simp at h
  | case5 c d rest hc ih =>
      rw [List.dropLast_cons_cons] at h
      simp [camel, hc, ih fun hmem => h (List.mem_cons_of_mem _ hmem)]

/-- **A name of plain characters is folded to itself** exactly if it has no underscore
before its last character. -/
theorem camelize_eq_self_iff {name : String} (hplain : ∀ c ∈ name.toList, isPlainChar c = true) :
    camelize name = name ↔ '_' ∉ name.toList.dropLast := by
  unfold camelize
  constructor
  · intro heq hmem
    have hlt := (count_camel hplain).2 hmem
    have hchars := congrArg String.toList heq
    rw [String.toList_ofList] at hchars
    rw [hchars] at hlt
    exact Nat.lt_irrefl _ hlt
  · intro h
    rw [camel_of_not_mem_dropLast h, String.ofList_toList]

end Name

/-! ## The key of a call -/

open Name

theorem Scope.toList_hookName (name : String) :
    (Scope.hookName name).toList = '$' :: name.toList := by
  unfold Scope.hookName
  rw [String.toList_append]
  rfl

namespace FeatureKey

/-- **The key of a hook** is an operand, with the name behind the `$` folded. -/
theorem read?_hookName {name : String} (hplain : ∀ c ∈ name.toList, isPlainChar c = true) :
    read? (Scope.hookName name) = some (none, .operand none (Scope.hookName (camelize name))) := by
  have hchars : (Scope.hookName (camelize name)).toList = '$' :: camel name.toList := by
    rw [Scope.toList_hookName, camelize, String.toList_ofList]
  have hcamel : camel (Scope.hookName name).toList =
      (Written.operand none (Scope.hookName (camelize name)) false).text.toList := by
    rw [Written.text, Written.operandText, if_neg Bool.false_ne_true, hchars,
      Scope.toList_hookName]
    cases name.toList with
    | nil => rfl
    | cons c rest => simp [camel]
  have hfacts : ∀ c ∈ '$' :: camel name.toList, c ≠ '=' ∧ Text.isBlank c = false := by
    rw [List.forall_mem_cons]
    refine ⟨by decide, fun c hc => ?_⟩
    have hc := plain_facts (camel_plain hplain c hc)
    exact ⟨hc.2.1, hc.2.2.2⟩
  have hpart : IsPart (Scope.hookName (camelize name)) := by
    refine isPart_of_not_blank ?_ ?_ ?_ ?_
    · rw [Ne, ← String.toList_eq_nil_iff, hchars]
      exact List.cons_ne_nil _ _
    · rw [hchars]
      exact fun c hc => (hfacts c hc).2
    · rw [hchars]
      exact fun hopening => absurd (Option.some.inj hopening) (by decide)
    · rw [hchars]
      exact fun hmem => (hfacts '=' hmem).1 rfl
  have hother : ¬ (Scope.hookName (camelize name) = packageKey ∧
      (none : Option String) = none) := by
    rintro ⟨heq, -⟩
    have hstart := congrArg String.toList heq
    rw [hchars] at hstart
    exact absurd (List.cons.inj hstart).1 (by decide)
  rw [read?_of_camel hcamel (List.forall_mem_singleton.mpr hpart), Written.form, if_neg hother]

end FeatureKey

/-- The entry of a hook and a list is a call that is not skipped, for every target. -/
theorem Feature.parse_hookName {name : String} (hplain : ∀ c ∈ name.toList, isPlainChar c = true)
    {items : List Literal}
    (hwritable : (callAction none (Scope.hookName (camelize name)) items).unwritable? = none)
    (target : String) :
    Feature.parse (.map [(.str (Scope.hookName name), .list items)]) target =
      .ok (.ofAction false (callAction none (Scope.hookName (camelize name)) items)) :=
  Feature.parse_key_eq_ok_iff.mpr
    ⟨none, .operand none (Scope.hookName (camelize name)), FeatureKey.read?_hookName hplain,
      hwritable, rfl⟩

/-! ## Bound hooks -/

variable {ω : Type}

/-- The scope has the function as the hook of the name, with the scope as the
function's first argument. -/
def World.HasHook (w : World ω) (scope : ScopeId) (name : String) (function : ω)
    (location : Loc) : Prop :=
  named? (w.bindings scope) (Scope.hookName name) = some (.object location) ∧
    w.store.get? location = some (.hook scope function [])

namespace Scope

/-- What installing a hook leaves. -/
theorem runFrom_installHook (scope : ScopeId) (name : String) (function : ω) (w : World ω) :
    runFrom (installHook scope name function) w =
      (.ok (), { w with
        store := (w.store.alloc (.hook scope function [])).2
        scopes := w.scopes.setIfInBounds scope
          (setNamed (w.bindings scope) (hookName name) (.object w.store.cells.size)) }) := rfl

theorem hookName_inj {name other : String} (h : hookName name = hookName other) : name = other := by
  have hchars := congrArg String.toList h
  rw [toList_hookName, toList_hookName] at hchars
  exact String.toList_inj.mp (List.cons.inj hchars).2

/-- A hook that is installed is there. -/
theorem installHook_self {scope : ScopeId} (name : String) (function : ω) {w : World ω}
    (hscope : scope < w.scopes.size) :
    ∃ location, (runFrom (installHook scope name function) w).2.HasHook scope name function
      location := by
  refine ⟨w.store.cells.size, ?_, ?_⟩
  · rw [runFrom_installHook]
    have hset := World.bindings_set { w with store := (w.store.alloc (.hook scope function [])).2 }
      scope scope (setNamed (w.bindings scope) (hookName name) (.object w.store.cells.size))
    rw [hset, if_pos ⟨rfl, hscope⟩, named?_setNamed_self]
  · rw [runFrom_installHook]
    simp [Store.get?, Store.alloc]

/-- A hook stays as others are installed. -/
theorem installHook_other {scope : ScopeId} {name other : String} {function g : ω} {w : World ω}
    {location : Loc} (hne : other ≠ name) (h : w.HasHook scope name function location) :
    (runFrom (installHook scope other g) w).2.HasHook scope name function location := by
  obtain ⟨hbound, hcell⟩ := h
  constructor
  · rw [runFrom_installHook]
    have hset := World.bindings_set { w with store := (w.store.alloc (.hook scope g [])).2 }
      scope scope (setNamed (w.bindings scope) (hookName other) (.object w.store.cells.size))
    rw [hset]
    split
    · rw [named?_setNamed_of_ne _ _ fun heq => hne (hookName_inj heq)]
      exact hbound
    · exact hbound
  · rw [runFrom_installHook]
    have hlt : location < w.store.cells.size := (Array.getElem?_eq_some_iff.mp hcell).1
    change (w.store.cells.push (.hook scope g []))[location]? = _
    rw [Array.getElem?_push, if_neg (Nat.ne_of_lt hlt)]
    exact hcell

/-- A hook stays as hooks of other names are installed. -/
theorem installHooks_others {scope : ScopeId} {name : String} {function : ω} {location : Loc}
    {hooks : List (String × ω)} (hothers : name ∉ hooks.map (·.1)) :
    ∀ {w : World ω}, w.HasHook scope name function location →
      (runFrom (installHooks scope hooks) w).2.HasHook scope name function location := by
  induction hooks with
  | nil => exact fun h => h
  | cons hook hooks ih =>
      intro w h
      obtain ⟨other, g⟩ := hook
      rw [List.map_cons, List.mem_cons, not_or] at hothers
      exact ih hothers.2 (installHook_other (Ne.symm hothers.1) h)

/-- **Every installed hook is there**, if no two have one name. -/
theorem installHooks_hasHook {scope : ScopeId} {name : String} {function : ω}
    {hooks : List (String × ω)} (hdistinct : (hooks.map (·.1)).Nodup)
    (hmem : (name, function) ∈ hooks) :
    ∀ {w : World ω}, scope < w.scopes.size →
      ∃ location, (runFrom (installHooks scope hooks) w).2.HasHook scope name function location := by
  induction hooks with
  | nil => cases hmem
  | cons hook hooks ih =>
      intro w hscope
      obtain ⟨other, g⟩ := hook
      obtain ⟨hnew, hrest⟩ := List.nodup_cons.mp hdistinct
      rcases List.mem_cons.mp hmem with heq | hlater
      · cases heq
        obtain ⟨location, h⟩ := installHook_self name function hscope
        exact ⟨location, installHooks_others hnew h⟩
      · have hkept : scope < (runFrom (installHook scope other g) w).2.scopes.size := by
          rw [runFrom_installHook]
          simpa using hscope
        exact ih hrest hlater hkept

/-- A name with a `$` in front has one spelling. -/
theorem spellings_hookName (name : String) : spellings (hookName name) = [hookName name] := by
  unfold spellings hasSnakeSpelling
  rw [toList_hookName]
  simp

/-- A folded name with a `$` in front leads to what is bound under it. -/
theorem runFrom_lookup_hookName (impl : Implementation ω) {name : String}
    (hplain : ∀ c ∈ name.toList, isPlainChar c = true) (scope : ScopeId) (w : World ω) :
    runFrom (lookup impl scope (hookName (camelize name))) w =
      (.ok (match named? (w.bindings scope) (hookName (camelize name)) with
        | some v => ⟨classify impl w.store (hookName (camelize name)) v, .scope scope,
            hookName (camelize name), v⟩
        | none => ⟨.missing, .scope scope, hookName (camelize name), .null⟩), w) := by
  have hdots : '.' ∉ (hookName (camelize name)).toList := by
    rw [toList_hookName, camelize, String.toList_ofList]
    intro hmem
    rcases List.mem_cons.mp hmem with heq | hrest
    · cases heq
    · exact absurd (camel_plain hplain '.' hrest) (by decide)
  have hname : hookName (camelize name) ≠ "" := by
    intro heq
    have hchars := congrArg String.toList heq
    rw [toList_hookName] at hchars
    cases hchars
  rw [runFrom_lookup_plain impl hdots hname, spellings_hookName, List.findSome?_cons]
  cases named? (w.bindings scope) (hookName (camelize name)) with
  | none => rfl
  | some v => rfl

/-- A hook can be called. -/
theorem classify_hook (impl : Implementation ω) {store : Store ω} {scope : ScopeId} {function : ω}
    {attributes : List (String × Value)} {location : Loc} (name : String)
    (hcell : store.get? location = some (.hook scope function attributes)) :
    classify impl store name (.object location) ≠ .value := by
  have hcallable : isCallable impl store (.object location) = true := by
    unfold isCallable
    dsimp only
    rw [hcell]
  unfold classify
  rw [hcallable, Bool.not_true, if_neg Bool.false_ne_true]
  split <;> exact nofun

end Scope

/-- The names of hooks: no two are the same, and each has the characters of an
identifier. -/
structure HookNames (hooks : List (String × ω)) : Prop where
  distinct : (hooks.map (·.1)).Nodup
  plain : ∀ name ∈ hooks.map (·.1), IsPlain name

/-! ### Hooks of specifications that were read -/

/-- What a loader gives are functions under different names. -/
def HookLoader.NamesApart (loader : HookLoader ω) : Prop :=
  ∀ source file defined, loader source file = .ok defined → (defined.map (·.1)).Nodup

/-- What a loader gives are functions under different names, each with the characters
of an identifier. -/
def HookLoader.NamesFunctions (loader : HookLoader ω) : Prop :=
  ∀ source file defined, loader source file = .ok defined →
    (defined.map (·.1)).Nodup ∧
      ∀ e ∈ defined, e.1 ≠ "" ∧ ∀ c ∈ e.1.toList, isPlainChar c = true

theorem HookLoader.NamesFunctions.apart {loader : HookLoader ω} (h : loader.NamesFunctions) :
    loader.NamesApart :=
  fun source file defined hdefined => (h source file defined hdefined).1

/-- Hooks are what the loader gives, without the private names. -/
theorem loadHooks_eq_ok_iff {loader : HookLoader ω} {source file : String}
    {hooks : List (String × ω)} :
    loadHooks loader source file = .ok hooks ↔
      ∃ defined, loader source file = .ok defined ∧
        hooks = defined.filter fun e => !isPrivate e.1 := by
  unfold loadHooks
  cases loader source file with
  | error reason => simp
  | ok defined => simp [eq_comm]

theorem HookLoader.NamesApart.nodup_hooks {loader : HookLoader ω} (hloader : loader.NamesApart)
    {source file : String} {hooks : List (String × ω)}
    (h : loadHooks loader source file = .ok hooks) : (hooks.map (·.1)).Nodup := by
  obtain ⟨defined, hdefined, rfl⟩ := loadHooks_eq_ok_iff.mp h
  exact (hloader source file defined hdefined).sublist (List.filter_sublist.map _)

namespace HookNames

theorem nil : HookNames ([] : List (String × ω)) := ⟨List.nodup_nil, fun _ h => nomatch h⟩

/-- A name that is not private does not start with an underscore. -/
theorem plain_of_public {name : String} (hname : name ≠ "")
    (hplain : ∀ c ∈ name.toList, isPlainChar c = true) (hpublic : isPrivate name = false) :
    IsPlain name := by
  refine ⟨?_, hplain⟩
  unfold isPrivate at hpublic
  cases hchars : name.toList with
  | nil => exact absurd (String.toList_eq_nil_iff.mp hchars) hname
  | cons c rest =>
      rw [hchars] at hpublic
      exact ⟨c, rest, rfl, by simpa using hpublic⟩

theorem of_loadHooks {loader : HookLoader ω} (hloader : loader.NamesFunctions)
    {source file : String} {hooks : List (String × ω)}
    (h : loadHooks loader source file = .ok hooks) : HookNames hooks := by
  refine ⟨hloader.apart.nodup_hooks h, ?_⟩
  obtain ⟨defined, hdefined, rfl⟩ := loadHooks_eq_ok_iff.mp h
  refine List.forall_mem_map.mpr fun e he => ?_
  obtain ⟨hmem, hpublic⟩ := List.mem_filter.mp he
  obtain ⟨hname, hchars⟩ := (hloader source file defined hdefined).2 e hmem
  exact plain_of_public hname hchars (by simpa using hpublic)

/-- Setting a plain name keeps names plain and different. -/
theorem setNamed {hooks : List (String × ω)} (h : HookNames hooks) {name : String}
    (hname : IsPlain name) (function : ω) : HookNames (Conformance.setNamed hooks name function) := by
  have hnames := names_setNamed hooks name function
  by_cases hmem : name ∈ hooks.map (·.1)
  · rw [if_pos hmem] at hnames
    exact ⟨hnames ▸ h.distinct, hnames ▸ h.plain⟩
  · rw [if_neg hmem] at hnames
    have hdistinct := List.Nodup.concat hmem h.distinct
    rw [List.concat_eq_append] at hdistinct
    refine ⟨hnames ▸ hdistinct, ?_⟩
    rw [hnames]
    intro other hother
    rcases List.mem_append.mp hother with hold | hnew
    · exact h.plain other hold
    · exact List.mem_singleton.mp hnew ▸ hname

/-- The hooks of two parts together. -/
theorem foldl_setNamed {more : List (String × ω)} (hmore : ∀ name ∈ more.map (·.1), IsPlain name) :
    ∀ {hooks : List (String × ω)}, HookNames hooks →
      HookNames (more.foldl (fun acc h => Conformance.setNamed acc h.1 h.2) hooks) := by
  induction more with
  | nil => exact fun h => h
  | cons hook more ih =>
      intro hooks h
      rw [List.map_cons, List.forall_mem_cons] at hmore
      exact ih hmore.2 (h.setNamed hmore.1 hook.2)

end HookNames

namespace Specification

/-- The hooks of further documents are those of one source, or there are none. -/
theorem hooks_of_parseHooks {loader : HookLoader ω} {target : String} {source : Option String}
    {documents : Documents} {hooks : List (String × ω)}
    (h : parseHooks loader target source documents = .ok hooks) :
    hooks = [] ∨ ∃ text, loadHooks loader text (hookFile source) = .ok hooks := by
  unfold parseHooks at h
  cases documents with
  | nil =>
      cases h
      exact .inl rfl
  | cons first rest =>
      obtain ⟨document, -, h⟩ := ok_of_bind_ok h
      split at h
      · next text _ => exact .inr ⟨text, h⟩
      · cases h
        exact .inl rfl

theorem hooks_of_build {loader : HookLoader ω} {target : String} {source : Option String}
    {package : String} {entries : List Literal} {documents : Documents} {spec : Specification ω}
    (h : build loader target source package entries documents = .ok spec) :
    spec.hooks = [] ∨ ∃ text, loadHooks loader text (hookFile source) = .ok spec.hooks := by
  unfold build at h
  dsimp only at h
  split at h
  · next hooks hresult =>
      cases h
      split at hresult
      · cases hresult
      · exact hooks_of_parseHooks hresult
  · split at h
    · cases h
      exact .inl rfl
    · cases h

/-- The hooks of a specification that was read are those of one source, or there are none. -/
theorem hooks_of_parse {loader : HookLoader ω} {target : String} {source : Option String}
    {documents : Documents} {spec : Specification ω}
    (h : parse loader target source documents = .ok (some spec)) :
    spec.hooks = [] ∨ ∃ text, loadHooks loader text (hookFile source) = .ok spec.hooks := by
  unfold parse at h
  cases documents with
  | nil => cases h
  | cons first rest =>
      obtain ⟨document, -, h⟩ := ok_of_bind_ok h
      split at h
      · obtain ⟨declared, -, h⟩ := ok_of_bind_ok h
        split at h
        · cases h
        · obtain ⟨built, hbuilt, h⟩ := ok_of_bind_ok h
          cases h
          exact hooks_of_build hbuilt
      · cases h

/-- **A specification that was read** has hooks of plain and different names, if the
loader gives such names. -/
theorem parse_hookNames {loader : HookLoader ω} (hloader : loader.NamesFunctions) {target : String}
    {source : Option String} {documents : Documents} {spec : Specification ω}
    (h : parse loader target source documents = .ok (some spec)) : HookNames spec.hooks := by
  rcases hooks_of_parse h with hnone | ⟨text, hload⟩
  · rw [hnone]
    exact .nil
  · exact .of_loadHooks hloader hload

theorem append_hookNames {s part : Specification ω} (hs : HookNames s.hooks)
    (hpart : HookNames part.hooks) : HookNames (s.append part).hooks :=
  HookNames.foldl_setNamed hpart.plain hs

theorem insert_hookNames {specs : List (Specification ω)} {part : Specification ω}
    (hspecs : ∀ s ∈ specs, HookNames s.hooks) (hpart : HookNames part.hooks) :
    ∀ s ∈ insert specs part, HookNames s.hooks := by
  induction specs with
  | nil => simpa [insert] using hpart
  | cons s rest ih =>
      obtain ⟨hs, hrest⟩ := List.forall_mem_cons.mp hspecs
      unfold insert
      split
      · exact List.forall_mem_cons.mpr ⟨append_hookNames hs hpart, hrest⟩
      · exact List.forall_mem_cons.mpr ⟨hs, ih hrest⟩

/-- Merging keeps the names of hooks plain and different. -/
theorem merge_hookNames {specs : List (Specification ω)} (h : ∀ s ∈ specs, HookNames s.hooks) :
    ∀ s ∈ merge specs, HookNames s.hooks := by
  have hfold : ∀ (parts done : List (Specification ω)), (∀ s ∈ parts, HookNames s.hooks) →
      (∀ s ∈ done, HookNames s.hooks) → ∀ s ∈ parts.foldl insert done, HookNames s.hooks := by
    intro parts
    induction parts with
    | nil => exact fun _ _ hdone => hdone
    | cons part parts ih =>
        intro done hparts hdone
        obtain ⟨hpart, hparts⟩ := List.forall_mem_cons.mp hparts
        exact ih (insert done part) hparts (insert_hookNames hdone hpart)
  exact hfold specs [] h (fun _ hs => nomatch hs)

end Specification

namespace Sample

/-- The name that a statement defines. -/
def Statement.defined? : Statement → Option String
  | .define name _ => some name
  | .alias name _ => some name
  | _ => none

/-- The snippets define public names of plain characters. -/
theorem Snippet.table_plain : ∀ s ∈ table, ∀ name ∈ s.statement.defined?, IsPlain name := by
  have htable : table.all (fun s => s.statement.defined?.all fun name =>
      name != "" && name.toList.all isPlainChar && !isPrivate name) = true := by decide +kernel
  intro s hs name hname
  have h := List.all_eq_true.mp htable s hs
  rw [Option.mem_def.mp hname, Option.all_some, Bool.and_eq_true, Bool.and_eq_true, bne_iff_ne,
    List.all_eq_true, Bool.not_eq_true'] at h
  obtain ⟨⟨hne, hplain⟩, hpublic⟩ := h
  exact HookNames.plain_of_public hne hplain hpublic

/-- Statements are those of snippets. -/
theorem mem_statements {lines : List String} :
    ∀ {number skip : Nat} {all : List Statement}, statements number skip lines = .ok all →
      ∀ st ∈ all, ∃ s ∈ Snippet.table, s.statement = st := by
  induction lines with
  | nil =>
      intro number skip all h
      cases h
      exact fun st hst => nomatch hst
  | cons line lines ih =>
      intro number skip all h
      cases skip with
      | succ skip => exact ih h
      | zero =>
          unfold statements at h
          split at h
          · exact ih h
          · split at h
            · cases h
            · next s hs =>
                split at h
                · cases h
                · obtain ⟨rest, hrest, rfl⟩ := ok_of_map_ok h
                  exact List.forall_mem_cons.mpr ⟨⟨s, List.mem_of_find?_eq_some hs, rfl⟩, ih hrest⟩

/-- What statements define has plain and different names, if the statements have
plain ones. -/
theorem definitions_hookNames {all : List Statement}
    (hplain : ∀ st ∈ all, ∀ name ∈ st.defined?, IsPlain name) :
    ∀ {done found : List (String × HookFunction)}, HookNames done →
      definitions done all = .ok found → HookNames found := by
  induction all with
  | nil =>
      intro done found hdone h
      cases h
      exact hdone
  | cons st all ih =>
      intro done found hdone h
      obtain ⟨hst, hrest⟩ := List.forall_mem_cons.mp hplain
      cases st with
      | define name f => exact ih hrest (hdone.setNamed (hst name rfl) f) h
      | «alias» name target =>
          unfold definitions at h
          split at h
          · next f _ => exact ih hrest (hdone.setNamed (hst name rfl) f) h
          · cases h
      | pass => exact ih hrest hdone h
      | fail reason => cases h
      | invalid => exact ih hrest hdone h

/-- The loader of the sample hooks gives such names. -/
theorem loadSource_namesFunctions : HookLoader.NamesFunctions loadSource := by
  intro source file defined h
  unfold loadSource at h
  split at h
  · cases h
  · next all hall =>
      obtain ⟨found, hfound, rfl⟩ := ok_of_map_ok h
      have hplain : ∀ st ∈ all, ∀ name ∈ st.defined?, IsPlain name := by
        intro st hst name hname
        obtain ⟨s, hs, rfl⟩ := mem_statements hall st hst
        exact Snippet.table_plain s hs name hname
      have hnames := definitions_hookNames hplain .nil hfound
      rw [List.map_map, List.forall_mem_map]
      refine ⟨hnames.distinct, fun e he => ?_⟩
      have hname := hnames.plain e.1 (List.mem_map_of_mem he)
      obtain ⟨c, rest, hchars, -⟩ := hname.start
      refine ⟨fun hempty => ?_, hname.plain⟩
      rw [hempty] at hchars
      cases hchars

end Sample

namespace Run

variable {impl : Implementation ω}

/-- The scope of a specification has all its hooks. -/
theorem buildScope_hasHook {spec : Specification ω} {scope : ScopeId} {w w₁ : World ω}
    (hbuilt : runFrom (buildScope impl spec) w = (.ok scope, w₁))
    (hdistinct : (spec.hooks.map (·.1)).Nodup) {name : String} {function : ω}
    (hmem : (name, function) ∈ spec.hooks) :
    ∃ location, w₁.HasHook scope name function location := by
  rcases hloaded : runFrom (loadMembers impl spec.package) w with ⟨fault | members, w₀⟩
  · unfold buildScope at hbuilt
    rw [runFrom_bind_of_error hloaded] at hbuilt
    cases hbuilt
  · rw [buildScope_stages hloaded] at hbuilt
    cases hbuilt
    refine Scope.installHooks_hasHook hdistinct hmem ?_
    rw [runFrom_newScope]
    simp

/-- A call of a path that leads nowhere fails because the path is not bound. -/
theorem execute_call_missing {scope : ScopeId} {f : Feature} {assign : Option String}
    {property : String} {args : List Literal} {kwargs : List (String × Literal)}
    {expected : Literal} {operand : Operand} {e : Value} {w w₁ : World ω}
    (hf : f.action = .call assign property args kwargs expected)
    (hresolve : runFrom (Scope.resolve impl scope f.expected) w = (.ok e, w₁))
    (hlookup : runFrom (Scope.lookup impl scope property) w₁ = (.ok operand, w₁))
    (hmissing : operand.kind = .missing) :
    runFrom (execute impl scope f) w = (.ok (.failed (.resolved e) (.unbound property)), w₁) := by
  have hprepared : runFrom (prepareCall impl scope property args kwargs) w₁ =
      (.error (.unbound property), w₁) := by
    unfold prepareCall
    rw [runFrom_bind_of_ok hlookup]
    dsimp only
    rw [if_pos hmissing]
    rfl
  have hoperated : runFrom (operate impl scope f.action e) w₁ = (.error (.unbound property), w₁) := by
    rw [hf]
    exact runFrom_bind_of_error hprepared
  rw [execute_resolved hresolve, hoperated]

/-- **Calling a hook.**  In the scope that a specification starts with every hook is
bound, to that scope, under its name with a `$` in front.  The entry of that name
and a list is a call that is not skipped, and it looks for the name with its
underscores folded.  If no underscore stands before the last character, that is
the hook.  Otherwise it is another name, and unless that one is bound, the call
fails because it is not. -/
theorem hook_lookup {spec : Specification ω} {scope : ScopeId} {w w₁ : World ω}
    (hbuilt : runFrom (buildScope impl spec) w = (.ok scope, w₁)) (hnames : HookNames spec.hooks)
    {name : String} {function : ω} (hmem : (name, function) ∈ spec.hooks) {items : List Literal}
    (hwritable :
      (Feature.callAction none (Scope.hookName (camelize name)) items).unwritable? = none)
    (target : String) :
    ∃ f location, Feature.parse (.map [(.str (Scope.hookName name), .list items)]) target = .ok f ∧
      f.skip = false ∧ f.property? = some (Scope.hookName (camelize name)) ∧
      w₁.HasHook scope name function location ∧
      ('_' ∉ name.toList.dropLast →
        ∃ kind, kind ≠ .missing ∧ kind ≠ .value ∧
          runFrom (Scope.lookup impl scope (Scope.hookName (camelize name))) w₁ =
            (.ok ⟨kind, .scope scope, Scope.hookName name, .object location⟩, w₁)) ∧
      ('_' ∈ name.toList.dropLast →
        Scope.hookName (camelize name) ≠ Scope.hookName name ∧
          (named? (w₁.bindings scope) (Scope.hookName (camelize name)) = none →
            ∀ e w₂, runFrom (Scope.resolve impl scope f.expected) w₁ = (.ok e, w₂) →
              runFrom (execute impl scope f) w₁ =
                (.ok (.failed (.resolved e) (.unbound (Scope.hookName (camelize name)))), w₂))) := by
  have hplain : ∀ c ∈ name.toList, isPlainChar c = true :=
    (hnames.plain name (List.mem_map_of_mem hmem)).plain
  obtain ⟨location, hhook⟩ := buildScope_hasHook hbuilt hnames.distinct hmem
  refine ⟨_, location, Feature.parse_hookName hplain hwritable target, rfl, rfl, hhook, ?_, ?_⟩
  · intro hinner
    rw [(camelize_eq_self_iff hplain).mpr hinner]
    refine ⟨Scope.classify impl w₁.store (Scope.hookName name) (.object location),
      Scope.classify_ne_missing impl _ _ _, Scope.classify_hook impl _ hhook.2, ?_⟩
    have hlookup := Scope.runFrom_lookup_hookName impl hplain scope w₁
    rw [(camelize_eq_self_iff hplain).mpr hinner, hhook.1] at hlookup
    exact hlookup
  · intro hinner
    constructor
    · exact fun heq => (camelize_eq_self_iff hplain).mp (Scope.hookName_inj heq) hinner
    · intro hfree e w₂ hresolve
      have hlookup := Scope.runFrom_lookup_hookName impl hplain scope w₂
      rw [Scope.bindings_of_resolve hresolve scope, hfree] at hlookup
      exact execute_call_missing rfl hresolve hlookup rfl

/-! ### A hook with an underscore and one without -/

/-- A specification with one hook and no features. -/
def oneHook (name : String) (f : Sample.HookFunction) : Specification Sample.Object :=
  ⟨"p", [], [(name, .hook f)], [], none⟩

/-- The world of the scope of such a specification. -/
def oneHookWorld (name : String) (f : Sample.HookFunction) : World Sample.Object :=
  ⟨((constantStore "Limit").alloc (.hook 0 (.hook f) [])).2,
    #[[("Limit", .int 1), ("$import", .object Sample.importerLocation),
      (Scope.hookName name, .object 6)]], #[], #[]⟩

/-- The hook `double` is what the call of `$double` finds. -/
theorem double_found :
    runFrom (buildScope constantImplementation (oneHook "double" .double))
        (World.ofStore (constantStore "Limit")) = (.ok 0, oneHookWorld "double" .double) ∧
      HookNames (oneHook "double" .double).hooks ∧
      ∃ location, (oneHookWorld "double" .double).HasHook 0 "double" (.hook .double) location ∧
        ∃ kind, kind ≠ .missing ∧ kind ≠ .value ∧
          runFrom (Scope.lookup constantImplementation 0 "$double") (oneHookWorld "double" .double) =
            (.ok ⟨kind, .scope 0, "$double", .object location⟩, oneHookWorld "double" .double) := by
  have hbuilt : runFrom (buildScope constantImplementation (oneHook "double" .double))
      (World.ofStore (constantStore "Limit")) = (.ok 0, oneHookWorld "double" .double) := rfl
  have hplain : IsPlain "double" :=
    ⟨⟨'d', _, rfl, by decide⟩, List.all_eq_true.mp (by decide +kernel)⟩
  have hnames : HookNames (oneHook "double" .double).hooks :=
    ⟨by decide, fun name hname => List.mem_singleton.mp hname ▸ hplain⟩
  have hcamel : camelize "double" = "double" :=
    (camelize_eq_self_iff hplain.plain).mpr (by decide)
  have hwritable : (Feature.callAction none (Scope.hookName (camelize "double"))
      [.scalar (.int 1)]).unwritable? = none := rfl
  obtain ⟨f, location, -, -, -, hhook, hfound, -⟩ :=
    hook_lookup hbuilt hnames List.mem_cons_self hwritable "py"
  have hlookup := hfound (by decide)
  rw [hcamel] at hlookup
  exact ⟨hbuilt, hnames, location, hhook, hlookup⟩

/-- Not every hook can be called: the call of `$to_pair` looks for `$toPair`. -/
theorem to_pair_not_found :
    ¬ ∀ (ω : Type) (impl : Implementation ω) (spec : Specification ω) (scope : ScopeId)
      (w w₁ : World ω) (name : String) (function : ω) (items : List Literal) (target : String)
      (f : Feature) (property : String),
      runFrom (buildScope impl spec) w = (.ok scope, w₁) → HookNames spec.hooks →
      (name, function) ∈ spec.hooks →
      Feature.parse (.map [(.str (Scope.hookName name), .list items)]) target = .ok f →
      f.property? = some property →
      ∃ operand location, runFrom (Scope.lookup impl scope property) w₁ = (.ok operand, w₁) ∧
        w₁.HasHook scope name function location ∧ operand.value = .object location := by
  intro h
  have hbuilt : runFrom (buildScope constantImplementation (oneHook "to_pair" .toPair))
      (World.ofStore (constantStore "Limit")) = (.ok 0, oneHookWorld "to_pair" .toPair) := rfl
  have hplain : IsPlain "to_pair" :=
    ⟨⟨'t', _, rfl, by decide⟩, List.all_eq_true.mp (by decide +kernel)⟩
  have hnames : HookNames (oneHook "to_pair" .toPair).hooks :=
    ⟨by decide, fun name hname => List.mem_singleton.mp hname ▸ hplain⟩
  have hcamel : camelize "to_pair" = "toPair" := by decide +kernel
  obtain ⟨operand, location, hfound, -, hvalue⟩ := h _ _ _ _ _ _ _ _ [] "py" _ _ hbuilt hnames
    List.mem_cons_self (Feature.parse_hookName hplain.plain rfl "py") rfl
  rw [Scope.runFrom_lookup_hookName _ hplain.plain, hcamel] at hfound
  cases hfound
  cases hvalue

end Run

end Conformance
