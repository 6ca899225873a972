import Conformance.Proofs.DigitNames
import Conformance.Proofs.Escape
import Conformance.Proofs.Lookups

/-!
# Lookups in plain data

Mappings, lists, tuples and scalars have no code of their own, so a lookup among them changes
nothing, and it finds a value or reports that there is none, with one exception: a name of
digits is taken for an index of a list or tuple, and some digits have no decimal value.
`MeetsBareDigits` says that the walk along a path comes to such a name at a list or tuple,
whatever comes before and after it.

A walk starts at the bindings of a scope, and each member that it finds has no object in it
if its owner has none (`member_found`).  So the faults along a path are settled by
induction on its names (`find_of_meets`, `find_of_not_meets`).
-/

namespace Conformance

variable {ω : Type}

/-! ## Values without objects -/

namespace Store

/-- The second value is the first or has it as a part.  A marker gives each of the markers as
an attribute, so what is set on any of them is a part of it. -/
inductive HasPart (s : Store ω) (part : Value) : Value → Prop
  | self : HasPart s part part
  | item {location : Loc} {v : Value} (hmem : v ∈ s.items location) (h : HasPart s part v) :
      HasPart s part (.list location)
  | entry {location : Loc} {e : Key × Value} (hmem : e ∈ s.entries location)
      (h : HasPart s part e.2) : HasPart s part (.map location)
  | tuple {items : List Value} {v : Value} (hmem : v ∈ items) (h : HasPart s part v) :
      HasPart s part (.tuple items)
  | frozen {entries : List (Key × Value)} {e : Key × Value} (hmem : e ∈ entries)
      (h : HasPart s part e.2) : HasPart s part (.frozen entries)
  | set {marker other : Sentinel} {e : String × Value} (hmem : e ∈ s.marks other)
      (h : HasPart s part e.2) : HasPart s part (.scalar (.sentinel marker))

/-- No object of the implementation and no hook is in the value: it is made of mappings,
lists, tuples and scalars. -/
def Objectless (s : Store ω) (v : Value) : Prop := ∀ location, ¬ s.HasPart (.object location) v

variable {s : Store ω} {u v : Value} {name : String}

/-- An attribute of a value without objects has none either. -/
theorem Objectless.attribute (h : s.Objectless v) (hu : v.attribute? name = some u) :
    s.Objectless u := by
  intro location hpart
  unfold Value.attribute? at hu
  split at hu
  all_goals cases hu
  all_goals cases hpart
  all_goals exact h location (.set ‹_› ‹_›)

end Store

/-- No object can be reached through the owner. -/
def Owner.Objectless (w : World ω) : Owner → Prop
  | .scope id => ∀ e ∈ w.bindings id, w.store.Objectless e.2
  | .value v => w.store.Objectless v

namespace Scope

variable {impl : Implementation ω} {w : World ω} {owner : Owner} {name digits path : String}
  {names walked : List String}

/-! ## Members -/

/-- No object is in a member of an owner without objects. -/
theorem objectless_of_hasMember {v : Value} (howner : owner.Objectless w)
    (hv : owner.HasMember w v) : w.store.Objectless v := by
  cases hv with
  | binding he => exact howner _ he
  | entry he => exact fun location hpart => howner location (.entry he hpart)
  | frozen he => exact fun location hpart => howner location (.frozen he hpart)
  | item hv => exact fun location hpart => howner location (.item hv hpart)
  | component hv => exact fun location hpart => howner location (.tuple hv hpart)
  | set he => exact fun location hpart => howner location (.set he hpart)
  | own hv => exact Store.Objectless.attribute howner hv

/-- The members of an owner under the spellings of a name. -/
theorem member_of_digits (impl : Implementation ω) (w : World ω) (howner : owner.IsSequence)
    (hname : Name.IsBareDigits name) :
    runFrom (member impl owner name) w = (.error (.notInteger 10 name), w) := by
  have hspellings : Name.spellings name = [name] := by
    unfold Name.spellings
    rw [Name.hasSnakeSpelling_of_isIndex hname.1]
    rfl
  unfold member firstMember
  rw [hspellings]
  exact runFrom_bind_of_error (memberAs_of_digits howner hname)

theorem member_found (impl : Implementation ω) (howner : owner.Objectless w)
    (hname : ¬ (owner.IsSequence ∧ Name.IsBareDigits name)) :
    ∃ found, runFrom (member impl owner name) w = (.ok found, w) ∧
      ∀ v, found = some v → w.store.Objectless v := by
  have hfirst : ∀ names : List String,
      (∀ other ∈ names, ¬ (owner.IsSequence ∧ Name.IsBareDigits other)) →
        ∃ found, runFrom (firstMember impl owner names) w = (.ok found, w) ∧
          ∀ v, found = some v → w.store.Objectless v := by
    intro names
    induction names with
    | nil => exact fun _ => ⟨none, rfl, nofun⟩
    | cons other names ih =>
        intro hall
        have hobject : ∀ location, owner ≠ .value (.object location) := by
          rintro location rfl
          exact howner location .self
        obtain ⟨found, hread, hmember⟩ :=
          memberAs_found impl w hobject (hall other List.mem_cons_self)
        unfold firstMember
        rw [runFrom_bind_of_ok hread]
        cases found with
        | none => exact ih fun more hmore => hall more (List.mem_cons_of_mem _ hmore)
        | some v =>
            refine ⟨some v, rfl, fun u hu => ?_⟩
            exact objectless_of_hasMember howner (hmember u hu)
  refine hfirst _ fun other hother hcase => hname ?_
  obtain rfl := Name.eq_of_mem_spellings hother hcase.2.1
  exact hcase

/-! ## Paths -/

variable (impl w digits) in
/-- The walk along some names comes to digits without a decimal value at a list or a tuple. -/
inductive MeetsBareDigits : Owner → List String → Prop
  | here {owner : Owner} {rest : List String} (howner : owner.IsSequence)
      (hdigits : Name.IsBareDigits digits) : MeetsBareDigits owner (digits :: rest)
  | later {owner : Owner} {name next : String} {rest : List String} {v : Value}
      (hfound : (runFrom (member impl owner name) w).1 = .ok (some v))
      (hlater : MeetsBareDigits (.value v) (next :: rest)) :
      MeetsBareDigits owner (name :: next :: rest)

variable (impl path) in
/-- The value that the names lead to from an owner. -/
def find (owner : Owner) (walked names : List String) : Exec ω Value := do
  let (owner, name) ← walk impl owner walked names
  match ← member impl owner name with
  | some v => return v
  | none => throw (.unbound path)

/-- A walk along two names or more looks up the first one. -/
theorem runFrom_find_cons (owner : Owner) (walked : List String) (name next : String)
    (rest : List String) (w : World ω) :
    runFrom (find impl path owner walked (name :: next :: rest)) w =
      match runFrom (member impl owner name) w with
      | (.ok (some v), w₁) =>
        runFrom (find impl path (.value v) (walked ++ [name]) (next :: rest)) w₁
      | (.ok none, w₁) => (.error (.unbound (pathOf (walked ++ [name]))), w₁)
      | (.error fault, w₁) => (.error fault, w₁) := by
  unfold find
  rw [walk, runFrom_bind, runFrom_bind]
  · rcases runFrom (member impl owner name) w with ⟨fault | _ | v, w₁⟩
    · rfl
    · rfl
    · exact (runFrom_bind _ _ w₁).symm
  · exact List.cons_ne_nil next rest

/-- The last name of a walk is looked up like the others. -/
theorem runFrom_find_last (owner : Owner) (walked : List String) (name : String) (w : World ω) :
    runFrom (find impl path owner walked [name]) w =
      match runFrom (member impl owner name) w with
      | (.ok (some v), w₁) => (.ok v, w₁)
      | (.ok none, w₁) => (.error (.unbound path), w₁)
      | (.error fault, w₁) => (.error fault, w₁) := by
  unfold find
  rw [walk, runFrom_bind_of_ok (runFrom_pure _ _), runFrom_bind]
  rcases runFrom (member impl owner name) w with ⟨fault | _ | v, w₁⟩ <;> rfl

/-- A walk that meets such digits ends there. -/
theorem find_of_meets (hmeets : MeetsBareDigits impl w digits owner names)
    (howner : owner.Objectless w) (walked : List String) :
    runFrom (find impl path owner walked names) w = (.error (.notInteger 10 digits), w) := by
  induction hmeets generalizing walked with
  | @here owner rest hsequence hdigits =>
      have hread := member_of_digits impl w hsequence hdigits
      cases rest with
      | nil => rw [runFrom_find_last, hread]
      | cons next rest => rw [runFrom_find_cons, hread]
  | @later owner name next rest v hfound hlater ih =>
      have hname : ¬ (owner.IsSequence ∧ Name.IsBareDigits name) := by
        rintro ⟨hsequence, hdigits⟩
        rw [member_of_digits impl w hsequence hdigits] at hfound
        cases hfound
      obtain ⟨found, hread, hobjectless⟩ := member_found impl howner hname
      rw [hread] at hfound
      obtain rfl := Except.ok.inj hfound
      rw [runFrom_find_cons, hread]
      exact ih (hobjectless v rfl) _

/-- A walk that does not meet such digits ends at a value, or at a name that is not bound. -/
theorem find_of_not_meets (path : String)
    (hmeets : ∀ digits, ¬ MeetsBareDigits impl w digits owner names)
    (howner : owner.Objectless w) (hnames : names ≠ []) (walked : List String) :
    (∃ v, runFrom (find impl path owner walked names) w = (.ok v, w)) ∨
      ∃ unbound,
        runFrom (find impl path owner walked names) w = (.error (.unbound unbound), w) := by
  induction names generalizing owner walked with
  | nil => exact absurd rfl hnames
  | cons name names ih =>
      have hname : ¬ (owner.IsSequence ∧ Name.IsBareDigits name) :=
        fun h => hmeets name (.here h.1 h.2)
      obtain ⟨found, hread, hobjectless⟩ := member_found impl howner hname
      cases names with
      | nil =>
          rw [runFrom_find_last, hread]
          cases found with
          | none => exact Or.inr ⟨path, rfl⟩
          | some v => exact Or.inl ⟨v, rfl⟩
      | cons next rest =>
          rw [runFrom_find_cons, hread]
          cases found with
          | none => exact Or.inr ⟨_, rfl⟩
          | some v =>
              have howner' : (Owner.value v).Objectless w := hobjectless v rfl
              refine ih (fun digits hlater => hmeets digits ?_) howner' (List.cons_ne_nil _ _) _
              exact .later (congrArg Prod.fst hread) hlater

/-- A lookup is a walk from the bindings of the scope. -/
theorem get_eq_find (scope : ScopeId) (path : String) :
    get impl scope path =
      if path = "" then throw .emptyPath
      else find impl path (.scope scope) [] (pathNames path) := by
  unfold get locate
  split
  · rfl
  · rfl

/-- What a test for a path makes of a lookup. -/
theorem runFrom_contains (scope : ScopeId) (path : String) (w : World ω) :
    runFrom (contains impl scope path) w =
      match runFrom (get impl scope path) w with
      | (.ok _, w₁) => (.ok true, w₁)
      | (.error fault, w₁) =>
        if fault.family = .lookup then (.ok false, w₁) else (.error fault, w₁) := by
  unfold contains
  rw [runFrom_bind, runFrom_attempt]
  rcases runFrom (get impl scope path) w with ⟨fault | v, w₁⟩
  · dsimp only
    split <;> rfl
  · rfl

/-- Digits without a decimal value are no matter of lookups. -/
theorem digits_kind (digits : String) : (Fault.notInteger 10 digits).kind ≠ "LookupError" := by
  change "ValueError" ≠ "LookupError"
  decide

variable {scope : ScopeId} (hplain : (Owner.scope scope).Objectless w)
include hplain

theorem fails_of_meets
    (hmeets : MeetsBareDigits impl w digits (.scope scope) (pathNames path)) :
    runFrom (get impl scope path) w = (.error (.notInteger 10 digits), w) ∧
      runFrom (contains impl scope path) w = (.error (.notInteger 10 digits), w) := by
  have hpath : path ≠ "" := by
    rintro rfl
    cases hmeets with
    | here hsequence _ => exact hsequence
  have hget : runFrom (get impl scope path) w = (.error (.notInteger 10 digits), w) := by
    rw [get_eq_find, if_neg hpath]
    exact find_of_meets hmeets hplain []
  refine ⟨hget, ?_⟩
  rw [runFrom_contains, hget]
  rfl

theorem answers_of_not_meets
    (hmeets : ∀ digits, ¬ MeetsBareDigits impl w digits (.scope scope) (pathNames path)) :
    (∃ v, runFrom (get impl scope path) w = (.ok v, w) ∧
        runFrom (contains impl scope path) w = (.ok true, w)) ∨
      ∃ fault, runFrom (get impl scope path) w = (.error fault, w) ∧ fault.kind = "LookupError" ∧
        runFrom (contains impl scope path) w = (.ok false, w) := by
  rw [runFrom_contains, get_eq_find]
  by_cases hpath : path = ""
  · rw [if_pos hpath]
    exact Or.inr ⟨.emptyPath, rfl, rfl, rfl⟩
  · have hnames : pathNames path ≠ [] := by
      unfold pathNames
      simpa using splitOn_ne_nil '.' path.toList
    rw [if_neg hpath]
    rcases find_of_not_meets path hmeets hplain hnames [] with
      ⟨v, hfound⟩ | ⟨unbound, hmissing⟩
    · rw [hfound]
      exact Or.inl ⟨v, rfl, rfl⟩
    · rw [hmissing]
      exact Or.inr ⟨.unbound unbound, rfl, rfl, rfl⟩

omit hplain

/-- **Lookups in plain data.**  In a scope through which no object is reached, a lookup finds a
value or fails with a lookup error, and a test for a path says which, unless the walk along the
path comes to digits without a decimal value at a list or a tuple.  Then both fail for want of
a number.  Nothing changes in either case. -/
theorem plain_lookups (impl : Implementation ω) (w : World ω) (scope : ScopeId)
    (hplain : (Owner.scope scope).Objectless w) (path : String) :
    ((runFrom (get impl scope path) w).2 = w ∧ (runFrom (contains impl scope path) w).2 = w) ∧
    (((∃ v, (runFrom (get impl scope path) w).1 = .ok v) ∨
        ∃ fault, (runFrom (get impl scope path) w).1 = .error fault ∧
          fault.kind = "LookupError") ↔
      ∀ digits, ¬ MeetsBareDigits impl w digits (.scope scope) (pathNames path)) ∧
    ((∃ bound, (runFrom (contains impl scope path) w).1 = .ok bound) ↔
      ∀ digits, ¬ MeetsBareDigits impl w digits (.scope scope) (pathNames path)) ∧
    (∀ bound, (runFrom (contains impl scope path) w).1 = .ok bound →
      (bound = true ↔ ∃ v, (runFrom (get impl scope path) w).1 = .ok v)) ∧
    ∀ digits, MeetsBareDigits impl w digits (.scope scope) (pathNames path) →
      (runFrom (get impl scope path) w).1 = .error (.notInteger 10 digits) ∧
        (runFrom (contains impl scope path) w).1 = .error (.notInteger 10 digits) := by
  have hfails : ∀ digits, MeetsBareDigits impl w digits (.scope scope) (pathNames path) →
      (runFrom (get impl scope path) w).1 = .error (.notInteger 10 digits) ∧
        (runFrom (contains impl scope path) w).1 = .error (.notInteger 10 digits) := by
    intro digits hmeets
    obtain ⟨hget, hcontains⟩ := fails_of_meets hplain hmeets
    exact ⟨congrArg Prod.fst hget, congrArg Prod.fst hcontains⟩
  by_cases hmet : ∃ digits, MeetsBareDigits impl w digits (.scope scope) (pathNames path)
  · obtain ⟨digits, hmeets⟩ := hmet
    obtain ⟨hget, hcontains⟩ := fails_of_meets hplain hmeets
    refine ⟨⟨congrArg Prod.snd hget, congrArg Prod.snd hcontains⟩,
      ⟨?_, fun hnone => absurd hmeets (hnone digits)⟩,
      ⟨?_, fun hnone => absurd hmeets (hnone digits)⟩, ?_, hfails⟩
    · rintro (⟨v, hv⟩ | ⟨fault, hfault, hkind⟩)
      · rw [hget] at hv
        cases hv
      · rw [hget] at hfault
        obtain rfl := Except.error.inj hfault
        exact absurd hkind (digits_kind digits)
    · rintro ⟨bound, hbound⟩
      rw [hcontains] at hbound
      cases hbound
    · intro bound hbound
      rw [hcontains] at hbound
      cases hbound
  · rw [not_exists] at hmet
    rcases answers_of_not_meets hplain hmet with
      ⟨v, hget, hcontains⟩ | ⟨fault, hget, hkind, hcontains⟩
    · refine ⟨⟨congrArg Prod.snd hget, congrArg Prod.snd hcontains⟩,
        iff_of_true (Or.inl ⟨v, congrArg Prod.fst hget⟩) hmet,
        iff_of_true ⟨true, congrArg Prod.fst hcontains⟩ hmet, ?_, hfails⟩
      intro bound hbound
      rw [hcontains] at hbound
      exact iff_of_true (Except.ok.inj hbound).symm ⟨v, congrArg Prod.fst hget⟩
    · refine ⟨⟨congrArg Prod.snd hget, congrArg Prod.snd hcontains⟩,
        iff_of_true (Or.inr ⟨fault, congrArg Prod.fst hget, hkind⟩) hmet,
        iff_of_true ⟨false, congrArg Prod.fst hcontains⟩ hmet, ?_, hfails⟩
      intro bound hbound
      rw [hcontains] at hbound
      refine iff_of_false (fun htrue => ?_) ?_
      · rw [htrue] at hbound
        cases hbound
      · rintro ⟨v, hv⟩
        rw [hget] at hv
        cases hv

/-! ## A lookup that fails otherwise -/

/-- The bindings of a scope with a list of one number. -/
def plainWorld : World Sample.Object :=
  ⟨Run.listStore, #[[("l", .list 5)]], #[], #[]⟩

/-- No object is reached from the list. -/
theorem plainWorld_objectless : (Owner.scope 0).Objectless plainWorld := by
  intro e he location hpart
  obtain rfl := List.mem_singleton.mp he
  cases hpart with
  | item hmem h =>
      obtain rfl := List.mem_singleton.mp hmem
      cases h

/-- Item `²` is looked for in the list. -/
theorem plainWorld_meets :
    MeetsBareDigits Run.listImplementation plainWorld "²" (.scope 0) (pathNames "l.²") := by
  have hnames : pathNames "l.²" = ["l", "²"] := by decide +kernel
  rw [hnames]
  exact .later (v := .list 5) rfl (.here trivial ⟨by decide +kernel, by decide +kernel⟩)

/-- Not every lookup in plain data finds a value or fails with a lookup error. -/
theorem plain_lookups_not_always_answered :
    ¬ ∀ (ω : Type) (impl : Implementation ω) (w : World ω) (scope : ScopeId),
      (Owner.scope scope).Objectless w → ∀ path,
        (∃ v, (runFrom (get impl scope path) w).1 = .ok v) ∨
          ∃ fault, (runFrom (get impl scope path) w).1 = .error fault ∧
            fault.kind = "LookupError" := by
  intro h
  obtain ⟨hget, -⟩ := fails_of_meets plainWorld_objectless plainWorld_meets
  rcases h _ Run.listImplementation plainWorld 0 plainWorld_objectless "l.²" with
    ⟨v, hv⟩ | ⟨fault, hfault, hkind⟩
  · rw [hget] at hv
    cases hv
  · rw [hget] at hfault
    obtain rfl := Except.error.inj hfault
    exact absurd hkind (digits_kind _)

/-- Item `²` of the list, by the general statement. -/
theorem superscript_lookup_fails :
    (Owner.scope 0).Objectless plainWorld ∧
      (runFrom (get Run.listImplementation 0 "l.²") plainWorld).1 = .error (.notInteger 10 "²") ∧
      (runFrom (contains Run.listImplementation 0 "l.²") plainWorld).1 =
        .error (.notInteger 10 "²") := by
  refine ⟨plainWorld_objectless, ?_⟩
  exact (plain_lookups Run.listImplementation plainWorld 0 plainWorld_objectless "l.²").2.2.2.2 "²"
    plainWorld_meets

end Scope

end Conformance
