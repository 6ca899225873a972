import Conformance.Proofs.Steps
import Conformance.Scope.Assign

/-!
# What binding a path does

An assignment goes through four stages: the walk to the owner, the check for a
bound constant, the write, and a log record.  `assign_stages` gives its result
and the world it leaves from those of the stages, so that no later proof opens
the definition.  Before that stands what the stages come down to: the bindings of
a scope, where setting one name leaves every other name alone, and where what holds
of all values still holds when values it holds of are set one after another.
-/

namespace Conformance

/-! ## Bindings -/

section Named

variable {α : Type}

@[simp] theorem named?_nil (name : String) : named? ([] : List (String × α)) name = none := rfl

theorem named?_cons (n name : String) (v : α) (rest : List (String × α)) :
    named? ((n, v) :: rest) name = if n = name then some v else named? rest name := by
  unfold named?
  by_cases h : n = name
  · simp [h]
  · have hbeq : (n == name) = false := by simpa using h
    simp [h, hbeq]

/-- A name that was set has the value it was set to. -/
theorem named?_setNamed_self (entries : List (String × α)) (name : String) (v : α) :
    named? (setNamed entries name v) name = some v := by
  induction entries with
  | nil => simp [setNamed, named?_cons]
  | cons e rest ih =>
      obtain ⟨n, u⟩ := e
      unfold setNamed
      by_cases h : n = name
      · rw [if_pos h, named?_cons, if_pos h]
      · rw [if_neg h, named?_cons, if_neg h, ih]

/-- Setting a name adds it at the end if it is new. -/
theorem names_setNamed (entries : List (String × α)) (name : String) (v : α) :
    (setNamed entries name v).map (·.1) =
      if name ∈ entries.map (·.1) then entries.map (·.1) else entries.map (·.1) ++ [name] := by
  induction entries with
  | nil => rfl
  | cons e rest ih =>
      obtain ⟨n, u⟩ := e
      unfold setNamed
      by_cases h : n = name
      · simp [h]
      · rw [if_neg h, List.map_cons, ih, List.map_cons]
        simp only [List.mem_cons, Ne.symm h, false_or]
        split <;> rfl

/-- Setting a name leaves the others alone. -/
theorem named?_setNamed_of_ne (entries : List (String × α)) {name other : String} (v : α)
    (hne : name ≠ other) :
    named? (setNamed entries name v) other = named? entries other := by
  induction entries with
  | nil => simp [setNamed, named?_cons, hne]
  | cons e rest ih =>
      obtain ⟨n, u⟩ := e
      unfold setNamed
      by_cases h : n = name
      · subst h
        rw [if_pos rfl, named?_cons, named?_cons, if_neg hne, if_neg hne]
      · rw [if_neg h, named?_cons, named?_cons, ih]

end Named

/-! ## Values set one after another -/

section Values

variable {α : Type} {P : α → Prop}

/-- What holds of the values there and of one that is set holds of all. -/
theorem forall_set {entries : Entries α} (h : ∀ e ∈ entries, P e.2) (key : Key) {value : α}
    (hvalue : P value) : ∀ e ∈ entries.set key value, P e.2 := by
  induction entries with
  | nil => simpa [Entries.set] using hvalue
  | cons e rest ih =>
      obtain ⟨k, v⟩ := e
      rw [List.forall_mem_cons] at h
      rw [Entries.set]
      by_cases hkey : k.same key = true
      · rw [if_pos hkey, List.forall_mem_cons]
        exact ⟨hvalue, h.2⟩
      · rw [if_neg hkey, List.forall_mem_cons]
        exact ⟨h.1, ih h.2⟩

theorem forall_setNamed {entries : List (String × α)} (h : ∀ e ∈ entries, P e.2) (name : String)
    {value : α} (hvalue : P value) : ∀ e ∈ setNamed entries name value, P e.2 := by
  induction entries with
  | nil => simpa [setNamed] using hvalue
  | cons e rest ih =>
      obtain ⟨n, v⟩ := e
      rw [List.forall_mem_cons] at h
      rw [setNamed]
      by_cases hname : n = name
      · rw [if_pos hname, List.forall_mem_cons]
        exact ⟨hvalue, h.2⟩
      · rw [if_neg hname, List.forall_mem_cons]
        exact ⟨h.1, ih h.2⟩

end Values

/-! ## Bindings of the scopes of a world -/

namespace World

variable {ω : Type}

/-- Setting the bindings of a scope gives it those bindings, unless there is no
such scope. -/
theorem bindings_set (w : World ω) (scope other : ScopeId) (b : Bindings) :
    World.bindings { w with scopes := w.scopes.setIfInBounds scope b } other =
      if scope = other ∧ scope < w.scopes.size then b else w.bindings other := by
  unfold World.bindings
  rw [Array.getD_eq_getD_getElem?, Array.getD_eq_getD_getElem?, Array.getElem?_setIfInBounds]
  by_cases h : scope = other
  · subst h
    by_cases hlt : scope < w.scopes.size
    · simp [hlt]
    · simp [hlt]
  · simp [h]

/-- A new scope leaves the others as they are. -/
theorem bindings_push (w : World ω) (b : Bindings) (scope : ScopeId) :
    World.bindings { w with scopes := w.scopes.push b } scope =
      if scope = w.scopes.size then b else w.bindings scope := by
  unfold World.bindings
  rw [Array.getD_eq_getD_getElem?, Array.getD_eq_getD_getElem?, Array.getElem?_push]
  by_cases h : scope = w.scopes.size
  · simp [h]
  · simp [h]

end World

/-! ## Assignments -/

namespace Scope

variable {ω : Type} (impl : Implementation ω)

/-- The fault of an assignment whose target cannot be walked to. -/
def targetFault (path : String) (fault : Fault) : Fault :=
  if fault.family = .lookup then .invalidAssignment path fault.message else fault

/-- The fault of an assignment whose owner does not take the value. -/
def ownerFault (path : String) (fault : Fault) : Fault :=
  if isRefusal fault then .invalidAssignment path fault.describe else fault

theorem runFrom_locateTarget (scope : ScopeId) (path : String) (w : World ω) :
    runFrom (locateTarget impl scope path) w =
      match runFrom (locate impl scope path) w with
      | (.ok found, w₁) => (.ok found, w₁)
      | (.error fault, w₁) => (.error (targetFault path fault), w₁) := by
  unfold locateTarget targetFault
  rw [runFrom_bind, runFrom_attempt]
  rcases runFrom (locate impl scope path) w with ⟨fault | found, w₁⟩
  · dsimp only
    by_cases h : fault.family = .lookup
    · simp [h]
    · simp [h]
  · rfl

/-- **The stages of an assignment.** -/
theorem assign_stages (scope : ScopeId) (path : String) (v : Value) (w : World ω) :
    runFrom (assign impl scope path v) w =
      match runFrom (locate impl scope path) w with
      | (.error fault, w₁) => (.error (targetFault path fault), w₁)
      | (.ok (owner, name), w₁) =>
        match runFrom (isBoundConstant impl owner name) w₁ with
        | (.error fault, w₂) => (.error fault, w₂)
        | (.ok true, w₂) => (.error (.constantReassigned path), w₂)
        | (.ok false, w₂) =>
          match runFrom (write impl owner name v) w₂ with
          | (.error fault, w₃) => (.error (ownerFault path fault), w₃)
          | (.ok (), w₃) =>
            (.ok (), { w₃ with log := w₃.log.push ⟨.debug, .scope,
              "Bound " ++ path ++ " = " ++ String.ofList (impl.datum w₃.names w₃.store v).shown⟩ }) := by
  unfold assign
  rw [runFrom_bind, runFrom_locateTarget]
  rcases runFrom (locate impl scope path) w with ⟨fault | ⟨owner, name⟩, w₁⟩
  · rfl
  · dsimp only
    rw [runFrom_bind]
    rcases runFrom (isBoundConstant impl owner name) w₁ with ⟨fault | bound, w₂⟩
    · rfl
    · cases bound with
      | true => rfl
      | false =>
          simp only [Bool.false_eq_true, if_false]
          rw [runFrom_bind, runFrom_attempt]
          rcases runFrom (write impl owner name v) w₂ with ⟨fault | ⟨⟩, w₃⟩
          · dsimp only [ownerFault]
            by_cases h : isRefusal fault = true
            · simp [h]
            · simp [h]
          · rfl

/-- An assignment keeps a preorder that its stages keep and that ignores the log. -/
theorem assign_moves {R : World ω → World ω → Prop} [IsTrans (World ω) R]
    (hlog : ∀ (w : World ω) log, R w { w with log }) {scope : ScopeId} {path : String} {v : Value}
    {w : World ω} (hlocate : Moves R (locate impl scope path))
    (hcheck : ∀ owner name, Moves R (isBoundConstant impl owner name))
    (hwrite : ∀ owner name w₁ w₂, runFrom (locate impl scope path) w = (.ok (owner, name), w₁) →
      runFrom (isBoundConstant impl owner name) w₁ = (.ok false, w₂) →
        R w₂ (runFrom (write impl owner name v) w₂).2) :
    R w (runFrom (assign impl scope path v) w).2 := by
  have hfirst := hlocate w
  rw [assign_stages]
  rcases hfound : runFrom (locate impl scope path) w with ⟨fault | ⟨owner, name⟩, w₁⟩
  · rw [hfound] at hfirst
    exact hfirst
  · have hsecond := hcheck owner name w₁
    rw [hfound] at hfirst
    dsimp only
    rcases hbound : runFrom (isBoundConstant impl owner name) w₁ with ⟨fault | bound, w₂⟩
    · rw [hbound] at hsecond
      exact IsTrans.trans _ _ _ hfirst hsecond
    · rw [hbound] at hsecond
      have hchecked := IsTrans.trans _ _ _ hfirst hsecond
      cases bound with
      | true => exact hchecked
      | false =>
          have hthird := hwrite owner name w₁ w₂ hfound hbound
          dsimp only
          rcases hset : runFrom (write impl owner name v) w₂ with ⟨fault | ⟨⟩, w₃⟩
          · rw [hset] at hthird
            exact IsTrans.trans _ _ _ hchecked hthird
          · rw [hset] at hthird
            exact IsTrans.trans _ _ _ (IsTrans.trans _ _ _ hchecked hthird) (hlog w₃ _)

/-- **An assignment that ended well** found its target free and wrote to it. -/
theorem assign_ok {scope : ScopeId} {path : String} {v : Value} {w w' : World ω}
    (h : runFrom (assign impl scope path v) w = (.ok (), w')) :
    ∃ owner name w₁ w₂ w₃ log, runFrom (locate impl scope path) w = (.ok (owner, name), w₁) ∧
      runFrom (isBoundConstant impl owner name) w₁ = (.ok false, w₂) ∧
      runFrom (write impl owner name v) w₂ = (.ok (), w₃) ∧ w' = { w₃ with log } := by
  rw [assign_stages] at h
  rcases hfound : runFrom (locate impl scope path) w with ⟨fault | ⟨owner, name⟩, w₁⟩
  · rw [hfound] at h
    cases h
  · rw [hfound] at h
    dsimp only at h
    rcases hbound : runFrom (isBoundConstant impl owner name) w₁ with ⟨fault | _ | _, w₂⟩
    · rw [hbound] at h
      cases h
    · rw [hbound] at h
      dsimp only at h
      rcases hset : runFrom (write impl owner name v) w₂ with ⟨fault | ⟨⟩, w₃⟩
      · rw [hset] at h
        cases h
      · rw [hset] at h
        cases h
        exact ⟨owner, name, w₁, w₂, w₃, _, rfl, hbound, hset, rfl⟩
    · rw [hbound] at h
      cases h

/-- The check for a bound constant reads the member under the name as written. -/
theorem runFrom_isBoundConstant (owner : Owner) (name : String) (w : World ω) :
    runFrom (isBoundConstant impl owner name) w =
      if Name.isConstant name then
        match runFrom (memberAs impl owner name) w with
        | (.ok found, w₁) => (.ok found.isSome, w₁)
        | (.error fault, w₁) => (.error fault, w₁)
      else (.ok false, w) := by
  unfold isBoundConstant
  by_cases h : Name.isConstant name = true
  · rw [if_pos h, if_pos h, runFrom_bind]
    rcases runFrom (memberAs impl owner name) w with ⟨fault | found, w₁⟩
    · rfl
    · rfl
  · rw [if_neg h, if_neg h]
    rfl

/-- The check faults when the member of a constant cannot be read. -/
theorem isBoundConstant_error_iff {owner : Owner} {name : String} {w : World ω} {fault : Fault} :
    (runFrom (isBoundConstant impl owner name) w).1 = .error fault ↔
      Name.isConstant name = true ∧ (runFrom (memberAs impl owner name) w).1 = .error fault := by
  rw [runFrom_isBoundConstant]
  by_cases h : Name.isConstant name = true
  · rw [if_pos h]
    rcases runFrom (memberAs impl owner name) w with ⟨other | found, w₁⟩
    · simp [h]
    · simp
  · rw [if_neg h]
    simp [h]

/-! ## Names without dots -/

/-- A text without the separator is its only part. -/
theorem splitOn_of_not_mem {separator : Char} {cs : List Char} (h : separator ∉ cs) :
    Text.splitOn separator cs = [cs] := by
  induction cs with
  | nil => rfl
  | cons c rest ih =>
      have hc : (c == separator) = false := by
        have hne : c ≠ separator := fun heq => h (heq ▸ List.mem_cons_self)
        simpa using hne
      have hrest := ih fun hmem => h (List.mem_cons_of_mem _ hmem)
      unfold Text.splitOn
      rw [hc, hrest]
      rfl

/-- A name without dots is a path of one name. -/
theorem pathNames_of_plain {name : String} (h : '.' ∉ name.toList) : pathNames name = [name] := by
  unfold pathNames
  rw [splitOn_of_not_mem h]
  simp

/-- The owner of a name without dots is the scope. -/
theorem locate_of_plain {name : String} (hdots : '.' ∉ name.toList) (hname : name ≠ "")
    (scope : ScopeId) (w : World ω) :
    runFrom (locate impl scope name) w = (.ok (.scope scope, name), w) := by
  unfold locate
  rw [if_neg hname, pathNames_of_plain hdots]
  rfl

/-! ## Paths with dots -/

theorem splitOn_ne_nil (separator : Char) (cs : List Char) : Text.splitOn separator cs ≠ [] := by
  cases cs with
  | nil => exact List.cons_ne_nil _ _
  | cons c rest =>
      unfold Text.splitOn
      split
      · exact List.cons_ne_nil _ _
      · split
        · exact List.cons_ne_nil _ _
        · exact List.cons_ne_nil _ _

/-- A text with the separator has two parts at least. -/
theorem splitOn_of_mem {separator : Char} {cs : List Char} (h : separator ∈ cs) :
    ∃ first second rest, Text.splitOn separator cs = first :: second :: rest := by
  induction cs with
  | nil => exact absurd h List.not_mem_nil
  | cons c rest ih =>
      unfold Text.splitOn
      by_cases hc : c = separator
      · obtain ⟨first, parts, hparts⟩ := List.exists_cons_of_ne_nil (splitOn_ne_nil separator rest)
        exact ⟨[], first, parts, by simp [hc, hparts]⟩
      · have hrest : separator ∈ rest := by
          rcases List.mem_cons.mp h with heq | hmem
          · exact absurd heq.symm hc
          · exact hmem
        obtain ⟨first, second, parts, hparts⟩ := ih hrest
        exact ⟨c :: first, second, parts, by simp [hc, hparts]⟩

/-- Walking on from a value ends at a value. -/
theorem walk_of_value (names : List String) : ∀ {u : Value} {walked : List String} {owner : Owner}
    {name : String} {w w' : World ω},
    runFrom (walk impl (.value u) walked names) w = (.ok (owner, name), w') →
      ∃ v, owner = .value v := by
  induction names with
  | nil =>
      intro u walked owner name w w' h
      cases h
      exact ⟨u, rfl⟩
  | cons first rest ih =>
      intro u walked owner name w w' h
      cases rest with
      | nil =>
          cases h
          exact ⟨u, rfl⟩
      | cons second rest =>
          unfold walk at h
          obtain ⟨found, w₁, -, h⟩ := bind_eq_ok_iff.mp h
          cases found with
          | none => cases h
          | some v => exact ih h

/-- **The owner of a path** is the scope for a name, and a value for a path with
dots. -/
theorem locate_cases {scope : ScopeId} {path name : String} {owner : Owner} {w w' : World ω}
    (h : runFrom (locate impl scope path) w = (.ok (owner, name), w')) :
    ('.' ∉ path.toList ∧ path ≠ "" ∧ owner = .scope scope ∧ name = path) ∨
    ('.' ∈ path.toList ∧ ∃ v, owner = .value v) := by
  by_cases hempty : path = ""
  · unfold locate at h
    rw [if_pos hempty] at h
    cases h
  · by_cases hdots : '.' ∈ path.toList
    · refine Or.inr ⟨hdots, ?_⟩
      obtain ⟨first, second, rest, hparts⟩ := splitOn_of_mem hdots
      unfold locate pathNames at h
      rw [if_neg hempty, hparts, List.map_cons, List.map_cons] at h
      unfold walk at h
      obtain ⟨found, w₁, -, h⟩ := bind_eq_ok_iff.mp h
      cases found with
      | none => cases h
      | some v => exact walk_of_value impl _ h
    · rw [locate_of_plain impl hdots hempty] at h
      cases h
      exact Or.inl ⟨hdots, hempty, rfl, rfl⟩

/-- Looking up the spellings of a name in a scope changes nothing and gives the
first one that is bound. -/
theorem runFrom_firstMember_scope (scope : ScopeId) (names : List String) (w : World ω) :
    runFrom (firstMember impl (.scope scope) names) w =
      (.ok (names.findSome? (named? (w.bindings scope))), w) := by
  induction names with
  | nil => rfl
  | cons name names ih =>
      have hread : runFrom (memberAs impl (.scope scope) name) w =
          (.ok (named? (w.bindings scope) name), w) := rfl
      unfold firstMember
      rw [runFrom_bind_of_ok hread, List.findSome?_cons]
      cases named? (w.bindings scope) name with
      | none => exact ih
      | some v => rfl

/-- A name without dots leads to the first of its spellings that is bound. -/
theorem runFrom_lookup_plain {name : String} (hdots : '.' ∉ name.toList) (hname : name ≠ "")
    (scope : ScopeId) (w : World ω) :
    runFrom (lookup impl scope name) w =
      (.ok (match (Name.spellings name).findSome? (named? (w.bindings scope)) with
        | some v => ⟨classify impl w.store name v, .scope scope, name, v⟩
        | none => ⟨.missing, .scope scope, name, .null⟩), w) := by
  unfold lookup member
  rw [runFrom_bind, locate_of_plain impl hdots hname]
  dsimp only
  rw [runFrom_bind, runFrom_firstMember_scope]
  cases (Name.spellings name).findSome? (named? (w.bindings scope)) with
  | none => rfl
  | some v => rfl

/-- The value at a path without dots, which has to be there. -/
theorem runFrom_get_plain {name : String} (hdots : '.' ∉ name.toList) (hname : name ≠ "")
    (scope : ScopeId) (w : World ω) :
    runFrom (get impl scope name) w =
      match (Name.spellings name).findSome? (named? (w.bindings scope)) with
      | some v => (.ok v, w)
      | none => (.error (.unbound name), w) := by
  unfold get member
  rw [runFrom_bind, locate_of_plain impl hdots hname]
  dsimp only
  rw [runFrom_bind, runFrom_firstMember_scope]
  cases (Name.spellings name).findSome? (named? (w.bindings scope)) with
  | none => rfl
  | some v => rfl

/-- A value that is there is not missing. -/
theorem classify_ne_missing (store : Store ω) (name : String) (v : Value) :
    classify impl store name v ≠ .missing := by
  unfold classify
  split
  · exact nofun
  · split
    · exact nofun
    · exact nofun

/-- The first spelling of a name is the name itself. -/
theorem findSome?_spellings_of_bound {name : String} {bindings : Bindings} {v : Value}
    (h : named? bindings name = some v) :
    (Name.spellings name).findSome? (named? bindings) = some v := by
  unfold Name.spellings
  split <;> rw [List.findSome?_cons, h]

/-- A name without dots that is bound is read as it stands. -/
theorem get_of_bound {scope : ScopeId} {name : String} {w : World ω} {v : Value}
    (hdots : '.' ∉ name.toList) (hname : name ≠ "") (h : named? (w.bindings scope) name = some v) :
    runFrom (get impl scope name) w = (.ok v, w) := by
  rw [runFrom_get_plain impl hdots hname, findSome?_spellings_of_bound h]

/-- The empty name is no constant. -/
theorem ne_empty_of_isConstant {name : String} (h : Name.isConstant name = true) : name ≠ "" := by
  intro heq
  obtain rfl := heq
  cases h

/-- **A bound constant of a scope is not bound again**, and the attempt changes
nothing. -/
theorem assign_bound_constant {name : String} {scope : ScopeId} {w : World ω}
    (hconstant : Name.isConstant name = true) (hdots : '.' ∉ name.toList)
    (hbound : (named? (w.bindings scope) name).isSome = true) (v : Value) :
    runFrom (assign impl scope name v) w = (.error (.constantReassigned name), w) := by
  have hcheck : runFrom (isBoundConstant impl (.scope scope) name) w = (.ok true, w) := by
    rw [runFrom_isBoundConstant, if_pos hconstant]
    change (Except.ok (named? (w.bindings scope) name).isSome, w) = _
    rw [hbound]
  rw [assign_stages, locate_of_plain impl hdots (ne_empty_of_isConstant hconstant)]
  dsimp only
  rw [hcheck]

/-- **A name without dots that is no bound constant** is set in the scope. -/
theorem assign_plain {name : String} {scope : ScopeId} {w : World ω} (hdots : '.' ∉ name.toList)
    (hname : name ≠ "")
    (hfree : Name.isConstant name = true → named? (w.bindings scope) name = none) (v : Value) :
    ∃ log, runFrom (assign impl scope name v) w =
      (.ok (), { w with
        scopes := w.scopes.setIfInBounds scope (setNamed (w.bindings scope) name v)
        log }) := by
  have hcheck : runFrom (isBoundConstant impl (.scope scope) name) w = (.ok false, w) := by
    rw [runFrom_isBoundConstant]
    by_cases hconstant : Name.isConstant name = true
    · rw [if_pos hconstant]
      change (Except.ok (named? (w.bindings scope) name).isSome, w) = _
      rw [hfree hconstant]
      rfl
    · rw [if_neg hconstant]
  rw [assign_stages, locate_of_plain impl hdots hname]
  dsimp only
  rw [hcheck]
  exact ⟨_, rfl⟩

end Scope

end Conformance
