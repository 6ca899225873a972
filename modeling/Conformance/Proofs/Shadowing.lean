import Conformance.Proofs.ReadBack

/-!
# Members that are shadowed

A lookup finds a member under the name as written or under its spelling with underscores;
an assignment writes the name as it stands.  So an assignment updates the member that a
lookup finds exactly if it is there under the name as written.  Otherwise the owner gets
a further member, which lookups find from then on, and the one that they found before
keeps its value (`assigned_member_iff`).

Names of digits are the exception to "one name, one member": a list has one item under
all numerals of an index, so that what is said of members of lists is that they are
there, not that they stay the same.
-/

namespace Conformance.Scope

variable {ω : Type} {impl : Implementation ω} {looksAt : ω → Loc → Prop} {scope : ScopeId}
  {path name other : String} {owner : Owner} {old u v : Value} {w w' : World ω}

/-- The owner has a member under the name as written. -/
def Has (impl : Implementation ω) (w : World ω) (owner : Owner) (name : String) : Prop :=
  ∃ v, (runFrom (memberAs impl owner name) w).1 = .ok (some v)

/-! ## Other members -/

/-- **Other members keep their values**, unless they are items of a list. -/
theorem memberAs_other (h : impl.SeparatesAttributes looksAt) (hin : owner.IsIn w)
    (hset : runFrom (write impl owner name v) w = (.ok (), w')) (hne : other ≠ name)
    (hlist : ∀ location, owner ≠ .value (.list location)) :
    (runFrom (memberAs impl owner other) w').1 = (runFrom (memberAs impl owner other) w).1 := by
  cases write_ok hset with
  | scope id =>
      have hbindings := World.bindings_set w id id (setNamed (w.bindings id) name v)
      rw [if_pos ⟨rfl, hin⟩] at hbindings
      refine (congrArg (fun b => Except.ok (named? b other)) hbindings).trans ?_
      exact congrArg Except.ok (named?_setNamed_of_ne _ v hne.symm)
  | entry location =>
      obtain ⟨entries, hcell⟩ := hin
      have hentries := Store.entries_put_self (Store.lt_of_get? hcell)
        (Entries.set (w.store.entries location) (.str name) v)
      refine (congrArg (fun e => Except.ok (Entries.find? e (.str other))) hentries).trans ?_
      rw [Entries.find?_set, if_neg fun hsame => hne (Key.str_same_iff.mp hsame).symm]
      rfl
  | item => exact absurd rfl (hlist _)
  | @object location o store hobject hwrite =>
      obtain ⟨o', rfl, -⟩ := h.written location o name v _ _ hobject hwrite
      have hothers := h.others location o o' name other v _ hobject hwrite hne
      have hcell := Store.get?_put_self (Store.lt_of_get? hobject) (.object o')
      refine (objectAttribute_fst location other _).trans
        (Eq.trans ?_ (objectAttribute_fst location other w).symm)
      simp only [hcell, hobject, hothers]
  | @hook location scope function attributes hhook =>
      have hcell := Store.get?_put_self (Store.lt_of_get? hhook)
        (.hook scope function (setNamed attributes name v))
      refine (objectAttribute_fst location other _).trans
        (Eq.trans ?_ (objectAttribute_fst location other w).symm)
      simp only [hcell, hhook, named?_setNamed_of_ne _ v hne.symm]
  | @mark marker =>
      have hmarks : (w.store.mark marker name v).marks marker =
          setNamed (w.store.marks marker) name v := if_pos rfl
      change Except.ok (markerAttribute? (w.store.mark marker name v) marker other) =
        Except.ok (markerAttribute? w.store marker other)
      unfold markerAttribute?
      rw [hmarks, named?_setNamed_of_ne _ v hne.symm]

/-- An item that was set was there before. -/
theorem has_of_list {location : Loc}
    (hset : runFrom (write impl (.value (.list location)) name v) w = (.ok (), w')) :
    Has impl w (.value (.list location)) name := by
  cases write_ok hset with
  | @item _ i items hindex hi hlt hcell =>
      refine ⟨items[i], ?_⟩
      have hitems : w.store.items location = items := by
        unfold Store.items
        rw [hcell]
      unfold memberAs
      dsimp only
      rw [if_pos hindex]
      refine (congrArg (fun items => itemAt items name) hitems).trans ?_
      unfold itemAt
      rw [hi]
      simp [hlt]

/-- A list has the same members as before. -/
theorem has_list_iff {location : Loc}
    (hset : runFrom (write impl (.value (.list location)) name v) w = (.ok (), w')) :
    Has impl w' (.value (.list location)) other ↔ Has impl w (.value (.list location)) other := by
  cases write_ok hset with
  | @item _ i items hindex hi hlt hcell =>
      have hitems : w.store.items location = items := by
        unfold Store.items
        rw [hcell]
      have hitems' := Store.items_put_self (Store.lt_of_get? hcell) (items.set i v)
      unfold Has memberAs
      dsimp only
      split
      · change (∃ u, itemAt ((w.store.put location _).items location) other = _) ↔
          ∃ u, itemAt (w.store.items location) other = _
        rw [hitems, hitems']
        unfold itemAt
        split
        · simp
        · next j _ =>
            by_cases hj : j < items.length
            · simp [hj]
            · simp [hj]
      · exact Iff.rfl

/-! ## The member that a lookup finds -/

/-- A lookup finds a member under the name as written, or under its other spelling. -/
theorem member_cases (h : impl.KeepsAttributes looksAt)
    (hmember : (runFrom (member impl owner name) w).1 = .ok (some u)) :
    (runFrom (memberAs impl owner name) w).1 = .ok (some u) ∨
      (¬ Has impl w owner name ∧ Name.snakeize name ≠ name ∧
        (runFrom (memberAs impl owner (Name.snakeize name)) w).1 = .ok (some u)) := by
  have hfirst : ∀ rest, (runFrom (firstMember impl owner (name :: rest)) w).1 = .ok (some u) →
      (runFrom (memberAs impl owner name) w).1 = .ok (some u) ∨
        (¬ Has impl w owner name ∧ (runFrom (firstMember impl owner rest) w).1 = .ok (some u)) := by
    intro rest hrest
    unfold firstMember at hrest
    rw [runFrom_bind, runFrom_memberAs h] at hrest
    rcases hwritten : (runFrom (memberAs impl owner name) w).1 with fault | _ | u'
    · rw [hwritten] at hrest
      cases hrest
    · rw [hwritten] at hrest
      refine Or.inr ⟨?_, hrest⟩
      rintro ⟨u', hu'⟩
      rw [hwritten] at hu'
      cases hu'
    · rw [hwritten] at hrest
      exact Or.inl hrest
  unfold member Name.spellings at hmember
  split at hmember
  · next hspelled =>
      rw [Bool.and_eq_true] at hspelled
      rcases hfirst _ hmember with hwritten | ⟨hnone, hrest⟩
      · exact Or.inl hwritten
      · refine Or.inr ⟨hnone, by simpa using hspelled.2, ?_⟩
        unfold firstMember at hrest
        rw [runFrom_bind, runFrom_memberAs h] at hrest
        rcases hsnake : (runFrom (memberAs impl owner (Name.snakeize name)) w).1 with
          fault | _ | u'
        · rw [hsnake] at hrest
          cases hrest
        · rw [hsnake] at hrest
          cases hrest
        · rw [hsnake] at hrest
          exact hrest
  · rcases hfirst _ hmember with hwritten | ⟨-, hrest⟩
    · exact Or.inl hwritten
    · cases hrest

/-- A path that leads to a value has it as a member of its owner. -/
theorem member_of_get (h : impl.KeepsAttributes looksAt)
    (hlocated : (runFrom (locate impl scope path) w).1 = .ok (owner, name))
    (hgot : (runFrom (get impl scope path) w).1 = .ok u) :
    (runFrom (member impl owner name) w).1 = .ok (some u) := by
  unfold get at hgot
  rw [runFrom_bind, runFrom_locate h, hlocated] at hgot
  dsimp only at hgot
  rw [runFrom_bind] at hgot
  rcases hmember : runFrom (member impl owner name) w with ⟨fault | _ | u', w₁⟩
  · rw [hmember] at hgot
    cases hgot
  · rw [hmember] at hgot
    cases hgot
  · rw [hmember] at hgot
    cases hgot
    rfl

/-- **What an assignment updates.**  Of a path that leads to a value, the last name is
bound again.  The owner has the same members as before exactly if it had one under the
name as written, and then that member is the one that the path led to, and it has the
value now.  If it had none, it has one more, which has the value, and the member that
the path led to, under its spelling with underscores, keeps the value it had. -/
theorem assigned_member_iff (impl : Implementation ω) (h : impl.SeparatesAttributes looksAt)
    (hlocated : (runFrom (locate impl scope path) w).1 = .ok (owner, name)) (hin : owner.IsIn w)
    (hgot : (runFrom (get impl scope path) w).1 = .ok old)
    (hassigned : runFrom (assign impl scope path v) w = (.ok (), w'))
    (hread : owner.CanRead impl w' name) :
    ((∀ n, Has impl w' owner n ↔ Has impl w owner n) ↔ Has impl w owner name) ∧
    (runFrom (memberAs impl owner name) w').1 = .ok (some v) ∧
    (Has impl w owner name → (runFrom (memberAs impl owner name) w).1 = .ok (some old)) ∧
    (¬ Has impl w owner name →
      Name.snakeize name ≠ name ∧
      (runFrom (memberAs impl owner (Name.snakeize name)) w).1 = .ok (some old) ∧
      (runFrom (memberAs impl owner (Name.snakeize name)) w').1 = .ok (some old) ∧
      ∀ n, Has impl w' owner n ↔ n = name ∨ Has impl w owner n) := by
  have hkeeps := h.toKeepsAttributes
  obtain ⟨w₁, hset, hstate⟩ := assign_writes hkeeps hlocated hassigned
  have hwritten := assign_member hkeeps hlocated hassigned hin hread
  have hcases := member_cases hkeeps (member_of_get hkeeps hlocated hgot)
  have hsame : ∀ n, (runFrom (memberAs impl owner n) w').1 =
      (runFrom (memberAs impl owner n) w₁).1 :=
    fun n => fst_eq_of_sameState (memberAs_kept Agree.composes.keeps.looks owner n) hstate
  have hothers : ∀ n, n ≠ name → (Has impl w' owner n ↔ Has impl w owner n) := by
    intro n hne
    unfold Has
    rw [hsame]
    by_cases hlist : ∃ location, owner = .value (.list location)
    · obtain ⟨location, rfl⟩ := hlist
      exact has_list_iff hset
    · rw [memberAs_other h hin hset hne fun location heq => hlist ⟨location, heq⟩]
  refine ⟨⟨fun hall => (hall name).mp ⟨v, hwritten⟩, fun hhas n => ?_⟩, hwritten, ?_, ?_⟩
  · by_cases hn : n = name
    · subst hn
      exact iff_of_true ⟨v, hwritten⟩ hhas
    · exact hothers n hn
  · intro hhas
    rcases hcases with hold | ⟨hnone, -⟩
    · exact hold
    · exact absurd hhas hnone
  · intro hnone
    rcases hcases with hold | ⟨-, hsnake, hold⟩
    · exact absurd ⟨old, hold⟩ hnone
    · have hlist : ∀ location, owner ≠ .value (.list location) := by
        intro location heq
        subst heq
        exact hnone (has_of_list hset)
      refine ⟨hsnake, hold, ?_, fun n => ?_⟩
      · rw [hsame, memberAs_other h hin hset hsnake hlist]
        exact hold
      · by_cases hn : n = name
        · subst hn
          exact iff_of_true ⟨v, hwritten⟩ (Or.inl rfl)
        · rw [hothers n hn]
          simp [hn]

/-! ### A name with underscores -/

/-- A scope with one name, which has an underscore. -/
def underscoredWorld : World Sample.Object :=
  { World.ofStore Sample.initialStore with scopes := #[[("foo_bar", .int 1)]] }

theorem snakeize_fooBar : Name.snakeize "fooBar" = "foo_bar" := by decide +kernel

theorem underscored_read :
    runFrom (get (Sample.implementation []) 0 "fooBar") underscoredWorld =
      (.ok (.int 1), underscoredWorld) := rfl

/-- The name as written is bound behind the other. -/
theorem underscored_assigned : ∃ log,
    runFrom (assign (Sample.implementation []) 0 "fooBar" (.int 2)) underscoredWorld =
      (.ok (), { underscoredWorld with
        scopes := #[[("foo_bar", .int 1), ("fooBar", .int 2)]], log }) := ⟨_, rfl⟩

/-- Assigning a path that leads to a value may add a member. -/
theorem assign_not_always_updates :
    ¬ ∀ (ω : Type) (impl : Implementation ω) (scope : ScopeId) (path name : String) (owner : Owner)
      (old v : Value) (w w' : World ω),
      (runFrom (locate impl scope path) w).1 = .ok (owner, name) →
      (runFrom (get impl scope path) w).1 = .ok old →
      runFrom (assign impl scope path v) w = (.ok (), w') →
      ∀ n, Has impl w' owner n ↔ Has impl w owner n := by
  intro hall
  obtain ⟨log, hassigned⟩ := underscored_assigned
  have hsame := hall _ _ 0 "fooBar" "fooBar" (.scope 0) (.int 1) (.int 2) _ _ rfl
    (congrArg Prod.fst underscored_read) hassigned "fooBar"
  obtain ⟨u, hu⟩ := hsame.mp ⟨.int 2, rfl⟩
  cases hu

/-- The name with an underscore keeps its value, and the scope has one more name. -/
theorem underscored_shadowed : ∃ w',
    runFrom (assign (Sample.implementation []) 0 "fooBar" (.int 2)) underscoredWorld = (.ok (), w') ∧
      (runFrom (memberAs (Sample.implementation []) (.scope 0) "fooBar") w').1 =
        .ok (some (.int 2)) ∧
      (runFrom (memberAs (Sample.implementation []) (.scope 0) "foo_bar") w').1 =
        .ok (some (.int 1)) ∧
      ∀ n, Has (Sample.implementation []) w' (.scope 0) n ↔
        n = "fooBar" ∨ Has (Sample.implementation []) underscoredWorld (.scope 0) n := by
  obtain ⟨log, hassigned⟩ := underscored_assigned
  have hscope : (Owner.scope 0).IsIn underscoredWorld := by
    change 0 < 1
    decide
  have hnone : ¬ Has (Sample.implementation []) underscoredWorld (.scope 0) "fooBar" := by
    rintro ⟨u, hu⟩
    cases hu
  have hlocated : (runFrom (locate (Sample.implementation []) 0 "fooBar") underscoredWorld).1 =
      .ok (.scope 0, "fooBar") := rfl
  obtain ⟨-, hwritten, -, hshadowed⟩ := assigned_member_iff (Sample.implementation [])
    (Sample.implementation_separatesAttributes []) hlocated hscope
    (congrArg Prod.fst underscored_read) hassigned nofun
  obtain ⟨-, -, hold, hmembers⟩ := hshadowed hnone
  rw [snakeize_fooBar] at hold
  exact ⟨_, hassigned, hwritten, hold, hmembers⟩

end Conformance.Scope
