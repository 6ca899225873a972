import Conformance.Proofs.Oblivious
import Conformance.Proofs.WrittenMember

/-!
# What was assigned is read back

An assignment writes the name as it stands, and a lookup tries that spelling first; both
classify their owner by its kind.  So the path of an assignment leads to the value from
then on, as long as the walk still comes to the owner that was written: this it does if
no owner on the way reads where the write went.  An owner that is met twice on one path
does, and so does an object whose attributes are looked up in the owner as well, such as
an instance whose class is written.
-/

namespace Conformance.Scope

variable {ω : Type} {impl : Implementation ω} {looksAt : ω → Loc → Prop} {scope : ScopeId}
  {path name : String} {owner : Owner} {v : Value} {w w' : World ω}

theorem fst_eq_of_sameState {α : Type} {step : Exec ω α} (h : Agree step step)
    (hstate : SameState w w') : (runFrom step w').1 = (runFrom step w).1 :=
  (resultRel_eq_iff.mp (h w w' hstate).1).symm

/-! ## The write of an assignment -/

section Assigned

variable (h : impl.KeepsAttributes looksAt)
  (hlocated : (runFrom (locate impl scope path) w).1 = .ok (owner, name))
  (hassigned : runFrom (assign impl scope path v) w = (.ok (), w'))
include h hlocated hassigned

/-- The assignment wrote where its path led, in the world it started in. -/
theorem assign_writes :
    ∃ w₁, runFrom (write impl owner name v) w = (.ok (), w₁) ∧ SameState w₁ w' := by
  obtain ⟨owner', name', w₁, w₂, w₃, log, hfound, hfree, hset, rfl⟩ := assign_ok impl hassigned
  rw [runFrom_locate h, hlocated] at hfound
  cases hfound
  rw [runFrom_isBoundConstant_eq h] at hfree
  obtain ⟨-, rfl⟩ := Prod.mk.inj hfree
  exact ⟨w₃, hset, rfl, rfl⟩

/-- It changed the seat of the owner alone. -/
theorem assign_seat : ∃ seat, owner.seat? = some seat ∧ AgreeBut seat w w' := by
  obtain ⟨w₁, hset, hstate⟩ := assign_writes h hlocated hassigned
  obtain ⟨seat, hseat, hagree⟩ := write_seat h hset
  refine ⟨seat, hseat, ?_, ?_, ?_⟩
  · exact fun id hne => (hstate.bindings_eq id).symm.trans (hagree.bindings id hne)
  · intro location hne
    rw [← hstate.store]
    exact hagree.cell location hne
  · intro marker hne
    rw [← hstate.store]
    exact hagree.marks marker hne

/-- The member under the name as written now is the value. -/
theorem assign_member (hin : owner.IsIn w) (hread : owner.CanRead impl w' name) :
    (runFrom (memberAs impl owner name) w').1 = .ok (some v) := by
  obtain ⟨w₁, hset, hstate⟩ := assign_writes h hlocated hassigned
  have hread' : owner.CanRead impl w₁ name := by
    unfold Owner.CanRead at hread ⊢
    rw [hstate.store]
    exact hread
  rw [fst_eq_of_sameState (memberAs_kept Agree.composes.keeps.looks owner name) hstate]
  exact memberAs_written h hin hset hread'

end Assigned

/-! ## Reading back -/

/-- The member under the name as written is the first that is looked for. -/
theorem firstMember_spellings (h : impl.KeepsAttributes looksAt)
    (hmember : (runFrom (memberAs impl owner name) w).1 = .ok (some v)) :
    runFrom (member impl owner name) w = (.ok (some v), w) := by
  have hfirst : ∀ rest, runFrom (firstMember impl owner (name :: rest)) w = (.ok (some v), w) := by
    intro rest
    unfold firstMember
    rw [runFrom_bind, runFrom_memberAs h, hmember]
    rfl
  unfold member Name.spellings
  split
  · exact hfirst _
  · exact hfirst _

/-! ## Names without dots -/

/-- A path without dots sets its name in the scope. -/
theorem bindings_of_assign (hassigned : runFrom (assign impl scope path v) w = (.ok (), w'))
    (hdots : '.' ∉ path.toList) (hscope : scope < w.scopes.size) :
    w'.bindings scope = setNamed (w.bindings scope) path v := by
  obtain ⟨owner, name, w₁, w₂, w₃, log, hfound, hfree, hset, rfl⟩ := assign_ok impl hassigned
  rcases locate_cases impl hfound with ⟨-, hname, rfl, rfl⟩ | ⟨hmem, -⟩
  · rw [locate_of_plain impl hdots hname] at hfound
    cases hfound
    have hkept : w₂ = w := by
      rw [runFrom_isBoundConstant] at hfree
      split at hfree
      · change (Except.ok (named? (w.bindings scope) name).isSome, w) = _ at hfree
        exact (Prod.mk.inj hfree).2.symm
      · exact (Prod.mk.inj hfree).2.symm
    subst hkept
    cases hset
    exact (World.bindings_set w₂ scope scope _).trans (if_pos ⟨rfl, hscope⟩)
  · exact absurd hmem hdots

/-- Setting a name is seen by the names that have it as a spelling only. -/
theorem get_of_unspelled {other : String}
    (hbindings : w'.bindings scope = setNamed (w.bindings scope) name v)
    (hplain : '.' ∉ other.toList) (hne : other ≠ name) (hsnake : Name.snakeize other ≠ name) :
    (runFrom (get impl scope other) w').1 = (runFrom (get impl scope other) w).1 := by
  by_cases hempty : other = ""
  · subst hempty
    rfl
  · have hsame : (Name.spellings other).findSome? (named? (w'.bindings scope)) =
        (Name.spellings other).findSome? (named? (w.bindings scope)) := by
      have hself := named?_setNamed_of_ne (w.bindings scope) v hne.symm
      have hspelled := named?_setNamed_of_ne (w.bindings scope) v hsnake.symm
      rw [hbindings]
      unfold Name.spellings
      split
      · simp only [List.findSome?_cons, List.findSome?_nil, hself, hspelled]
      · simp only [List.findSome?_cons, List.findSome?_nil, hself]
    rw [runFrom_get_plain impl hplain hempty, runFrom_get_plain impl hplain hempty, hsame]
    split <;> rfl

/-- **What was assigned is read back.**  After an assignment that ended well, its path
leads to the value that was assigned, if the attribute that was set can be read and no
owner that the path passes reads where the write went.  Of the names of the scope, a path
without dots is there, at the end if it is new; and a name without dots that is not the
path under one of its spellings leads to what it led to. -/
theorem assigned_reads_back (impl : Implementation ω)
    (hassigned : runFrom (assign impl scope path v) w = (.ok (), w')) :
    (∀ looksAt owner name, impl.KeepsAttributes looksAt →
      (runFrom (locate impl scope path) w).1 = .ok (owner, name) → owner.IsIn w →
      owner.CanRead impl w' name →
      (∀ met, IsMet impl w scope path met →
        ∀ seat, owner.seat? = some seat → met.ReadsElsewhere looksAt w seat) →
      runFrom (get impl scope path) w' = (.ok v, w') ∧
      runFrom (lookup impl scope path) w' =
        (.ok ⟨classify impl w'.store name v, owner, name, v⟩, w')) ∧
    ('.' ∉ path.toList → scope < w.scopes.size →
      (∀ all, runFrom (names scope) w = (.ok all, w) →
        runFrom (names scope) w' = (.ok (if path ∈ all then all else all ++ [path]), w')) ∧
      ∀ other, '.' ∉ other.toList → other ≠ path → Name.snakeize other ≠ path →
        (runFrom (get impl scope other) w').1 = (runFrom (get impl scope other) w).1) := by
  constructor
  · intro looksAt owner name h hlocated hin hread hmet
    obtain ⟨seat, hseat, hagree⟩ := assign_seat h hlocated hassigned
    have hlocated' : runFrom (locate impl scope path) w' = (.ok (owner, name), w') := by
      rw [runFrom_locate h, locate_agree h hagree fun met hon => hmet met hon seat hseat, hlocated]
    have hmember := firstMember_spellings h (assign_member h hlocated hassigned hin hread)
    constructor
    · unfold get
      rw [runFrom_bind_of_ok hlocated']
      dsimp only
      rw [runFrom_bind_of_ok hmember]
      rfl
    · unfold lookup
      rw [runFrom_bind_of_ok hlocated']
      dsimp only
      rw [runFrom_bind_of_ok hmember]
      rfl
  · intro hdots hscope
    have hbindings := bindings_of_assign hassigned hdots hscope
    constructor
    · intro all hall
      cases hall
      change (Except.ok ((w'.bindings scope).map (·.1)), w') = _
      rw [hbindings, names_setNamed]
    · exact fun other hplain hne hsnake => get_of_unspelled hbindings hplain hne hsnake

/-! ### A class that is an attribute of its instance -/

/-- A class with some attributes, and an instance of it that has the class itself as an
attribute. -/
def classWorld (attributes : List (String × Value)) (log : Array Record) : World Sample.Object :=
  { World.ofStore ⟨#[.object (.class_ .counter attributes),
      .object (.instance_ .counter [("foo_bar", .object 0)])], fun _ => []⟩ with
    scopes := #[[("C", .object 0), ("a", .object 1)]]
    log }

/-- The class with the attribute that the assignment sets. -/
def shadedWorld (log : Array Record) : World Sample.Object := classWorld [("fooBar", .int 5)] log

theorem pathNames_shaded : pathNames "a.fooBar.fooBar" = ["a", "fooBar", "fooBar"] := by
  decide +kernel

/-- The path leads to what the instance has under its second name. -/
theorem locate_shaded {attributes : List (String × Value)} {log : Array Record} {u : Value}
    (hmember : runFrom (member (Sample.implementation []) (.value (.object 1)) "fooBar")
      (classWorld attributes log) = (.ok (some u), classWorld attributes log)) :
    runFrom (locate (Sample.implementation []) 0 "a.fooBar.fooBar") (classWorld attributes log) =
      (.ok (.value u, "fooBar"), classWorld attributes log) := by
  have hinstance : runFrom (member (Sample.implementation []) (.scope 0) "a")
      (classWorld attributes log) = (.ok (some (.object 1)), classWorld attributes log) := rfl
  unfold locate
  rw [if_neg (by decide), pathNames_shaded]
  unfold walk
  rw [runFrom_bind_of_ok hinstance]
  unfold walk
  dsimp only
  rw [runFrom_bind_of_ok hmember]
  rfl

theorem shaded_located :
    runFrom (locate (Sample.implementation []) 0 "a.fooBar.fooBar") (classWorld [] #[]) =
      (.ok (.value (.object 0), "fooBar"), classWorld [] #[]) :=
  locate_shaded rfl

theorem shaded_assigned : ∃ log,
    runFrom (assign (Sample.implementation []) 0 "a.fooBar.fooBar" (.int 5)) (classWorld [] #[]) =
      (.ok (), shadedWorld log) := ⟨_, rfl⟩

/-- The first two names of the path now lead to the value, which the instance has from
its class. -/
theorem shaded_relocated (log : Array Record) :
    runFrom (locate (Sample.implementation []) 0 "a.fooBar.fooBar") (shadedWorld log) =
      (.ok (.value (.int 5), "fooBar"), shadedWorld log) := by
  have hkeeps := (Sample.implementation_separatesAttributes []).toKeepsAttributes
  exact locate_shaded (firstMember_spellings hkeeps rfl)

theorem shaded_unbound (log : Array Record) :
    (runFrom (get (Sample.implementation []) 0 "a.fooBar.fooBar") (shadedWorld log)).1 =
      .error (.unbound "a.fooBar.fooBar") := by
  have hnone : runFrom (member (Sample.implementation []) (.value (.int 5)) "fooBar")
      (shadedWorld log) = (.ok none, shadedWorld log) := rfl
  unfold get
  rw [runFrom_bind_of_ok (shaded_relocated log)]
  dsimp only
  rw [runFrom_bind_of_ok hnone]
  rfl

/-- The path passes the scope and the instance. -/
theorem shaded_met {met : Owner}
    (hmet : IsMet (Sample.implementation []) (classWorld [] #[]) 0 "a.fooBar.fooBar" met) :
    met = .scope 0 ∨ met = .value (.object 1) := by
  unfold IsMet at hmet
  rw [pathNames_shaded] at hmet
  cases hmet with
  | here => exact Or.inl rfl
  | later hfound hlater =>
      cases hfound
      cases hlater with
      | here => exact Or.inr rfl
      | later _ hlater => cases hlater

/-- It is not enough that the owner is not met earlier on the path. -/
theorem assigned_not_always_read_back :
    ¬ ∀ (ω : Type) (impl : Implementation ω) (looksAt : ω → Loc → Prop) (scope : ScopeId)
      (path name : String) (owner : Owner) (v : Value) (w w' : World ω),
      impl.KeepsAttributes looksAt →
      (runFrom (locate impl scope path) w).1 = .ok (owner, name) → owner.IsIn w →
      runFrom (assign impl scope path v) w = (.ok (), w') → owner.CanRead impl w' name →
      (∀ met, IsMet impl w scope path met → met.seat? ≠ owner.seat?) →
      runFrom (get impl scope path) w' = (.ok v, w') := by
  intro hall
  obtain ⟨log, hassigned⟩ := shaded_assigned
  have hread : (Owner.value (.object 0)).CanRead (Sample.implementation []) (shadedWorld log)
      "fooBar" := by
    intro location o howner hobject
    cases howner
    cases hobject
    exact ⟨.int 5, rfl⟩
  have hapart : ∀ met, IsMet (Sample.implementation []) (classWorld [] #[]) 0 "a.fooBar.fooBar" met →
      met.seat? ≠ (Owner.value (.object 0)).seat? := by
    intro met hmet
    rcases shaded_met hmet with rfl | rfl
    · exact nofun
    · exact fun heq => nomatch heq
  have hget := hall _ _ _ 0 "a.fooBar.fooBar" "fooBar" (.value (.object 0)) (.int 5) _ _
    (Sample.implementation_separatesAttributes []).toKeepsAttributes
    (congrArg Prod.fst shaded_located) trivial hassigned hread hapart
  have herror := shaded_unbound log
  rw [hget] at herror
  cases herror

/-- Set by the name of the class, the attribute is read back; and a name that is new is
the last one of the scope. -/
theorem class_attribute_read_back :
    (∃ log, runFrom (assign (Sample.implementation []) 0 "C.fooBar" (.int 5)) (classWorld [] #[]) =
        (.ok (), shadedWorld log) ∧
      runFrom (get (Sample.implementation []) 0 "C.fooBar") (shadedWorld log) =
        (.ok (.int 5), shadedWorld log)) ∧
    ∃ w', runFrom (assign (Sample.implementation []) 0 "b" (.int 5)) (classWorld [] #[]) =
        (.ok (), w') ∧
      runFrom (names 0) w' = (.ok ["C", "a", "b"], w') := by
  constructor
  · obtain ⟨log, hassigned⟩ : ∃ log, runFrom (assign (Sample.implementation []) 0 "C.fooBar"
        (.int 5)) (classWorld [] #[]) = (.ok (), shadedWorld log) := ⟨_, rfl⟩
    have hread : (Owner.value (.object 0)).CanRead (Sample.implementation []) (shadedWorld log)
        "fooBar" := by
      intro location o howner hobject
      cases howner
      cases hobject
      exact ⟨.int 5, rfl⟩
    have hmet : ∀ met, IsMet (Sample.implementation []) (classWorld [] #[]) 0 "C.fooBar" met →
        ∀ seat, (Owner.value (.object 0)).seat? = some seat →
          met.ReadsElsewhere Sample.looksAt (classWorld [] #[]) seat := by
      intro met hmet seat hseat
      have hnames : pathNames "C.fooBar" = ["C", "fooBar"] := by decide +kernel
      unfold IsMet at hmet
      rw [hnames] at hmet
      cases hseat
      cases hmet with
      | here => exact ⟨nofun, nofun⟩
      | later _ hlater => cases hlater
    have hboth := (assigned_reads_back (Sample.implementation []) hassigned).1 Sample.looksAt
      (.value (.object 0)) "fooBar"
      (Sample.implementation_separatesAttributes []).toKeepsAttributes rfl trivial hread hmet
    exact ⟨log, hassigned, hboth.1⟩
  · obtain ⟨log, hassigned⟩ := @assign_plain _ (Sample.implementation []) "b" 0 (classWorld [] #[])
      (by decide) (by decide) (fun _ => rfl) (.int 5)
    refine ⟨_, hassigned, ?_⟩
    exact ((assigned_reads_back (Sample.implementation []) hassigned).2 (by decide) (by decide)).1
      ["C", "a"] rfl

end Conformance.Scope
