import Conformance.Proofs.Attributes
import Conformance.Proofs.Lookups
import Conformance.Proofs.Sameness

/-!
# What a write changes

The members of an owner are kept in one seat: in the bindings of a scope, in a cell, or
with the attributes set on a marker.  `Written` lists the worlds that a write to each kind
of owner leaves, if it ends well.  It changes the seat of its owner and nothing else
(`write_seat`), and the member that was written then reads as the value
(`memberAs_written`).  Reading a member looks at the seat of its owner, and for an object
of the implementation at the cells that the object looks at; so a write is not seen in
owners that read elsewhere (`memberAs_agree`), nor by a walk that meets such owners only
(`walk_agree`).
-/

namespace Conformance

/-! ## Entries -/

/-- Texts are the same keys if they are the same texts. -/
theorem Key.str_same_iff {a b : String} : (Key.str a).same (Key.str b) = true ↔ a = b := by
  change (Scalar.str a).same (.str b) = true ↔ a = b
  rw [Scalar.same_iff]
  simp [Scalar.essence]

/-- The value of a key after one was set. -/
theorem Entries.find?_set {α : Type} (entries : Entries α) (key other : Key) (v : α) :
    Entries.find? (Entries.set entries key v) other =
      if key.same other then some v else Entries.find? entries other := by
  induction entries with
  | nil =>
      unfold set find?
      by_cases h : key.same other = true <;> simp [h]
  | cons e rest ih =>
      obtain ⟨k, u⟩ := e
      unfold set
      by_cases hkey : k.same key = true
      · rw [if_pos hkey]
        have hsame := Key.same_congr hkey other
        unfold find?
        by_cases h : key.same other = true
        · simp [h, hsame.trans h]
        · simp [h, hsame]
      · rw [if_neg hkey]
        unfold find? at ih ⊢
        by_cases hother : k.same other = true
        · have hnot : ¬ key.same other = true := fun h =>
            hkey (Key.same_trans hother (Key.same_symm h))
          simp [hother, hnot]
        · simpa [hother] using ih

variable {ω : Type} {impl : Implementation ω} {looksAt : ω → Loc → Prop}

/-! ## Seats -/

/-- Where members are kept. -/
inductive Seat
  | scope (id : ScopeId)
  | cell (location : Loc)
  | marks (marker : Sentinel)

namespace Owner

/-- Where the members of an owner are kept, if they can change. -/
def seat? : Owner → Option Seat
  | .scope id => some (.scope id)
  | .value (.map location) | .value (.list location) | .value (.object location) =>
    some (.cell location)
  | .value (.scalar (.sentinel marker)) => some (.marks marker)
  | .value _ => none

/-- The owner is there: its scope was made, or its mapping lives where it points. -/
def IsIn (w : World ω) : Owner → Prop
  | .scope id => id < w.scopes.size
  | .value (.map location) => ∃ entries, w.store.get? location = some (.map entries)
  | _ => True

/-- The attribute can be read, if the owner is an object of the implementation. -/
def CanRead (impl : Implementation ω) (w : World ω) (name : String) (owner : Owner) : Prop :=
  ∀ location o, owner = .value (.object location) → w.store.get? location = some (.object o) →
    ∃ u, (runFrom (impl.read location o name) w.store).1 = .ok u

/-- Reading members of the owner does not look at the seat. -/
structure ReadsElsewhere (looksAt : ω → Loc → Prop) (w : World ω) (seat : Seat) (owner : Owner) :
    Prop where
  seat_ne : owner.seat? ≠ some seat
  looks : ∀ location o cell, owner = .value (.object location) →
    w.store.get? location = some (.object o) → seat = .cell cell → ¬ looksAt o cell

end Owner

/-- The worlds have the same scopes and cells, and the same attributes set on markers,
but at the seat. -/
structure AgreeBut (seat : Seat) (w w' : World ω) : Prop where
  bindings : ∀ id, seat ≠ .scope id → w'.bindings id = w.bindings id
  cell : ∀ location, seat ≠ .cell location → w'.store.get? location = w.store.get? location
  marks : ∀ marker, seat ≠ .marks marker → w'.store.marks marker = w.store.marks marker

namespace AgreeBut

variable {w : World ω}

/-- Binding in a scope changes that scope only. -/
theorem setBindings (id : ScopeId) (b : Bindings) :
    AgreeBut (.scope id) w { w with scopes := w.scopes.setIfInBounds id b } where
  bindings := by
    intro other hne
    have hother : ¬ (id = other ∧ id < w.scopes.size) := fun h => hne (congrArg _ h.1)
    rw [World.bindings_set, if_neg hother]
  cell := fun _ _ => rfl
  marks := fun _ _ => rfl

/-- Writing a cell changes that cell only. -/
theorem put (location : Loc) (cell : Cell ω) :
    AgreeBut (.cell location) w { w with store := w.store.put location cell } where
  bindings := fun _ _ => rfl
  cell := fun _ hne => Store.get?_put_of_ne (fun h => hne (congrArg _ h)) cell
  marks := fun _ _ => rfl

/-- Setting an attribute of a marker changes that marker only. -/
theorem mark (marker : Sentinel) (name : String) (v : Value) :
    AgreeBut (.marks marker) w { w with store := w.store.mark marker name v } where
  bindings := fun _ _ => rfl
  cell := fun _ _ => rfl
  marks := by
    intro other hne
    have hother : other ≠ marker := fun h => hne (congrArg _ h.symm)
    change (if other = marker then _ else _) = _
    rw [if_neg hother]

end AgreeBut

namespace Scope

/-! ## Writing -/

section Write

variable {owner : Owner} {name : String} {v : Value} {w w' : World ω} {location : Loc}

/-- Setting an item: the list has as many items as before. -/
theorem writeItem_ok (hset : runFrom (writeItem location name v) w = (.ok (), w')) :
    ∃ i items, Text.decimal? name.toList = some i ∧ i < items.length ∧
      w.store.get? location = some (.list items) ∧
      w' = { w with store := w.store.put location (.list (items.set i v)) } := by
  unfold writeItem at hset
  split at hset
  · cases hset
  · next i hi =>
      rw [runFrom_bind_of_ok (runFrom_world w)] at hset
      dsimp only at hset
      split at hset
      · cases hset
      · split at hset
        · cases hset
        · next hlt =>
            cases hset
            refine ⟨i, w.store.items location, hi, Nat.lt_of_not_le hlt, ?_, rfl⟩
            unfold Store.items at hlt ⊢
            split
            · next hcell => exact hcell
            · next hcell =>
                split at hlt
                · next hlist => exact absurd hlist (hcell _)
                · simp at hlt

variable (impl name v w) in
/-- The world that a write leaves that ends well. -/
inductive Written : Owner → World ω → Prop
  | scope (id : ScopeId) :
      Written (.scope id)
        { w with scopes := w.scopes.setIfInBounds id (setNamed (w.bindings id) name v) }
  | entry (location : Loc) :
      Written (.value (.map location))
        { w with
          store :=
            w.store.put location (.map (Entries.set (w.store.entries location) (.str name) v)) }
  | item {location i : Nat} {items : List Value} (hindex : Name.isIndex name = true)
      (hi : Text.decimal? name.toList = some i) (hlt : i < items.length)
      (hcell : w.store.get? location = some (.list items)) :
      Written (.value (.list location))
        { w with store := w.store.put location (.list (items.set i v)) }
  | object {location : Loc} {o : ω} {store : Store ω}
      (hobject : w.store.get? location = some (.object o))
      (hwrite : runFrom (impl.write location o name v) w.store = (.ok (), store)) :
      Written (.value (.object location)) { w with store }
  | hook {location : Loc} {scope : Nat} {function : ω} {attributes : List (String × Value)}
      (hhook : w.store.get? location = some (.hook scope function attributes)) :
      Written (.value (.object location))
        { w with
          store := w.store.put location (.hook scope function (setNamed attributes name v)) }
  | mark {marker : Sentinel} (hfield : ¬ isMarkerField name = true) :
      Written (.value (.scalar (.sentinel marker)))
        { w with store := w.store.mark marker name v }

/-- **What a write does**, if it ends well, to each kind of owner. -/
theorem write_ok (hset : runFrom (write impl owner name v) w = (.ok (), w')) :
    Written impl name v w owner w' := by
  unfold write at hset
  split at hset
  · cases hset
    exact .scope _
  · cases hset
    exact .entry _
  · split at hset
    · next hindex =>
        obtain ⟨i, items, hi, hlt, hcell, rfl⟩ := writeItem_ok hset
        exact .item hindex hi hlt hcell
    · cases hset
  · unfold writeAttribute at hset
    rw [runFrom_bind_of_ok (runFrom_world w)] at hset
    split at hset
    · next hobject =>
        rw [runFrom_code] at hset
        obtain ⟨hresult, rfl⟩ := Prod.mk.inj hset
        exact .object hobject (eq_of_fst hresult)
    · next hhook =>
        cases hset
        exact .hook hhook
    · cases hset
  · split at hset
    · cases hset
    · next hfield =>
        cases hset
        exact .mark hfield
  · cases hset

/-- **A write changes one seat**, that of its owner. -/
theorem write_seat (h : impl.KeepsAttributes looksAt)
    (hset : runFrom (write impl owner name v) w = (.ok (), w')) :
    ∃ seat, owner.seat? = some seat ∧ AgreeBut seat w w' := by
  cases write_ok hset with
  | scope id => exact ⟨_, rfl, .setBindings _ _⟩
  | entry location => exact ⟨_, rfl, .put _ _⟩
  | item => exact ⟨_, rfl, .put _ _⟩
  | object hobject hwrite =>
      obtain ⟨o', rfl, -⟩ := h.written _ _ _ _ _ _ hobject hwrite
      exact ⟨_, rfl, .put _ _⟩
  | hook => exact ⟨_, rfl, .put _ _⟩
  | mark => exact ⟨_, rfl, .mark _ _ _⟩

end Write

/-! ## Reading -/

/-- Reading attributes that changes nothing makes lookups that change nothing. -/
theorem looks_of_keepsAttributes (h : impl.KeepsAttributes looksAt) :
    impl.Looks (fun step => Moves Eq step) where
  pure := Moves.pure
  throw := Moves.throw
  bind := Moves.bind
  attempt := fun h => h
  bindings := fun _ _ => rfl
  look := fun _ hnext w => hnext w w
  read := fun location o name w =>
    congrArg (fun store => { w with store }) (h.read_unchanged location o name w.store)

/-- The result of a step that changes nothing. -/
theorem runFrom_of_unchanged {α : Type} {step : Exec ω α} (h : Moves Eq step) (w : World ω) :
    runFrom step w = ((runFrom step w).1, w) :=
  Prod.ext rfl (h w).symm

section Read

variable (h : impl.KeepsAttributes looksAt) {w w' : World ω} {seat : Seat}
include h

/-- Reading a member leaves the world as it is. -/
theorem runFrom_memberAs (owner : Owner) (name : String) (w : World ω) :
    runFrom (memberAs impl owner name) w = ((runFrom (memberAs impl owner name) w).1, w) :=
  runFrom_of_unchanged (memberAs_kept (looks_of_keepsAttributes h) owner name) w

/-- So does reading under several spellings. -/
theorem runFrom_firstMember (owner : Owner) (names : List String) (w : World ω) :
    runFrom (firstMember impl owner names) w =
      ((runFrom (firstMember impl owner names) w).1, w) :=
  runFrom_of_unchanged (firstMember_kept (looks_of_keepsAttributes h) owner names) w

/-- Walking a path leaves the world as it is. -/
theorem runFrom_locate (scope : ScopeId) (path : String) (w : World ω) :
    runFrom (locate impl scope path) w = ((runFrom (locate impl scope path) w).1, w) :=
  runFrom_of_unchanged (locate_kept (looks_of_keepsAttributes h) scope path) w

/-- So does asking whether a constant is bound. -/
theorem runFrom_isBoundConstant_eq (owner : Owner) (name : String) (w : World ω) :
    runFrom (isBoundConstant impl owner name) w =
      ((runFrom (isBoundConstant impl owner name) w).1, w) :=
  runFrom_of_unchanged (isBoundConstant_kept (looks_of_keepsAttributes h) owner name) w

omit h in
/-- What reading an attribute gives, whatever it does to the store. -/
theorem objectAttribute_fst (location : Loc) (name : String) (w : World ω) :
    (runFrom (objectAttribute impl location name) w).1 =
      match w.store.get? location with
      | some (.object o) =>
        match (runFrom (impl.read location o name) w.store).1 with
        | .ok v => .ok (some v)
        | .error fault => if fault.family = .attribute then .ok none else .error fault
      | some (.hook _ _ attributes) => .ok (named? attributes name)
      | _ => .ok none := by
  unfold objectAttribute
  rw [runFrom_bind_of_ok (runFrom_world w)]
  rcases w.store.get? location with _ | cell
  · rfl
  · cases cell with
    | object o =>
        dsimp only
        rw [runFrom_bind, runFrom_attempt, runFrom_code]
        rcases (runFrom (impl.read location o name) w.store).1 with fault | v
        · by_cases hattribute : fault.family = .attribute
          · simp [hattribute]
          · simp [hattribute]
        · rfl
    | _ => rfl

/-- **A write is not seen elsewhere.**  Reading a member of an owner gives the same in
worlds that agree but at a seat that the owner does not look at. -/
theorem memberAs_agree {owner : Owner} (hagree : AgreeBut seat w w')
    (hreads : owner.ReadsElsewhere looksAt w seat) (name : String) :
    (runFrom (memberAs impl owner name) w').1 = (runFrom (memberAs impl owner name) w).1 := by
  have hcell : ∀ location, owner.seat? = some (.cell location) →
      w'.store.get? location = w.store.get? location := by
    intro location hseat
    refine hagree.cell location fun heq => hreads.seat_ne ?_
    rw [hseat, heq]
  rcases owner with id | v
  · have hbindings : w'.bindings id = w.bindings id :=
      hagree.bindings id fun heq => hreads.seat_ne (congrArg some heq.symm)
    exact congrArg (fun b => Except.ok (named? b name)) hbindings
  · cases v with
    | map location =>
        have hentries : w'.store.entries location = w.store.entries location := by
          unfold Store.entries
          rw [hcell location rfl]
        exact congrArg (fun e => Except.ok (Entries.find? e (.str name))) hentries
    | list location =>
        have hitems : w'.store.items location = w.store.items location := by
          unfold Store.items
          rw [hcell location rfl]
        unfold memberAs
        dsimp only
        split
        · exact congrArg (fun items => itemAt items name) hitems
        · rfl
    | tuple items =>
        unfold memberAs
        dsimp only
        split <;> rfl
    | object location =>
        change (runFrom (objectAttribute impl location name) w').1 =
          (runFrom (objectAttribute impl location name) w).1
        rw [objectAttribute_fst, objectAttribute_fst, hcell location rfl]
        rcases hobject : w.store.get? location with _ | cell
        · rfl
        · cases cell with
          | object o =>
              have hread := h.read_cells location o name w.store w'.store fun cell hlooks =>
                hagree.cell cell fun heq => hreads.looks location o cell rfl hobject heq hlooks
              dsimp only
              rw [hread]
          | _ => rfl
    | scalar s =>
        cases s with
        | sentinel marker =>
            have hmarks : w'.store.marks marker = w.store.marks marker :=
              hagree.marks marker fun heq => hreads.seat_ne (congrArg some heq.symm)
            change Except.ok (markerAttribute? w'.store marker name) =
              Except.ok (markerAttribute? w.store marker name)
            unfold markerAttribute?
            rw [hmarks]
        | _ => rfl
    | _ => rfl

/-- What is read under several spellings does not depend on a seat where no reader looks. -/
theorem firstMember_agree {owner : Owner} (hagree : AgreeBut seat w w')
    (hreads : owner.ReadsElsewhere looksAt w seat) (names : List String) :
    (runFrom (firstMember impl owner names) w').1 =
      (runFrom (firstMember impl owner names) w).1 := by
  induction names with
  | nil => rfl
  | cons name names ih =>
      unfold firstMember
      rw [runFrom_bind, runFrom_bind, runFrom_memberAs h owner name w,
        runFrom_memberAs h owner name w', memberAs_agree h hagree hreads]
      rcases (runFrom (memberAs impl owner name) w).1 with fault | _ | v
      · rfl
      · exact ih
      · rfl

end Read

/-- **The member that was written** reads as the value, whatever kind the owner is of. -/
theorem memberAs_written (h : impl.KeepsAttributes looksAt) {owner : Owner} {name : String}
    {v : Value} {w w' : World ω} (hin : owner.IsIn w)
    (hset : runFrom (write impl owner name v) w = (.ok (), w'))
    (hread : owner.CanRead impl w' name) :
    (runFrom (memberAs impl owner name) w').1 = .ok (some v) := by
  cases write_ok hset with
  | scope id =>
      have hbindings := World.bindings_set w id id (setNamed (w.bindings id) name v)
      rw [if_pos ⟨rfl, hin⟩] at hbindings
      refine (congrArg (fun b => Except.ok (named? b name)) hbindings).trans ?_
      exact congrArg Except.ok (named?_setNamed_self _ name v)
  | entry location =>
      obtain ⟨entries, hcell⟩ := hin
      have hentries := Store.entries_put_self (Store.lt_of_get? hcell)
        (Entries.set (w.store.entries location) (.str name) v)
      refine (congrArg (fun e => Except.ok (Entries.find? e (.str name))) hentries).trans ?_
      rw [Entries.find?_set, if_pos (Key.same_refl _)]
  | @item location i items hindex hi hlt hcell =>
      have hitems := Store.items_put_self (Store.lt_of_get? hcell) (items.set i v)
      unfold memberAs
      dsimp only
      rw [if_pos hindex]
      refine (congrArg (fun items => itemAt items name) hitems).trans ?_
      unfold itemAt
      rw [hi]
      simp [hlt]
  | @object location o store hobject hwrite =>
      obtain ⟨o', rfl, hwritten⟩ := h.written location o name v _ _ hobject hwrite
      have hcell := Store.get?_put_self (Store.lt_of_get? hobject) (.object o')
      obtain ⟨u, hu⟩ := hread location o' rfl hcell
      obtain rfl := hwritten u hu
      refine (objectAttribute_fst location name _).trans ?_
      simp only [hcell, hu]
  | @hook location scope function attributes hhook =>
      have hcell := Store.get?_put_self (Store.lt_of_get? hhook)
        (.hook scope function (setNamed attributes name v))
      refine (objectAttribute_fst location name _).trans ?_
      simp only [hcell, named?_setNamed_self]
  | @mark marker hfield =>
      have hmarks : (w.store.mark marker name v).marks marker =
          setNamed (w.store.marks marker) name v := if_pos rfl
      change Except.ok (markerAttribute? (w.store.mark marker name v) marker name) = _
      unfold markerAttribute?
      dsimp only
      rw [if_neg hfield, hmarks, named?_setNamed_self]
      rfl

/-! ## Walking -/

variable (impl) in
/-- The owners that a walk along names looks up a member in, on its way to the last
name. -/
inductive WalksThrough (w : World ω) (met : Owner) : Owner → List String → Prop
  | here {name next : String} {rest : List String} :
      WalksThrough w met met (name :: next :: rest)
  | later {owner : Owner} {name next : String} {rest : List String} {v : Value}
      (hfound : (runFrom (member impl owner name) w).1 = .ok (some v))
      (hlater : WalksThrough w met (.value v) (next :: rest)) :
      WalksThrough w met owner (name :: next :: rest)

/-- **A walk does not see a write elsewhere**: it comes to the same owner in worlds that
agree but at a seat that no owner it meets looks at. -/
theorem walk_agree (h : impl.KeepsAttributes looksAt) {w w' : World ω} {seat : Seat}
    (hagree : AgreeBut seat w w') (names : List String) :
    ∀ (owner : Owner) (walked : List String),
      (∀ met, WalksThrough impl w met owner names → met.ReadsElsewhere looksAt w seat) →
      (runFrom (walk impl owner walked names) w').1 = (runFrom (walk impl owner walked names) w).1 := by
  induction names with
  | nil => exact fun _ _ _ => rfl
  | cons name names ih =>
      intro owner walked hmet
      cases names with
      | nil => rfl
      | cons next rest =>
          have hfirst := firstMember_agree h hagree (hmet owner .here) (Name.spellings name)
          unfold walk member
          rw [runFrom_bind, runFrom_bind, runFrom_firstMember h owner _ w,
            runFrom_firstMember h owner _ w', hfirst]
          rcases hfound : (runFrom (firstMember impl owner (Name.spellings name)) w).1 with
            fault | _ | v
          · rfl
          · rfl
          · exact ih (.value v) _ fun met hlater => hmet met (.later hfound hlater)

/-- The owners met on the way to the last name of a path. -/
def IsMet (impl : Implementation ω) (w : World ω) (scope : ScopeId) (path : String) (met : Owner) :
    Prop :=
  WalksThrough impl w met (.scope scope) (pathNames path)

/-- A path leads to the same owner if nobody met on the way reads at the seat. -/
theorem locate_agree (h : impl.KeepsAttributes looksAt) {w w' : World ω} {seat : Seat}
    (hagree : AgreeBut seat w w') {scope : ScopeId} {path : String}
    (hmet : ∀ met, IsMet impl w scope path met → met.ReadsElsewhere looksAt w seat) :
    (runFrom (locate impl scope path) w').1 = (runFrom (locate impl scope path) w).1 := by
  unfold locate
  split
  · rfl
  · exact walk_agree h hagree _ _ _ hmet

end Scope

end Conformance
