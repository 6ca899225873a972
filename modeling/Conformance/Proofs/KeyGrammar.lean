import Conformance.Feature.Parse
import Mathlib.Data.List.DropRight

/-!
# The grammar of keys

The character `=` stands for three things in a key.  It ends the target of an assignment, two
of them at the end of an operand are the read marker, and where a target is followed by nothing
but the marker neither reading is right.  The pattern of a key tries the target first, and what
is left is trimmed and looked at for the marker at its end.

`Written` is what a key is written from, its filter apart, and `unfiltered?_text` says that the
grammar reads it one way only: it gives the form that was written, for every target and operand
that could be one (`IsPart`).
-/

namespace Conformance.FeatureKey

/-! ## Splitting and trimming -/

/-- A text is split at the first mark. -/
theorem splitAt?_append {mark : Char} {before : List Char} (after : List Char)
    (h : mark ∉ before) : Text.splitAt? mark (before ++ mark :: after) = some (before, after) := by
  induction before with
  | nil => simp [Text.splitAt?]
  | cons c rest ih =>
      have hc : (c == mark) = false := by
        have hne : c ≠ mark := fun heq => h (heq ▸ List.mem_cons_self)
        simpa using hne
      have hrest := ih fun hmem => h (List.mem_cons_of_mem _ hmem)
      simp [Text.splitAt?, hc, hrest]

/-- What a text is split into. -/
theorem splitAt?_eq_some_iff {mark : Char} {cs before after : List Char} :
    Text.splitAt? mark cs = some (before, after) ↔
      mark ∉ before ∧ cs = before ++ mark :: after := by
  constructor
  · intro h
    induction cs generalizing before with
    | nil => cases h
    | cons c rest ih =>
        rw [Text.splitAt?] at h
        by_cases hc : c = mark
        · simp only [hc, beq_self_eq_true, if_true] at h
          cases h
          exact ⟨List.not_mem_nil, by rw [hc, List.nil_append]⟩
        · have hbeq : (c == mark) = false := by simpa using hc
          rw [hbeq, if_neg Bool.false_ne_true] at h
          obtain ⟨⟨start, stop⟩, hsplit, heq⟩ := Option.map_eq_some_iff.mp h
          cases heq
          obtain ⟨hnot, hrest⟩ := ih hsplit
          rw [List.mem_cons, not_or]
          exact ⟨⟨fun heq => hc heq.symm, hnot⟩, by rw [hrest, List.cons_append]⟩
  · rintro ⟨hnot, rfl⟩
    exact splitAt?_append after hnot

theorem splitAt?_eq_none {mark : Char} {cs : List Char} (h : mark ∉ cs) :
    Text.splitAt? mark cs = none := by
  induction cs with
  | nil => rfl
  | cons c rest ih =>
      have hc : (c == mark) = false := by
        have hne : c ≠ mark := fun heq => h (heq ▸ List.mem_cons_self)
        simpa using hne
      have hrest := ih fun hmem => h (List.mem_cons_of_mem _ hmem)
      simp [Text.splitAt?, hc, hrest]

/-- **A text is trimmed** if there is white space at neither end. -/
theorem trim_eq_self_iff {cs : List Char} :
    Text.trim cs = cs ↔
      (∀ c ∈ cs.head?, Text.isBlank c = false) ∧ ∀ c ∈ cs.getLast?, Text.isBlank c = false := by
  have hleft : Text.trimLeft cs = cs ↔ ∀ c ∈ cs.head?, Text.isBlank c = false := by
    unfold Text.trimLeft
    rw [List.dropWhile_eq_self_iff]
    cases cs <;> simp
  have hright : Text.trimRight cs = cs ↔ ∀ c ∈ cs.getLast?, Text.isBlank c = false := by
    have hdrop := List.rdropWhile_eq_self_iff (p := Text.isBlank) (l := cs)
    unfold Text.trimRight
    unfold List.rdropWhile at hdrop
    rw [hdrop]
    cases cs using List.reverseRecOn <;> simp
  rw [← hleft, ← hright]
  unfold Text.trim
  constructor
  · intro h
    -- Nothing is dropped on the left, or the rest would be too short.
    have hsuffix : Text.trimLeft cs <:+ cs := List.dropWhile_suffix _
    have hshort : (Text.trimRight (Text.trimLeft cs)).length ≤ (Text.trimLeft cs).length :=
      (List.rdropWhile_prefix Text.isBlank (Text.trimLeft cs)).length_le
    rw [h] at hshort
    have hwhole : Text.trimLeft cs = cs :=
      hsuffix.eq_of_length (Nat.le_antisymm hsuffix.length_le hshort)
    rw [hwhole] at h
    exact ⟨hwhole, h⟩
  · rintro ⟨hwhole, h⟩
    rw [hwhole, h]

/-- A text without white space is trimmed already. -/
theorem trim_of_not_blank {cs : List Char} (h : ∀ c ∈ cs, Text.isBlank c = false) :
    Text.trim cs = cs :=
  trim_eq_self_iff.mpr
    ⟨fun c hc => h c (List.mem_of_mem_head? hc), fun c hc => h c (List.mem_of_mem_getLast? hc)⟩

/-! ## What a key is written from -/

/-- A text that can be the target or the operand of a key. -/
structure IsPart (part : String) : Prop where
  nonempty : part ≠ ""
  trimmed : Text.trim part.toList = part.toList
  opening : part.toList.head? ≠ some '('
  unmarked : '=' ∉ part.toList
  oneLine : '\n' ∉ part.toList

/-- A key without its filter: a target alone, or an operand with the read marker behind it
or not, for which there may be a target. -/
inductive Written
  | target (assign : String)
  | operand (assign : Option String) (path : String) (marked : Bool)
deriving DecidableEq, Repr

/-- A text without white space and marks is a part. -/
theorem isPart_of_not_blank {part : String} (hnonempty : part ≠ "")
    (hblank : ∀ c ∈ part.toList, Text.isBlank c = false)
    (hopening : part.toList.head? ≠ some '(') (hunmarked : '=' ∉ part.toList) : IsPart part where
  nonempty := hnonempty
  trimmed := trim_of_not_blank hblank
  opening := hopening
  unmarked := hunmarked
  oneLine := by
    intro hmem
    have hbreak := hblank '\n' hmem
    cases hbreak

namespace Written

/-- An operand as it is written. -/
def operandText (path : String) (marked : Bool) : String := if marked then path ++ "==" else path

/-- A key as it is written. -/
def text : Written → String
  | .target assign => assign ++ "="
  | .operand none path marked => operandText path marked
  | .operand (some assign) path marked => assign ++ "=" ++ operandText path marked

theorem text_withTarget (assign path : String) (marked : Bool) :
    (operand (some assign) path marked).text = assign ++ ("=" ++ operandText path marked) :=
  String.append_assoc

/-- Target and operand of a key, where they are given. -/
def parts : Written → List String
  | .target assign => [assign]
  | .operand assign path _ => assign.toList ++ [path]

/-- The form that a key stands for.  The name under which a package is declared is the target
of a value if nothing else is written. -/
def form : Written → Form
  | .target assign => .value assign
  | .operand assign path true => .read assign path
  | .operand assign path false =>
    if path = packageKey ∧ assign = none then .value packageKey else .operand assign path

end Written

open Written

/-! ## Reading what was written -/

section Part

variable {part : String} (h : IsPart part)
include h

/-- A part starts with none of the marks. -/
theorem IsPart.start : ∃ c rest, part.toList = c :: rest ∧ c ≠ '=' ∧ c ≠ '(' ∧
    Text.isBlank c = false ∧ '\n' ∉ rest := by
  cases hpart : part.toList with
  | nil => exact absurd (String.toList_eq_nil_iff.mp hpart) h.nonempty
  | cons c rest =>
      have hunmarked := h.unmarked
      have hopening := h.opening
      have honeLine := h.oneLine
      have htrimmed := h.trimmed
      rw [hpart] at hunmarked hopening honeLine htrimmed
      refine ⟨c, rest, rfl, ?_, ?_, ?_, ?_⟩
      · rintro rfl
        exact hunmarked List.mem_cons_self
      · rintro rfl
        exact hopening rfl
      · exact (trim_eq_self_iff.mp htrimmed).1 c rfl
      · exact fun hmem => honeLine (List.mem_cons_of_mem _ hmem)

/-- An operand takes up the rest of a key. -/
theorem property?_operandText (marked : Bool) :
    property? (operandText part marked).toList = some (some (operandText part marked).toList) := by
  obtain ⟨c, rest, hpart, hequals, -, -, hbreak⟩ := h.start
  have hbeq : (c == '=') = false := by simpa using hequals
  have hline : ∀ after, '\n' ∉ after →
      property? (c :: rest ++ after) = some (some (c :: rest ++ after)) := by
    intro after hafter
    have hnot : '\n' ∉ rest ++ after := by
      rw [List.mem_append, not_or]
      exact ⟨hbreak, hafter⟩
    simp [property?, hbeq, line?, splitAt?_eq_none hnot]
  cases marked with
  | false =>
      have hplain := hline [] List.not_mem_nil
      rw [List.append_nil] at hplain
      unfold operandText
      rw [if_neg Bool.false_ne_true, hpart]
      exact hplain
  | true =>
      unfold operandText
      rw [if_pos rfl, String.toList_append, hpart]
      exact hline "==".toList (by decide)

/-- Trimming leaves a target as it is. -/
theorem trimmed?_part : trimmed? (some part.toList) = some part.toList := by
  obtain ⟨c, rest, hpart, -⟩ := h.start
  unfold trimmed?
  rw [Option.map_some, h.trimmed, hpart]
  rfl

/-- Trimming leaves an operand as it is. -/
theorem trimmed?_operandText (marked : Bool) :
    trimmed? (some (operandText part marked).toList) = some (operandText part marked).toList := by
  cases marked with
  | false => exact trimmed?_part h
  | true =>
      obtain ⟨c, rest, hpart, -, -, hblank, -⟩ := h.start
      have htext : (operandText part true).toList = c :: (rest ++ ['=', '=']) := by
        unfold operandText
        rw [if_pos rfl, String.toList_append, hpart]
        rfl
      have htrim : Text.trim (c :: (rest ++ ['=', '='])) = c :: (rest ++ ['=', '=']) := by
        refine trim_eq_self_iff.mpr ⟨?_, ?_⟩
        · rintro d ⟨⟩
          exact hblank
        · intro d hd
          have hlast : (c :: (rest ++ ['=', '='])).getLast? = some '=' := by
            rw [← List.cons_append, List.getLast?_append]
            rfl
          rw [hlast] at hd
          cases hd
          rfl
      unfold trimmed?
      rw [htext, Option.map_some, htrim]
      rfl

/-- The read marker is found where it was written. -/
theorem beforeReadMark?_operandText (marked : Bool) :
    beforeReadMark? (operandText part marked).toList =
      if marked then some part.toList else none := by
  cases marked with
  | false =>
      unfold beforeReadMark? operandText
      rw [if_neg Bool.false_ne_true, if_neg Bool.false_ne_true, if_neg]
      intro hsuffix
      exact h.unmarked ((List.isSuffixOf_iff_suffix.mp hsuffix).subset (by decide))
  | true =>
      have htext : (operandText part true).toList = part.toList ++ readMark := by
        unfold operandText
        rw [if_pos rfl, String.toList_append]
        rfl
      have hsuffix : readMark.isSuffixOf (part.toList ++ readMark) = true :=
        List.isSuffixOf_iff_suffix.mpr (List.suffix_append _ _)
      unfold beforeReadMark?
      rw [htext, if_pos hsuffix, if_pos rfl]
      simp [readMark]

/-- The form of a key with an operand. -/
theorem form?_operandText (assign : Option String) (marked : Bool) :
    form? (assign.map String.toList) (some (operandText part marked).toList) =
      some (Written.operand assign part marked).form := by
  have htarget : (assign.map String.toList).map String.ofList = assign := by
    cases assign <;> simp
  unfold form?
  dsimp only
  rw [beforeReadMark?_operandText h, htarget]
  cases marked with
  | true =>
      obtain ⟨c, rest, hpart, -⟩ := h.start
      have hsome : part.toList.isEmpty = false := by rw [hpart]; rfl
      rw [if_pos rfl]
      dsimp only
      rw [h.trimmed, hsome, if_neg Bool.false_ne_true, String.ofList_toList]
      rfl
  | false =>
      unfold operandText Written.form
      rw [if_neg Bool.false_ne_true, String.ofList_toList]
      by_cases hpackage : part = packageKey
      · cases assign <;> simp [hpackage]
      · simp [hpackage]

end Part

/-! ### The parts of a key -/

/-- A target is all up to the first `=`. -/
theorem body?_assign {assign : List Char} (h : '=' ∉ assign) {rest : List Char}
    {property : Option (List Char)} (hrest : property? rest = some property) :
    body? (assign ++ '=' :: rest) = some (some assign, property) := by
  unfold body?
  rw [splitAt?_append rest h]
  dsimp only [Option.bind_eq_bind, Option.bind_some]
  rw [hrest]
  rfl

/-- There is no target if what would be behind it is no operand. -/
theorem body?_property {cs : List Char} {property : Option (List Char)}
    (hproperty : property? cs = some property)
    (hassign : ∀ assign rest, Text.splitAt? '=' cs = some (assign, rest) → property? rest = none) :
    body? cs = some (none, property) := by
  unfold body?
  cases hsplit : Text.splitAt? '=' cs with
  | none => simp [hproperty]
  | some parts =>
      obtain ⟨assign, rest⟩ := parts
      simp [hproperty, hassign assign rest hsplit]

/-- The marker behind an operand ends no target. -/
theorem body?_operandText {path : String} (h : IsPart path) (marked : Bool) :
    body? (operandText path marked).toList =
      some (none, some (operandText path marked).toList) := by
  refine body?_property (property?_operandText h marked) fun assign rest hsplit => ?_
  unfold operandText at hsplit
  cases marked with
  | false =>
      rw [if_neg Bool.false_ne_true, splitAt?_eq_none h.unmarked] at hsplit
      cases hsplit
  | true =>
      have hmark : Text.splitAt? '=' (path.toList ++ ['=', '=']) = some (path.toList, ['=']) :=
        splitAt?_append ['='] h.unmarked
      rw [if_pos rfl, String.toList_append] at hsplit
      cases hmark.symm.trans hsplit
      rfl

/-- The form of a key that has no filter, read from its camel-style spelling. -/
def unfiltered? (cs : List Char) : Option Form := do
  let (assign, property) ← body? cs
  form? (trimmed? assign) (trimmed? property)

/-- **A key is read as it was written.** -/
theorem unfiltered?_text {key : Written} (h : ∀ part ∈ key.parts, IsPart part) :
    unfiltered? key.text.toList = some key.form := by
  unfold unfiltered?
  cases key with
  | target assign =>
      have hassign : IsPart assign := h assign List.mem_cons_self
      have hbody : body? (Written.target assign).text.toList = some (some assign.toList, none) := by
        unfold Written.text
        rw [String.toList_append]
        exact body?_assign hassign.unmarked rfl
      rw [hbody]
      dsimp only [Option.bind_eq_bind, Option.bind_some]
      rw [trimmed?_part hassign]
      simp [trimmed?, form?, Written.form]
  | operand assign path marked =>
      have hpath : IsPart path := h path (List.mem_append_right _ List.mem_cons_self)
      have hform := form?_operandText hpath assign marked
      cases assign with
      | none =>
          have hbody := body?_operandText hpath marked
          unfold Written.text
          rw [hbody]
          dsimp only [Option.bind_eq_bind, Option.bind_some]
          rw [trimmed?_operandText hpath]
          exact hform
      | some assign =>
          have hassign : IsPart assign := h assign List.mem_cons_self
          have htext : (Written.operand (some assign) path marked).text.toList =
              assign.toList ++ '=' :: (operandText path marked).toList := by
            rw [Written.text_withTarget, String.toList_append, String.toList_append]
            rfl
          rw [htext, body?_assign hassign.unmarked (property?_operandText hpath marked)]
          dsimp only [Option.bind_eq_bind, Option.bind_some]
          rw [trimmed?_part hassign, trimmed?_operandText hpath]
          exact hform

/-- What is written without a filter does not start with a parenthesis. -/
theorem head?_text {key : Written} (h : ∀ part ∈ key.parts, IsPart part) :
    key.text.toList.head? ≠ some '(' := by
  have hstart : ∀ {part : String}, IsPart part → ∀ after : String,
      (part ++ after).toList.head? ≠ some '(' := by
    intro part hpart after
    obtain ⟨c, rest, htext, -, hopening, -⟩ := hpart.start
    rw [String.toList_append, htext]
    exact fun hhead => hopening (Option.some.inj hhead)
  have hoperand : ∀ {path : String}, IsPart path → ∀ marked,
      (operandText path marked).toList.head? ≠ some '(' := by
    intro path hpath marked
    cases marked with
    | false => exact hpath.opening
    | true => exact hstart hpath "=="
  cases key with
  | target assign => exact hstart (h assign List.mem_cons_self) "="
  | operand assign path marked =>
      cases assign with
      | none => exact hoperand (h path List.mem_cons_self) marked
      | some assign =>
          rw [Written.text_withTarget]
          exact hstart (h assign List.mem_cons_self) _

/-- A key that does not start with a parenthesis has no filter. -/
theorem read?_of_unopened {key : String} (h : (Name.camel key.toList).head? ≠ some '(') :
    read? key = (unfiltered? (Name.camel key.toList)).map fun form => (none, form) := by
  have hparenthesis : parenthesis? (Name.camel key.toList) = none := by
    unfold parenthesis?
    split
    · next rest heq =>
        rw [heq] at h
        exact absurd rfl h
    · rfl
  unfold read? split? unfiltered?
  rw [hparenthesis]
  cases hbody : body? (Name.camel key.toList) with
  | none => simp
  | some parts =>
      obtain ⟨assign, property⟩ := parts
      cases hform : form? (trimmed? assign) (trimmed? property) <;> simp [hform]

/-- A key that is folded to a written one is read as that. -/
theorem read?_of_camel {key : String} {written : Written}
    (hcamel : Name.camel key.toList = written.text.toList)
    (h : ∀ part ∈ written.parts, IsPart part) : read? key = some (none, written.form) := by
  have hopening := head?_text h
  rw [← hcamel] at hopening
  rw [read?_of_unopened hopening, hcamel, unfiltered?_text h]
  rfl

end Conformance.FeatureKey
