import Conformance.Proofs.HookLookup
import Conformance.Proofs.Writable

/-!
# Filters of keys and comments

A filter is what stands in parentheses at the start of a comment or a key.  A comment
takes it as it is written.  A key may differ from it in two ways.

Its grammar leaves the filter optional: if the rest of a key does not follow it, the
parentheses are read as part of the operand, and the filter is lost.  A rest that is one
line follows the grammar unless it starts with the read marker (`line?_of_body?`), and
another that does not makes no key at all, so `filter_kept` has this one exception, and the
filter of a key can be told from its start (`filter_of_read?`).

And a key is folded before it is read, its filter with it, so the tags that count are
the folded ones (`foldedTags`).  `filters_read_alike` says when that makes a difference.
-/

namespace Conformance

/-! ## Folding a key with a filter -/

namespace Name

/-- A key is folded in two parts behind every character but an underscore. -/
theorem camel_append {c : Char} (hc : c ≠ '_') (before after : List Char) :
    camel (before ++ c :: after) = camel (before ++ [c]) ++ camel after := by
  have hend : ∀ ds : List Char, camel (c :: ds) = c :: camel ds := by
    intro ds
    cases ds with
    | nil => rfl
    | cons d ds => simp [camel, hc]
  induction before using camel.induct with
  | case1 => exact hend after
  | case2 b =>
      by_cases hb : b = '_'
      · subst hb
        by_cases hbreak : c = '\n'
        · simp [camel, hbreak]
        · simp [camel, hbreak]
      · simp [camel, hb, hend]
  | case3 b d rest hb hd ih =>
      simp only [List.cons_append, camel, hb, hd, if_true, ih]
  | case4 b d rest hb hd ih =>
      simp only [List.cons_append, camel, hb, hd, if_true, Bool.false_eq_true, if_false, ih,
        List.append_assoc]
  | case5 b d rest hb ih =>
      rw [List.cons_append, List.cons_append] at ih
      simp only [List.cons_append, camel, hb, Bool.false_eq_true, if_false, ih]

/-- Folding tags with the parenthesis behind them adds none. -/
theorem camel_closing {tags : List Char} (h : ')' ∉ tags) :
    ∃ folded, camel (tags ++ [')']) = folded ++ [')'] ∧ ')' ∉ folded := by
  induction tags using camel.induct with
  | case1 => exact ⟨[], rfl, List.not_mem_nil⟩
  | case2 b =>
      by_cases hb : b = '_'
      · subst hb
        exact ⟨[], rfl, List.not_mem_nil⟩
      · exact ⟨[b], by simp [camel, hb], h⟩
  | case3 b d rest hb hd ih =>
      rw [List.mem_cons, List.mem_cons, not_or, not_or] at h
      obtain ⟨folded, hfolded, hnot⟩ := ih h.2.2
      refine ⟨b :: d :: folded, ?_, ?_⟩
      · simp only [List.cons_append, camel, hb, hd, if_true, hfolded]
      · rw [List.mem_cons, List.mem_cons, not_or, not_or]
        exact ⟨h.1, h.2.1, hnot⟩
  | case4 b d rest hb hd ih =>
      rw [List.mem_cons, List.mem_cons, not_or, not_or] at h
      obtain ⟨folded, hfolded, hnot⟩ := ih h.2.2
      refine ⟨Text.upperChar d ++ folded, ?_, ?_⟩
      · simp only [List.cons_append, camel, hb, hd, if_true, Bool.false_eq_true, if_false, hfolded,
          List.append_assoc]
      · rw [List.mem_append, not_or]
        exact ⟨Text.closing_not_mem_upperChar fun heq => h.2.1 heq.symm, hnot⟩
  | case5 b d rest hb ih =>
      rw [List.mem_cons, not_or] at h
      obtain ⟨folded, hfolded, hnot⟩ := ih h.2
      refine ⟨b :: folded, ?_, ?_⟩
      · rw [List.cons_append] at hfolded
        simp only [List.cons_append, camel, hb, Bool.false_eq_true, if_false, hfolded]
      · rw [List.mem_cons, not_or]
        exact ⟨h.1, hnot⟩

end Name

/-! ## Tags -/

namespace Filter

/-- No target name is empty. -/
theorem nil_not_mem_names (tags : List Char) : [] ∉ names tags := by
  unfold names
  rw [List.mem_filter]
  rintro ⟨-, hempty⟩
  cases hempty

/-- **Two filters exclude the same targets** exactly if both name the targets to keep or
both those to leave out, and they name the same. -/
theorem skips_eq_iff {tags tags' : List Char} :
    (∀ target, skips tags target = skips tags' target) ↔
      isNegated tags = isNegated tags' ∧ ∀ name, name ∈ names tags ↔ name ∈ names tags' := by
  constructor
  · intro h
    have hnegated : isNegated tags = isNegated tags' := by
      have hnameless : ∀ tags : List Char, (names tags).contains [] = false := fun tags => by
        simpa using nil_not_mem_names tags
      have hempty := h ""
      unfold skips at hempty
      rw [String.toList_empty, hnameless, hnameless] at hempty
      cases htags : isNegated tags <;> cases htags' : isNegated tags' <;> simp_all
    refine ⟨hnegated, fun name => ?_⟩
    have hname := h (String.ofList name)
    unfold skips at hname
    rw [String.toList_ofList, hnegated] at hname
    rw [← List.contains_iff_mem, ← List.contains_iff_mem]
    cases htags' : isNegated tags' <;> simp_all
  · rintro ⟨hnegated, hnames⟩ target
    have hcontains : (names tags).contains target.toList = (names tags').contains target.toList := by
      rw [Bool.eq_iff_iff, List.contains_iff_mem, List.contains_iff_mem]
      exact hnames target.toList
    unfold skips
    rw [hnegated, hcontains]

end Filter

/-! ## The grammar of keys -/

namespace FeatureKey

open Name

/-- A text behind a filter. -/
def withFilter (tags rest : String) : String := "(" ++ tags ++ ")" ++ rest

theorem toList_withFilter (tags rest : String) :
    (withFilter tags rest).toList = '(' :: (tags.toList ++ ')' :: rest.toList) := by
  unfold withFilter
  rw [String.toList_append, String.toList_append, String.toList_append]
  simp

/-- The tags of a filter as they are in a folded key.  The last of them is folded with
the parenthesis behind it. -/
def foldedTags (tags : List Char) : List Char := (camel (tags ++ [')'])).dropLast

theorem camel_tags {tags : List Char} (h : ')' ∉ tags) :
    camel (tags ++ [')']) = foldedTags tags ++ [')'] ∧ ')' ∉ foldedTags tags := by
  obtain ⟨folded, hfolded, hnot⟩ := camel_closing h
  have hself : foldedTags tags = folded := by
    unfold foldedTags
    rw [hfolded, List.dropLast_concat]
  rw [hself]
  exact ⟨hfolded, hnot⟩

/-- Tags without underscores are left as they are. -/
theorem foldedTags_of_not_mem {tags : List Char} (h : '_' ∉ tags) : foldedTags tags = tags := by
  unfold foldedTags
  rw [camel_of_not_mem_dropLast, List.dropLast_concat]
  rw [List.dropLast_concat]
  exact h

/-- A key with a filter is folded in three parts. -/
theorem camel_withFilter {tags : String} (h : ')' ∉ tags.toList) (rest : String) :
    camel (withFilter tags rest).toList =
      '(' :: (foldedTags tags.toList ++ ')' :: camel rest.toList) := by
  have hopening := camel_append (by decide : '(' ≠ '_') [] (tags.toList ++ ')' :: rest.toList)
  rw [List.nil_append, List.nil_append] at hopening
  rw [toList_withFilter, hopening, camel_append (by decide : ')' ≠ '_'), (camel_tags h).1,
    List.append_assoc]
  rfl

/-- A folded key with a filter starts with the folded tags. -/
theorem parenthesis?_withFilter {tags : String} (h : ')' ∉ tags.toList) (rest : String) :
    parenthesis? (camel (withFilter tags rest).toList) =
      some (foldedTags tags.toList, camel rest.toList) := by
  rw [camel_withFilter h]
  exact splitAt?_append (camel rest.toList) (camel_tags h).2

/-! ### What does not follow the grammar -/

/-- A text that is more than a line is so behind every other text. -/
theorem line?_append_eq_none {after : List Char} (h : line? after = none) (before : List Char) :
    line? (before ++ after) = none := by
  induction before with
  | nil => exact h
  | cons c before ih =>
      rw [List.cons_append]
      unfold line? at ih ⊢
      rw [Text.splitAt?]
      by_cases hbreak : c = '\n'
      · have hmore : before ++ after ≠ [] := by
          intro hempty
          rw [(List.append_eq_nil_iff.mp hempty).2] at h
          cases h
        simp [hbreak, hmore]
      · have hbeq : (c == '\n') = false := by simpa using hbreak
        rw [hbeq, if_neg Bool.false_ne_true]
        cases hsplit : Text.splitAt? '\n' (before ++ after) with
        | none => simp [hsplit] at ih
        | some parts =>
            obtain ⟨left, right⟩ := parts
            cases right <;> simp [hsplit] at ih ⊢

/-- What is no operand because it is more than a line is none behind every other text. -/
theorem property?_append_eq_none {after : List Char} (hline : line? after = none)
    (h : property? after = none) (before : List Char) : property? (before ++ after) = none := by
  cases before with
  | nil => exact h
  | cons c before =>
      rw [List.cons_append, property?, line?_append_eq_none hline before]
      simp

theorem body?_eq_none_iff {cs : List Char} :
    body? cs = none ↔ property? cs = none ∧
      ∀ assign rest, Text.splitAt? '=' cs = some (assign, rest) → property? rest = none := by
  unfold body?
  cases hsplit : Text.splitAt? '=' cs with
  | none => simp
  | some parts =>
      obtain ⟨assign, rest⟩ := parts
      cases hrest : property? rest <;> simp [hrest]

/-- A text that starts with the read marker does not follow the grammar. -/
theorem body?_readMark (rest : List Char) : body? ('=' :: '=' :: rest) = none := by
  rw [body?_eq_none_iff]
  refine ⟨rfl, fun assign rest' hsplit => ?_⟩
  cases hsplit
  rfl

/-- Another text that does not is more than a line. -/
theorem line?_of_body? {cs : List Char} (h : body? cs = none) (hmark : ¬ readMark <+: cs) :
    line? cs = none := by
  have hoperand : ∀ c rest, c ≠ '=' → property? (c :: rest) = none → line? rest = none := by
    intro c rest hc hnone
    have hbeq : (c == '=') = false := by simpa using hc
    simpa [property?, hbeq] using hnone
  obtain ⟨hproperty, hassign⟩ := body?_eq_none_iff.mp h
  cases cs with
  | nil => cases hproperty
  | cons c rest =>
      by_cases hc : c = '='
      · subst hc
        have hrest : property? rest = none := hassign [] rest rfl
        cases rest with
        | nil => cases hrest
        | cons d rest =>
            have hd : d ≠ '=' := by
              rintro rfl
              exact hmark ⟨rest, rfl⟩
            exact line?_append_eq_none (hoperand d rest hd hrest) ['=', d]
      · exact line?_append_eq_none (hoperand c rest hc hproperty) [c]

/-- A text that is more than a line and does not follow the grammar does not do so behind
any other text. -/
theorem body?_append_eq_none {after : List Char} (hline : line? after = none)
    (h : body? after = none) (before : List Char) : body? (before ++ after) = none := by
  obtain ⟨hproperty, hassign⟩ := body?_eq_none_iff.mp h
  rw [body?_eq_none_iff]
  refine ⟨property?_append_eq_none hline hproperty before, ?_⟩
  induction before with
  | nil => exact hassign
  | cons c before ih =>
      intro assign rest hsplit
      rw [List.cons_append, Text.splitAt?] at hsplit
      by_cases hc : (c == '=') = true
      · rw [if_pos hc] at hsplit
        cases hsplit
        exact property?_append_eq_none hline hproperty before
      · rw [if_neg hc] at hsplit
        obtain ⟨⟨assign', rest'⟩, hbehind, heq⟩ := Option.map_eq_some_iff.mp hsplit
        cases heq
        exact ih _ _ hbehind

/-! ### Parenthesised starts -/

section Parenthesised

variable {cs tags rest : List Char}

/-- What is in parentheses at the start of a text, and what is behind it. -/
theorem parenthesis?_eq_some_iff :
    parenthesis? cs = some (tags, rest) ↔ ')' ∉ tags ∧ cs = '(' :: (tags ++ ')' :: rest) := by
  constructor
  · intro h
    unfold parenthesis? at h
    split at h
    · next inside =>
        obtain ⟨hclosing, rfl⟩ := splitAt?_eq_some_iff.mp h
        exact ⟨hclosing, rfl⟩
    · cases h
  · rintro ⟨hclosing, rfl⟩
    exact splitAt?_append rest hclosing

/-- The start is the filter if the rest follows the grammar. -/
theorem split?_of_body? (h : parenthesis? cs = some (tags, rest))
    {assign property : Option (List Char)} (hbody : body? rest = some (assign, property)) :
    split? cs = some ⟨some tags, assign, property⟩ := by
  unfold split?
  rw [h]
  dsimp only [Option.bind_eq_bind, Option.bind_some]
  rw [hbody]
  rfl

/-- If it does not, the whole text is read. -/
theorem split?_of_body?_eq_none (h : parenthesis? cs = some (tags, rest))
    (hbody : body? rest = none) :
    split? cs = (body? cs).map fun body => Parts.mk none body.1 body.2 := by
  unfold split?
  rw [h]
  dsimp only [Option.bind_eq_bind, Option.bind_some]
  rw [hbody]
  rfl

/-- That gives nothing unless the rest starts with the read marker. -/
theorem split?_eq_none (h : parenthesis? cs = some (tags, rest)) (hbody : body? rest = none)
    (hmark : ¬ readMark <+: rest) : split? cs = none := by
  obtain ⟨-, rfl⟩ := parenthesis?_eq_some_iff.mp h
  have hwhole := body?_append_eq_none (line?_of_body? hbody hmark) hbody ('(' :: (tags ++ [')']))
  rw [List.cons_append, List.append_assoc] at hwhole
  rw [split?_of_body?_eq_none h hbody]
  exact Option.map_eq_none_iff.mpr hwhole

end Parenthesised

/-- The tags at the start of a folded key that are its filter.  In front of the read marker they
are none. -/
def keptTags? (cs : List Char) : Option (List Char) :=
  (parenthesis? cs).bind fun (tags, rest) => if readMark <+: rest then none else some tags

/-- **The filter of a key** is what is kept of its tags. -/
theorem filter_of_split? {cs : List Char} {parts : Parts} (h : split? cs = some parts) :
    parts.filter = keptTags? cs := by
  unfold keptTags?
  cases hparenthesis : parenthesis? cs with
  | none =>
      unfold split? at h
      rw [hparenthesis] at h
      obtain ⟨body, -, rfl⟩ := Option.map_eq_some_iff.mp h
      rfl
  | some start =>
      obtain ⟨tags, rest⟩ := start
      rw [Option.bind_some]
      dsimp only
      cases hbody : body? rest with
      | some body =>
          have hmark : ¬ readMark <+: rest := by
            rintro ⟨behind, rfl⟩
            cases hbody.symm.trans (body?_readMark behind)
          rw [if_neg hmark]
          cases h.symm.trans (split?_of_body? hparenthesis hbody)
          rfl
      | none =>
          have hmark : readMark <+: rest := by
            by_contra hnot
            cases h.symm.trans (split?_eq_none hparenthesis hbody hnot)
          rw [if_pos hmark]
          rw [split?_of_body?_eq_none hparenthesis hbody] at h
          obtain ⟨body, -, rfl⟩ := Option.map_eq_some_iff.mp h
          rfl

theorem filter_of_read? {key : String} {filter : Option (List Char)} {form : Form}
    (h : read? key = some (filter, form)) : filter = keptTags? (camel key.toList) := by
  obtain ⟨parts, hparts, h⟩ := Option.bind_eq_some_iff.mp h
  obtain ⟨form', -, heq⟩ := Option.bind_eq_some_iff.mp h
  cases heq
  exact filter_of_split? hparts

/-! ### Keys with a filter -/

variable {tags : String} (h : ')' ∉ tags.toList) {rest : String}
include h

/-- **A key keeps its filter** if the rest of it follows the grammar, and the rest alone
gives its form. -/
theorem read?_withFilter (hbody : body? (camel rest.toList) ≠ none) :
    read? (withFilter tags rest) =
      (unfiltered? (camel rest.toList)).map fun form => (some (foldedTags tags.toList), form) := by
  obtain ⟨⟨assign, property⟩, hparts⟩ := Option.ne_none_iff_exists'.mp hbody
  have hsplit := split?_of_body? (parenthesis?_withFilter h rest) hparts
  unfold read? unfiltered?
  rw [hsplit, hparts]
  dsimp only [Option.bind_eq_bind, Option.bind_some]
  cases form? (trimmed? assign) (trimmed? property) <;> rfl

/-- A key that has a form has it behind a filter, too. -/
theorem read?_withFilter_of_unfiltered {form : Form}
    (hform : unfiltered? (camel rest.toList) = some form) :
    read? (withFilter tags rest) = some (some (foldedTags tags.toList), form) := by
  have hbody : body? (camel rest.toList) ≠ none := by
    intro hnone
    unfold unfiltered? at hform
    rw [hnone] at hform
    cases hform
  rw [read?_withFilter h hbody, hform]
  rfl

/-- There is no such key if the rest of it neither follows the grammar nor starts with the read
marker. -/
theorem read?_withFilter_eq_none (hbody : body? (camel rest.toList) = none)
    (hmark : ¬ readMark <+: camel rest.toList) : read? (withFilter tags rest) = none := by
  unfold read?
  rw [split?_eq_none (parenthesis?_withFilter h rest) hbody hmark]
  rfl

/-- A key loses its filter if the rest of it does not follow the grammar. -/
theorem read?_withFilter_lost (hbody : body? (camel rest.toList) = none)
    {filter : Option (List Char)} {form : Form}
    (hread : read? (withFilter tags rest) = some (filter, form)) : filter = none := by
  have hmark : readMark <+: camel rest.toList := by
    by_contra hnot
    cases hread.symm.trans (read?_withFilter_eq_none h hbody hnot)
  rw [filter_of_read? hread, keptTags?, parenthesis?_withFilter h]
  exact if_pos hmark

end FeatureKey

/-! ## Entries with a filter -/

namespace Feature

open FeatureKey

/-- A text key fails for its grammar, or because the value on its right cannot be written. -/
theorem parse_key_fault {key : String} {right : Literal} {target : String} {fault : Fault}
    (h : parse (.map [(.str key, right)]) target = .error fault) :
    (∃ why, fault = .malformed why) ∨ (¬ right.Writable ∧ ∃ type, fault = .jsonKey type) := by
  have hsame : (Literal.map [(.str key, right)]).Writable ↔ right.Writable := by
    rw [Literal.writable_map_iff, List.forall_mem_singleton]
  rw [← hsame]
  exact parse_error_cases h

/-- A comment takes its filter as it is written. -/
theorem ofComment_withFilter {tags : String} (h : ')' ∉ tags.toList) (text target : String) :
    ofComment (withFilter tags text) target =
      .ofAction (Filter.skips tags.toList target)
        (.comment (String.ofList (Text.trim text.toList))) := by
  have hparenthesis : parenthesis? (withFilter tags text).toList =
      some (tags.toList, text.toList) := by
    rw [toList_withFilter]
    exact splitAt?_append text.toList h
  unfold ofComment comment
  rw [hparenthesis]
  rfl

/-- **When a key keeps its filter.**  Without underscores the tags count as they are
written.  An entry whose key has these tags is no feature for two reasons only: its
grammar, or a value that cannot be written; it is one if the rest of the key alone is a
key, and the value can be written.  If the rest does not start with the read marker, a
feature is skipped exactly for the targets that the tags exclude, and what it does comes
from the rest alone.  If it does, the parentheses are part of the operand, and a feature
is skipped for no target. -/
theorem filter_kept {tags rest : String} (hclosing : ')' ∉ tags.toList)
    (htags : '_' ∉ tags.toList) (hrest : '_' ∉ rest.toList) (right : Literal) (target : String) :
    (∀ fault, parse (.map [(.str (withFilter tags rest), right)]) target = .error fault →
      (∃ why, fault = .malformed why) ∨ (¬ right.Writable ∧ ∃ type, fault = .jsonKey type)) ∧
    (right.Writable → unfiltered? rest.toList ≠ none →
      ∃ f, parse (.map [(.str (withFilter tags rest), right)]) target = .ok f) ∧
    ∀ f, parse (.map [(.str (withFilter tags rest), right)]) target = .ok f →
      (¬ readMark <+: rest.toList →
        f.skip = Filter.skips tags.toList target ∧
          ∃ form, unfiltered? rest.toList = some form ∧ f.action = actionOf form right) ∧
      (readMark <+: rest.toList → f.skip = false) := by
  have hcamel : Name.camel rest.toList = rest.toList :=
    Name.camel_of_not_mem_dropLast fun hmem => hrest (List.dropLast_subset _ hmem)
  refine ⟨fun fault => parse_key_fault, fun hright hkey => ?_, fun f hparse => ?_⟩
  · obtain ⟨form, hform⟩ := Option.ne_none_iff_exists'.mp hkey
    rw [← hcamel] at hform
    have hread := read?_withFilter_of_unfiltered hclosing hform
    exact ⟨_, parse_key_eq_ok_iff.mpr ⟨_, form, hread, actionOf_writable hright form, rfl⟩⟩
  · obtain ⟨filter, form, hread, -, rfl⟩ := parse_key_eq_ok_iff.mp hparse
    constructor
    · intro hmark
      have hbody : body? (Name.camel rest.toList) ≠ none := by
        intro hnone
        rw [← hcamel] at hmark
        rw [read?_withFilter_eq_none hclosing hnone hmark] at hread
        cases hread
      rw [read?_withFilter hclosing hbody, hcamel, foldedTags_of_not_mem htags] at hread
      obtain ⟨form', hform, heq⟩ := Option.map_eq_some_iff.mp hread
      cases heq
      exact ⟨rfl, form, hform, rfl⟩
    · rintro ⟨behind, hbehind⟩
      have hbody : body? (Name.camel rest.toList) = none := by
        rw [hcamel, ← hbehind]
        exact body?_readMark behind
      rw [read?_withFilter_lost hclosing hbody hread]
      rfl

/-- The filter of an assignment is kept. -/
theorem assignment_filtered :
    ')' ∉ "js".toList ∧ '_' ∉ "js".toList ∧ '_' ∉ "x=foo".toList ∧ ∃ f,
      parse (.map [(.str (withFilter "js" "x=foo"), .scalar (.int 1))]) "py" = .ok f ∧
      f.skip = true ∧ f.action = .read (some "x") "foo" (.scalar (.int 1)) := by
  have hclosing : ')' ∉ "js".toList := by decide
  have htags : '_' ∉ "js".toList := by decide
  have hrest : '_' ∉ "x=foo".toList := by decide
  have hone : unfiltered? "x=foo".toList = some (.operand (some "x") "foo") := by decide +kernel
  obtain ⟨-, hmade, hkept⟩ := filter_kept hclosing htags hrest (.scalar (.int 1)) "py"
  obtain ⟨f, hparse⟩ := hmade rfl (by rw [hone]; exact nofun)
  obtain ⟨hskip, form, hform, haction⟩ := (hkept f hparse).1 (by decide)
  rw [hone] at hform
  cases hform
  exact ⟨hclosing, htags, hrest, f, hparse, hskip.trans (by decide +kernel), haction⟩

/-- A filter is not always kept: with nothing but the read marker behind it, it is what
is read. -/
theorem filter_not_always_kept :
    ¬ ∀ (tags rest : String) (right : Literal) (target : String),
      ')' ∉ tags.toList → '_' ∉ tags.toList → '_' ∉ rest.toList →
      (∃ why, parse (.map [(.str (withFilter tags rest), right)]) target =
        .error (.malformed why)) ∨
      ∃ f, parse (.map [(.str (withFilter tags rest), right)]) target = .ok f ∧
        f.skip = Filter.skips tags.toList target ∧
        ∃ form, unfiltered? rest.toList = some form ∧ f.action = actionOf form right := by
  intro h
  have hread : read? (withFilter "js" "==") = some (none, .read none "(js)") := by decide +kernel
  have hparse : parse (.map [(.str (withFilter "js" "=="), .scalar (.int 1))]) "py" =
      .ok (.ofAction false (.read none "(js)" (.scalar (.int 1)))) :=
    parse_key_eq_ok_iff.mpr ⟨_, _, hread, rfl, rfl⟩
  rcases h "js" "==" (.scalar (.int 1)) "py" (by decide) (by decide) (by decide) with
    ⟨why, hfault⟩ | ⟨f, hf, hskip, -⟩
  · rw [hparse] at hfault
    cases hfault
  · rw [hparse] at hf
    rw [← Except.ok.inj hf] at hskip
    exact absurd hskip (by decide +kernel)

/-- Two entries are skipped for the same targets. -/
def SkipAlike (entry entry' : Literal) : Prop :=
  ∀ target f f', parse entry target = .ok f → parse entry' target = .ok f' → f.skip = f'.skip

/-- **Comments and features read filters alike** up to folding.  A comment is skipped for
the targets that its tags exclude, and a feature with the same tags for those that the
folded tags exclude.  So the two agree on every target exactly if folding leaves the
tags negated or not and keeps the names in them, and they do if there is no underscore. -/
theorem filters_read_alike {tags key : String} (hclosing : ')' ∉ tags.toList) {form : Form}
    (hkey : unfiltered? (Name.camel key.toList) = some form) {right : Literal}
    (hright : right.Writable) (text : String) :
    (∀ target, ∃ comment f,
      parse (.scalar (.str (withFilter tags text))) target = .ok comment ∧
      parse (.map [(.str (withFilter tags key), right)]) target = .ok f ∧
      comment.isComment = true ∧ f.action = actionOf form right ∧
      comment.skip = Filter.skips tags.toList target ∧
      f.skip = Filter.skips (foldedTags tags.toList) target) ∧
    (SkipAlike (.scalar (.str (withFilter tags text))) (.map [(.str (withFilter tags key), right)]) ↔
      Filter.isNegated tags.toList = Filter.isNegated (foldedTags tags.toList) ∧
        ∀ name, name ∈ Filter.names tags.toList ↔ name ∈ Filter.names (foldedTags tags.toList)) ∧
    ('_' ∉ tags.toList →
      SkipAlike (.scalar (.str (withFilter tags text)))
        (.map [(.str (withFilter tags key), right)])) := by
  have hread := read?_withFilter_of_unfiltered hclosing hkey
  have hcomment : ∀ target, parse (.scalar (.str (withFilter tags text))) target =
      .ok (ofComment (withFilter tags text) target) := fun _ => rfl
  have hfeature : ∀ target, parse (.map [(.str (withFilter tags key), right)]) target =
      .ok (.ofAction (Filter.skips (foldedTags tags.toList) target) (actionOf form right)) :=
    fun target => parse_key_eq_ok_iff.mpr
      ⟨some (foldedTags tags.toList), form, hread, actionOf_writable hright form, rfl⟩
  have halike : SkipAlike (.scalar (.str (withFilter tags text)))
      (.map [(.str (withFilter tags key), right)]) ↔
        ∀ target, Filter.skips tags.toList target =
          Filter.skips (foldedTags tags.toList) target := by
    refine forall_congr' fun target => ?_
    rw [hcomment, hfeature, ofComment_withFilter hclosing]
    constructor
    · exact fun h => h _ _ rfl rfl
    · intro h comment f hcomment hfeature
      rw [← Except.ok.inj hcomment, ← Except.ok.inj hfeature]
      exact h
  refine ⟨fun target => ⟨_, _, hcomment target, hfeature target, ?_, rfl, ?_, rfl⟩,
    halike.trans Filter.skips_eq_iff, ?_⟩
  · rw [ofComment_withFilter hclosing]
    rfl
  · rw [ofComment_withFilter hclosing]
    rfl
  · intro htags
    rw [halike, foldedTags_of_not_mem htags]
    exact fun _ => rfl

/-- A comment and a feature for two other targets are both skipped. -/
theorem two_targets_skipped :
    ')' ∉ "rb|js".toList ∧ unfiltered? (Name.camel "foo".toList) = some (.operand none "foo") ∧
      (Literal.scalar (.int 1)).Writable ∧ ∃ comment f,
      parse (.scalar (.str (withFilter "rb|js" "not here"))) "py" = .ok comment ∧
      parse (.map [(.str (withFilter "rb|js" "foo"), .scalar (.int 1))]) "py" = .ok f ∧
      comment.skip = true ∧ f.skip = true := by
  have hclosing : ')' ∉ "rb|js".toList := by decide
  have hkey : unfiltered? (Name.camel "foo".toList) = some (.operand none "foo") := by
    decide +kernel
  have hright : (Literal.scalar (.int 1)).Writable := rfl
  obtain ⟨hboth, -, halike⟩ := filters_read_alike hclosing hkey hright "not here"
  obtain ⟨comment, f, hcomment, hfeature, -, -, hskip, -⟩ := hboth "py"
  have hskipped : comment.skip = true := hskip.trans (by decide +kernel)
  exact ⟨hclosing, hkey, hright, comment, f, hcomment, hfeature, hskipped,
    (halike (by decide) "py" comment f hcomment hfeature).symm.trans hskipped⟩

/-- They do not always: the target `my_target` is in the tags of the comment, and
`myTarget` in those of the feature. -/
theorem filters_not_always_read_alike :
    ¬ ∀ (tags text key : String) (right : Literal), ')' ∉ tags.toList →
      unfiltered? (Name.camel key.toList) ≠ none →
      SkipAlike (.scalar (.str (withFilter tags text)))
        (.map [(.str (withFilter tags key), right)]) := by
  intro h
  have hread : read? (withFilter "my_target" "foo") =
      some (some "myTarget".toList, .operand none "foo") := by decide +kernel
  have hfeature : parse (.map [(.str (withFilter "my_target" "foo"), .scalar (.int 1))])
      "my_target" = .ok (.ofAction (Filter.skips "myTarget".toList "my_target")
        (.read none "foo" (.scalar (.int 1)))) :=
    parse_key_eq_ok_iff.mpr ⟨_, _, hread, rfl, rfl⟩
  have hskip := h "my_target" "here" "foo" (.scalar (.int 1)) (by decide) (by decide +kernel)
    "my_target" _ _ rfl hfeature
  rw [ofComment_withFilter (by decide)] at hskip
  exact absurd hskip (by decide +kernel)

end Feature

end Conformance
