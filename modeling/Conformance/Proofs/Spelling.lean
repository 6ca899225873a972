import Conformance.Proofs.CaseImages
import Mathlib.Data.List.Basic

/-!
# Names that are found under their own spelling

A key spells a name camel-style: `spelled` is what the name becomes as the
beginning of a key.  The spelling loses every underscore; looking the name up
puts one back at each word border.  The two undo each other for the names of
`SpellsBack`: those without underscores, and those in lower case whose every
underscore stands between two words that the border rule can tell apart.

`mem_spellings_iff` shows that no other name is found.  The argument counts
underscores: the spelling drops one for each fold, so the borders must give back
as many, and each fold gives at most one.  Comparing lengths then leaves no room
for a character whose image is longer than itself, and the two texts can be
compared character by character.
-/

namespace Conformance.Name

open Text

/-! ## The spelling of a name in a key -/

/-- The camel-style spelling of a name that stands at the beginning of a key.  An
underscore at its end is folded with what follows. -/
def spelledChars : List Char → List Char
  | [] => []
  | [c] => if c = '_' then [] else [c]
  | c :: d :: rest =>
    if c = '_' then upperChar d ++ spelledChars rest else c :: spelledChars (d :: rest)

/-- The name that a key spells. -/
def spelled (name : String) : String := String.ofList (spelledChars name.toList)

/-- Number of underscores that are folded away. -/
def folds : List Char → Nat
  | [] => 0
  | [c] => if c = '_' then 1 else 0
  | c :: d :: rest => if c = '_' then folds rest + 1 else folds (d :: rest)

/-- The name with the character behind each folded underscore in upper case. -/
def raised : List Char → List Char
  | [] => []
  | [c] => [c]
  | c :: d :: rest => if c = '_' then '_' :: upperChar d ++ raised rest else c :: raised (d :: rest)

/-- Every underscore stands between a lower-case ASCII letter or digit that does
not itself follow an underscore, and a lower-case ASCII letter. -/
def separated (ends : Bool) : List Char → Bool
  | [] => true
  | [c] => c != '_'
  | c :: d :: rest =>
    if c = '_' then ends && isAsciiLower d && separated false rest
    else separated (endsWord c) (d :: rest)

/-- A name without underscores, or one in lower case whose underscores separate
words. -/
def SpellsBack (name : String) : Prop :=
  '_' ∉ name.toList ∨
    (name.toList.head?.any isLower = true ∧ lower name.toList = name.toList ∧
      separated false name.toList = true)

instance (name : String) : Decidable (SpellsBack name) :=
  inferInstanceAs (Decidable (_ ∨ _))

/-- A line break is white space and so not plain. -/
theorem ne_newline {c : Char} (h : isPlainChar c = true) : (c == '\n') = false := by
  cases heq : c == '\n' with
  | false => rfl
  | true =>
      obtain rfl := eq_of_beq heq
      cases h

/-- A text of plain characters is spelled in a key as `spelledChars` says. -/
theorem camel_append_mark {cs : List Char} (hplain : ∀ c ∈ cs, isPlainChar c = true) :
    camel (cs ++ ['=', '=']) = spelledChars cs ++ ['=', '='] := by
  induction cs using spelledChars.induct with
  | case1 => rfl
  | case2 => rfl
  | case3 c hc =>
      have hbeq : (c == '_') = false := by simpa using hc
      simp [spelledChars, camel, hc, hbeq]
  | case4 d rest ih =>
      have hd : (d == '\n') = false := ne_newline (hplain d (by simp))
      have hrest := ih fun c hmem => hplain c (by simp [hmem])
      simp [spelledChars, camel, hd, hrest]
  | case5 c d rest hc ih =>
      have hbeq : (c == '_') = false := by simpa using hc
      have hrest := ih fun c hmem => hplain c (by simp [hmem])
      rw [List.cons_append] at hrest
      simp [spelledChars, camel, hc, hbeq, hrest]

/-- A name without an underscore at its end is spelled alone as in a key. -/
theorem camel_eq_spelledChars {cs : List Char} (hplain : ∀ c ∈ cs, isPlainChar c = true)
    (hlast : cs.getLast? ≠ some '_') : camel cs = spelledChars cs := by
  induction cs using spelledChars.induct with
  | case1 => rfl
  | case2 => exact absurd rfl hlast
  | case3 c hc => simp [spelledChars, camel, hc]
  | case4 d rest ih =>
      have hd : (d == '\n') = false := ne_newline (hplain d (by simp))
      have hrest : rest.getLast? ≠ some '_' := by
        cases rest with
        | nil => nofun
        | cons e rest => exact hlast
      have hcamel := ih (fun c hmem => hplain c (by simp [hmem])) hrest
      simp [spelledChars, camel, hd, hcamel]
  | case5 c d rest hc ih =>
      have hbeq : (c == '_') = false := by simpa using hc
      have hcamel := ih (fun c hmem => hplain c (by simp [hmem])) hlast
      simp [spelledChars, camel, hc, hbeq, hcamel]

/-- Separated words leave no underscore at the end. -/
theorem getLast?_of_separated {cs : List Char} {ends : Bool} (h : separated ends cs = true) :
    cs.getLast? ≠ some '_' := by
  induction cs using spelledChars.induct generalizing ends with
  | case1 => nofun
  | case2 => simp [separated] at h
  | case3 c hc => simpa using hc
  | case4 d rest ih =>
      simp only [separated, if_true, Bool.and_eq_true] at h
      cases rest with
      | nil =>
          intro hlast
          obtain rfl : d = '_' := Option.some.inj hlast
          exact absurd h.1.2 (by decide)
      | cons e rest => exact ih h.2
  | case5 c d rest hc ih =>
      simp only [separated, if_neg hc] at h
      exact ih h

theorem camel_of_separated {cs : List Char} {ends : Bool} (hplain : ∀ c ∈ cs, isPlainChar c = true)
    (h : separated ends cs = true) : camel cs = spelledChars cs :=
  camel_eq_spelledChars hplain (getLast?_of_separated h)

/-- A name without underscores is spelled as it is written. -/
theorem spelledChars_of_not_mem {cs : List Char} (h : '_' ∉ cs) : spelledChars cs = cs := by
  induction cs using spelledChars.induct with
  | case1 => rfl
  | case2 => simp at h
  | case3 c hc => simp [spelledChars, hc]
  | case4 d rest ih => simp at h
  | case5 c d rest hc ih =>
      have hrest := ih fun hmem => h (List.mem_cons_of_mem _ hmem)
      simp [spelledChars, hc, hrest]

/-- The image of a plain character is plain. -/
theorem upperChar_plain {d : Char} (hd : isPlainChar d = true) :
    ∀ c ∈ upperChar d, isPlainChar c = true := by
  by_cases hunderscore : d = '_'
  · subst hunderscore
    have himage : upperChar '_' = ['_'] := rfl
    rw [himage]
    simpa using hd
  · exact (upperChar_raised hd hunderscore).plain

/-- Only the image of an underscore has one. -/
theorem count_upperChar {d : Char} (hd : isPlainChar d = true) :
    (upperChar d).count '_' = if d = '_' then 1 else 0 := by
  by_cases hunderscore : d = '_'
  · subst hunderscore
    rfl
  · rw [if_neg hunderscore]
    exact List.count_eq_zero.mpr (upperChar_raised hd hunderscore).underscore

/-- The spelling of plain characters has none that is not plain. -/
theorem spelledChars_plain {cs : List Char} (hplain : ∀ c ∈ cs, isPlainChar c = true) :
    ∀ c ∈ spelledChars cs, isPlainChar c = true := by
  induction cs using spelledChars.induct with
  | case1 => intro c hc; cases hc
  | case2 => intro c hc; cases hc
  | case3 c hc => simpa [spelledChars, hc] using hplain
  | case4 d rest ih =>
      intro c hmem
      simp only [spelledChars, if_true, List.mem_append] at hmem
      rcases hmem with hleft | hright
      · exact upperChar_plain (hplain d (by simp)) c hleft
      · exact ih (fun c hc => hplain c (by simp [hc])) c hright
  | case5 c d rest hc ih =>
      intro e hmem
      simp only [spelledChars, if_neg hc, List.mem_cons] at hmem
      rcases hmem with rfl | hright
      · exact hplain _ (by simp)
      · exact ih (fun c hc => hplain c (by simp [hc])) e hright

/-! ## Counting underscores -/

/-- Each fold drops one underscore. -/
theorem count_spelledChars {cs : List Char} (hplain : ∀ c ∈ cs, isPlainChar c = true) :
    (spelledChars cs).count '_' + folds cs = cs.count '_' := by
  induction cs using spelledChars.induct with
  | case1 => rfl
  | case2 => rfl
  | case3 c hc => simp [spelledChars, folds, hc]
  | case4 d rest ih =>
      have hrest := ih fun c hc => hplain c (by simp [hc])
      have himage := count_upperChar (hplain d (by simp))
      simp only [spelledChars, folds, if_true, List.count_append, himage, List.count_cons,
        beq_iff_eq]
      split <;> omega
  | case5 c d rest hc ih =>
      have hrest := ih fun c hc => hplain c (by simp [hc])
      simp only [spelledChars, folds, if_neg hc, List.count_cons_of_ne hc]
      exact hrest

/-- A name with an underscore has a fold. -/
theorem folds_pos {cs : List Char} (h : '_' ∈ cs) : 0 < folds cs := by
  induction cs using spelledChars.induct with
  | case1 => cases h
  | case2 => simp [folds]
  | case3 c hc => simp [Ne.symm hc] at h
  | case4 d rest ih => simp [folds]
  | case5 c d rest hc ih =>
      simp only [folds, if_neg hc]
      rcases List.mem_cons.mp h with heq | hrest
      · exact absurd heq.symm hc
      · exact ih hrest

/-! ## Word borders -/

/-- Borders marked in a text whose last character before may end a word. -/
def borderedAfter (ends : Bool) : List Char → List Char
  | [] => []
  | c :: rest =>
    if ends && isAsciiUpper c then '_' :: c :: borderedAfter (endsWord c) rest
    else c :: borderedAfter (endsWord c) rest

/-- Number of borders in such a text. -/
def borders (ends : Bool) : List Char → Nat
  | [] => 0
  | c :: rest => (if ends && isAsciiUpper c then 1 else 0) + borders (endsWord c) rest

theorem bordered_eq (cs : List Char) : bordered cs = borderedAfter false cs := by
  have hcons : ∀ (rest : List Char) (c : Char),
      bordered (c :: rest) = c :: borderedAfter (endsWord c) rest := by
    intro rest
    induction rest with
    | nil => exact fun c => rfl
    | cons d rest ih =>
        intro c
        simp only [bordered, borderedAfter]
        split
        · rw [ih d]
        · rw [ih d]
  cases cs with
  | nil => rfl
  | cons c rest => simp [hcons, borderedAfter]

/-- Each border adds one underscore. -/
theorem count_borderedAfter (ends : Bool) (cs : List Char) :
    (borderedAfter ends cs).count '_' = cs.count '_' + borders ends cs := by
  induction cs generalizing ends with
  | nil => rfl
  | cons c rest ih =>
      simp only [borderedAfter, borders]
      split
      · simp only [List.count_cons, ih]
        simp only [beq_self_eq_true, if_true]
        omega
      · simp only [List.count_cons, ih]
        omega

theorem length_borderedAfter (ends : Bool) (cs : List Char) :
    (borderedAfter ends cs).length = cs.length + borders ends cs := by
  induction cs generalizing ends with
  | nil => rfl
  | cons c rest ih =>
      simp only [borderedAfter, borders]
      split
      · simp only [List.length_cons, ih]
        omega
      · simp only [List.length_cons, ih]
        omega

/-- What ends a text decides whether the next character can make a border. -/
def endsAfter (ends : Bool) (cs : List Char) : Bool :=
  match cs.getLast? with
  | none => ends
  | some c => endsWord c

theorem endsAfter_cons (ends : Bool) (c : Char) (rest : List Char) :
    endsAfter ends (c :: rest) = endsAfter (endsWord c) rest := by
  unfold endsAfter
  cases rest with
  | nil => rfl
  | cons d rest => rw [List.getLast?_cons_cons]; cases h : (d :: rest).getLast? with
    | none => simp at h
    | some e => rfl

theorem borderedAfter_append (ends : Bool) (cs ds : List Char) :
    borderedAfter ends (cs ++ ds) = borderedAfter ends cs ++ borderedAfter (endsAfter ends cs) ds := by
  induction cs generalizing ends with
  | nil => rfl
  | cons c rest ih =>
      simp only [List.cons_append, borderedAfter, endsAfter_cons, ih]
      split <;> rfl

theorem borders_append (ends : Bool) (cs ds : List Char) :
    borders ends (cs ++ ds) = borders ends cs + borders (endsAfter ends cs) ds := by
  induction cs generalizing ends with
  | nil => simp [borders, endsAfter]
  | cons c rest ih =>
      simp only [List.cons_append, borders, endsAfter_cons, ih]
      omega

/-- An image has a border in front of it or none. -/
theorem borders_image {image : List Char} (h : Raised image) (ends : Bool) :
    borders ends image = if ends && (image.head?.any isAsciiUpper) then 1 else 0 := by
  have hinner := congrArg List.length h.border
  rw [bordered_eq, length_borderedAfter] at hinner
  cases image with
  | nil => exact absurd rfl h.ne_nil
  | cons c rest =>
      simp only [borders] at hinner ⊢
      have hrest : borders (endsWord c) rest = 0 := by omega
      rw [hrest]
      rfl

/-! ## Lower case -/

/-- Lower case of one character in a text. -/
theorem lowerAfter_cons (before : List Char) {c : Char} (rest : List Char) (h : c ≠ capitalSigma) :
    lowerAfter before (c :: rest) = lowerChar c ++ lowerAfter (c :: before) rest := by
  have hbeq : (c == capitalSigma) = false := by simpa using h
  simp [lowerAfter, hbeq]

/-- The image of each character in a text, whatever stands around it: an
underscore stays, and any other character has an image without underscores,
capitals of ASCII or a capital sigma. -/
theorem lowerAfter_image (before : List Char) (c : Char) (rest : List Char) :
    ∃ image, lowerAfter before (c :: rest) = image ++ lowerAfter (c :: before) rest ∧
      (c = '_' ∧ image = ['_'] ∨ c ≠ '_' ∧ Lowered image) := by
  by_cases hσ : c = capitalSigma
  · subst hσ
    refine ⟨[if casedNext before && !casedNext rest then 'ς' else 'σ'], by simp [lowerAfter],
      Or.inr ⟨by decide, ?_⟩⟩
    split
    · decide
    · decide
  · refine ⟨lowerChar c, lowerAfter_cons before rest hσ, ?_⟩
    by_cases hc : c = '_'
    · subst hc
      exact Or.inl ⟨rfl, rfl⟩
    · exact Or.inr ⟨hc, lowerChar_lowered hc hσ⟩

/-- Lower case keeps the number of underscores. -/
theorem count_lowerAfter (before cs : List Char) :
    (lowerAfter before cs).count '_' = cs.count '_' := by
  induction cs generalizing before with
  | nil => rfl
  | cons c rest ih =>
      obtain ⟨image, heq, himage⟩ := lowerAfter_image before c rest
      rw [heq, List.count_append, ih]
      rcases himage with ⟨rfl, rfl⟩ | ⟨hc, hlowered⟩
      · simp only [List.count_cons, List.count_nil]
        omega
      · rw [List.count_eq_zero.mpr hlowered.underscore, List.count_cons_of_ne hc]
        omega

/-- A lower-case text has no capital of ASCII and no capital sigma. -/
theorem lowerAfter_letters (before cs : List Char) :
    ∀ c ∈ lowerAfter before cs, isAsciiUpper c = false ∧ c ≠ capitalSigma := by
  induction cs generalizing before with
  | nil => intro c hc; cases hc
  | cons d rest ih =>
      intro c hc
      obtain ⟨image, heq, himage⟩ := lowerAfter_image before d rest
      rw [heq] at hc
      rcases List.mem_append.mp hc with hleft | hright
      · rcases himage with ⟨rfl, rfl⟩ | ⟨-, hlowered⟩
        · obtain rfl := List.mem_singleton.mp hleft
          exact ⟨rfl, by decide⟩
        · refine ⟨hlowered.capital c hleft, ?_⟩
          intro heq
          obtain rfl := heq
          exact hlowered.sigma hleft
      · exact ih _ c hright

/-- Lower case makes no text shorter. -/
theorem length_le_lowerAfter (before cs : List Char) :
    cs.length ≤ (lowerAfter before cs).length := by
  induction cs generalizing before with
  | nil => exact Nat.le_refl 0
  | cons c rest ih =>
      obtain ⟨image, heq, himage⟩ := lowerAfter_image before c rest
      have hrest := ih (c :: before)
      have hpos : 0 < image.length := by
        rcases himage with ⟨-, rfl⟩ | ⟨-, hlowered⟩
        · exact Nat.one_pos
        · exact List.length_pos_iff.mpr hlowered.ne_nil
      rw [heq, List.length_append, List.length_cons]
      omega

/-- If a text of at least a given length follows an image that is not empty, and
both together are a character before a text of that length, then the image is
that character. -/
private theorem split_image {image more rest : List Char} {c : Char} (hne : image ≠ [])
    (hlength : rest.length ≤ more.length) (h : image ++ more = c :: rest) :
    image = [c] ∧ more = rest := by
  have htotal := congrArg List.length h
  rw [List.length_append, List.length_cons] at htotal
  have hpos := List.length_pos_iff.mpr hne
  have hone : image.length = 1 := by omega
  obtain ⟨d, rfl⟩ := List.length_eq_one_iff.mp hone
  rw [List.singleton_append, List.cons.injEq] at h
  exact ⟨congrArg (fun e => [e]) h.1, h.2⟩

/-- A text is in lower case exactly when each of its characters is. -/
theorem lowerAfter_eq_self_iff (before cs : List Char) :
    lowerAfter before cs = cs ↔ ∀ c ∈ cs, c ≠ capitalSigma ∧ lowerChar c = [c] := by
  constructor
  · intro h
    induction cs generalizing before with
    | nil => intro c hc; cases hc
    | cons c rest ih =>
        have hσ : c ≠ capitalSigma :=
          (lowerAfter_letters before (c :: rest) c (by rw [h]; exact List.mem_cons_self)).2
        have hcons := lowerAfter_cons before rest hσ
        have hne : lowerChar c ≠ [] := by
          by_cases hc : c = '_'
          · subst hc
            exact List.cons_ne_nil _ _
          · exact (lowerChar_lowered hc hσ).ne_nil
        obtain ⟨himage, hrest⟩ := split_image hne (length_le_lowerAfter (c :: before) rest)
          (hcons ▸ h)
        intro d hd
        rcases List.mem_cons.mp hd with rfl | hmem
        · exact ⟨hσ, himage⟩
        · exact ih (c :: before) hrest d hmem
  · intro h
    induction cs generalizing before with
    | nil => rfl
    | cons c rest ih =>
        obtain ⟨hσ, himage⟩ := h c List.mem_cons_self
        rw [lowerAfter_cons before rest hσ, himage,
          ih (c :: before) fun d hd => h d (List.mem_cons_of_mem _ hd)]
        rfl

/-- A character in lower case is no capital of ASCII. -/
theorem not_isAsciiUpper_of_lower {c : Char} (hσ : c ≠ capitalSigma) (h : lowerChar c = [c]) :
    isAsciiUpper c = false := by
  by_cases hc : c = '_'
  · subst hc
    rfl
  · exact (lowerChar_lowered hc hσ).capital c (by rw [h]; exact List.mem_singleton_self c)

/-! ## There and back -/

/-- Lower-case names with separated words are found back. -/
theorem lowerAfter_borderedAfter {cs : List Char} (ends : Bool) (before : List Char)
    (hlower : ∀ c ∈ cs, c ≠ capitalSigma ∧ lowerChar c = [c]) (h : separated ends cs = true) :
    lowerAfter before (borderedAfter ends (spelledChars cs)) = cs := by
  induction cs using spelledChars.induct generalizing ends before with
  | case1 => rfl
  | case2 => simp [separated] at h
  | case3 c hc =>
      obtain ⟨hσ, himage⟩ := hlower c List.mem_cons_self
      have hupper := not_isAsciiUpper_of_lower hσ himage
      rw [spelledChars, if_neg hc]
      simp only [borderedAfter, hupper, Bool.and_false, Bool.false_eq_true, if_false]
      rw [lowerAfter_cons before [] hσ, himage]
      rfl
  | case4 d rest ih =>
      simp only [separated, if_true, Bool.and_eq_true] at h
      obtain ⟨⟨rfl, hd⟩, hrest⟩ := h
      obtain ⟨c, himage, hupper, hback, hends⟩ := upperChar_of_isAsciiLower hd
      have hσ : c ≠ capitalSigma := by
        intro heq
        obtain rfl := heq
        cases hupper
      rw [spelledChars, if_pos rfl, himage]
      simp only [List.singleton_append, borderedAfter, hupper, Bool.and_self, if_true, hends]
      rw [lowerAfter_cons before _ (by decide), lowerAfter_cons _ _ hσ, hback,
        ih false _ (fun c hc => hlower c (by simp [hc])) hrest]
      rfl
  | case5 c d rest hc ih =>
      obtain ⟨hσ, himage⟩ := hlower c List.mem_cons_self
      have hupper := not_isAsciiUpper_of_lower hσ himage
      simp only [separated, if_neg hc] at h
      rw [spelledChars, if_neg hc]
      simp only [borderedAfter, hupper, Bool.and_false, Bool.false_eq_true, if_false]
      rw [lowerAfter_cons before _ hσ, himage,
        ih (endsWord c) _ (fun c hc => hlower c (List.mem_cons_of_mem _ hc)) h]
      rfl

/-- Every fold has a border in its place. -/
def bordersAtFolds (ends : Bool) : List Char → Prop
  | [] => True
  | [c] => c ≠ '_'
  | c :: d :: rest =>
    if c = '_' then
      ends = true ∧ (upperChar d).head?.any isAsciiUpper = true ∧
        bordersAtFolds (endsAfter ends (upperChar d)) rest
    else bordersAtFolds (endsWord c) (d :: rest)

/-- Without capitals of ASCII there are at most as many borders as folds, and if
there are as many, each fold has one. -/
theorem borders_le_folds {cs : List Char} (ends : Bool) (hplain : ∀ c ∈ cs, isPlainChar c = true)
    (hsmall : ∀ c ∈ cs, isAsciiUpper c = false) :
    borders ends (spelledChars cs) ≤ folds cs ∧
      (borders ends (spelledChars cs) = folds cs → bordersAtFolds ends cs) := by
  induction cs using spelledChars.induct generalizing ends with
  | case1 => exact ⟨Nat.le_refl 0, fun _ => trivial⟩
  | case2 =>
      refine ⟨Nat.zero_le _, fun h => ?_⟩
      cases h
  | case3 c hc =>
      have hupper := hsmall c List.mem_cons_self
      simp [spelledChars, borders, folds, hc, hupper, bordersAtFolds]
  | case4 d rest ih =>
      have hrest := ih (endsAfter ends (upperChar d)) (fun c hc => hplain c (by simp [hc]))
        (fun c hc => hsmall c (by simp [hc]))
      have himage : borders ends (upperChar d) =
          if ends && (upperChar d).head?.any isAsciiUpper then 1 else 0 := by
        by_cases hunderscore : d = '_'
        · subst hunderscore
          cases ends <;> rfl
        · exact borders_image (upperChar_raised (hplain d (by simp)) hunderscore) ends
      rw [spelledChars, if_pos rfl, borders_append, himage, folds, if_pos rfl]
      constructor
      · split
        · omega
        · omega
      · intro h
        have hall : (ends && (upperChar d).head?.any isAsciiUpper) = true ∧
            borders (endsAfter ends (upperChar d)) (spelledChars rest) = folds rest := by
          split at h
          · next hborder => exact ⟨hborder, by omega⟩
          · omega
        obtain ⟨hborder, hequal⟩ := hall
        rw [Bool.and_eq_true] at hborder
        rw [bordersAtFolds, if_pos rfl]
        exact ⟨hborder.1, hborder.2, hrest.2 hequal⟩
  | case5 c d rest hc ih =>
      have hupper := hsmall c List.mem_cons_self
      have hrest := ih (endsWord c) (fun c hc => hplain c (List.mem_cons_of_mem _ hc))
        (fun c hc => hsmall c (List.mem_cons_of_mem _ hc))
      simp only [spelledChars, if_neg hc, borders, hupper, Bool.and_false, Bool.false_eq_true,
        if_false, Nat.zero_add, folds, bordersAtFolds]
      exact hrest

/-- The border in front of an image. -/
private theorem borderedAfter_image {image : List Char} (h : Raised image)
    (hhead : image.head?.any isAsciiUpper = true) :
    borderedAfter true image = '_' :: image := by
  have hinner := h.border
  rw [bordered_eq] at hinner
  cases image with
  | nil => cases hhead
  | cons c rest =>
      have hupper : isAsciiUpper c = true := hhead
      simp only [borderedAfter, Bool.false_and, Bool.false_eq_true, if_false] at hinner
      simp only [borderedAfter, hupper, Bool.and_self, if_true, hinner]

/-- A fold with a border is not that of a second underscore. -/
private theorem ne_underscore_of_border {d : Char}
    (h : (upperChar d).head?.any isAsciiUpper = true) : d ≠ '_' := by
  intro heq
  obtain rfl := heq
  cases h

/-- With a border at each fold, marking the borders gives the name with only the
folded letters changed. -/
theorem borderedAfter_eq_raised {cs : List Char} (ends : Bool)
    (hplain : ∀ c ∈ cs, isPlainChar c = true) (hsmall : ∀ c ∈ cs, isAsciiUpper c = false)
    (h : bordersAtFolds ends cs) : borderedAfter ends (spelledChars cs) = raised cs := by
  induction cs using spelledChars.induct generalizing ends with
  | case1 => rfl
  | case2 => exact absurd rfl h
  | case3 c hc =>
      simp [spelledChars, borderedAfter, raised, hc, hsmall c List.mem_cons_self]
  | case4 d rest ih =>
      rw [bordersAtFolds, if_pos rfl] at h
      obtain ⟨rfl, hhead, hrest⟩ := h
      have hraised := upperChar_raised (hplain d (by simp)) (ne_underscore_of_border hhead)
      rw [spelledChars, if_pos rfl, borderedAfter_append, borderedAfter_image hraised hhead,
        ih _ (fun c hc => hplain c (by simp [hc])) (fun c hc => hsmall c (by simp [hc])) hrest,
        raised, if_pos rfl]
  | case5 c d rest hc ih =>
      rw [bordersAtFolds, if_neg hc] at h
      have hrest := ih (endsWord c) (fun c hc => hplain c (List.mem_cons_of_mem _ hc))
        (fun c hc => hsmall c (List.mem_cons_of_mem _ hc)) h
      simp only [spelledChars, if_neg hc, borderedAfter, hsmall c List.mem_cons_self,
        Bool.and_false, Bool.false_eq_true, if_false, raised, hrest]

/-- The changed name is at least as long as the name. -/
private theorem length_le_raised {cs : List Char} (ends : Bool)
    (hplain : ∀ c ∈ cs, isPlainChar c = true) (h : bordersAtFolds ends cs) :
    cs.length ≤ (raised cs).length := by
  induction cs using spelledChars.induct generalizing ends with
  | case1 => exact Nat.le_refl 0
  | case2 => exact Nat.le_refl 1
  | case3 c hc => exact Nat.le_refl 1
  | case4 d rest ih =>
      rw [bordersAtFolds, if_pos rfl] at h
      obtain ⟨-, hhead, hrest⟩ := h
      have hraised := upperChar_raised (hplain d (by simp)) (ne_underscore_of_border hhead)
      have hpos := List.length_pos_iff.mpr hraised.ne_nil
      have hmore := ih _ (fun c hc => hplain c (by simp [hc])) hrest
      simp only [raised, if_true, List.cons_append, List.length_cons, List.length_append]
      omega
  | case5 c d rest hc ih =>
      rw [bordersAtFolds, if_neg hc] at h
      have hmore := ih (endsWord c) (fun c hc => hplain c (List.mem_cons_of_mem _ hc)) h
      simp only [raised, if_neg hc, List.length_cons] at hmore ⊢
      omega

/-- If the changed name gives the name in lower case, the name is in lower case
and its words are separated. -/
theorem separated_of_lowerAfter_raised {cs : List Char} (ends : Bool) (before : List Char)
    (hplain : ∀ c ∈ cs, isPlainChar c = true) (h : bordersAtFolds ends cs)
    (hback : lowerAfter before (raised cs) = cs) :
    separated ends cs = true ∧ ∀ c ∈ cs, c ≠ capitalSigma ∧ lowerChar c = [c] := by
  induction cs using spelledChars.induct generalizing ends before with
  | case1 => exact ⟨rfl, fun c hc => by cases hc⟩
  | case2 => exact absurd rfl h
  | case3 c hc =>
      refine ⟨by simpa [separated] using hc, ?_⟩
      exact (lowerAfter_eq_self_iff before [c]).mp hback
  | case4 d rest ih =>
      rw [bordersAtFolds, if_pos rfl] at h
      obtain ⟨rfl, hhead, hrest⟩ := h
      have hplain' : ∀ c ∈ rest, isPlainChar c = true := fun c hc => hplain c (by simp [hc])
      have hraised := upperChar_raised (hplain d (by simp)) (ne_underscore_of_border hhead)
      rw [raised, if_pos rfl, List.cons_append, lowerAfter_cons before _ (by decide)] at hback
      -- The image of the folded letter, and of it alone, is what the letter comes from.
      cases himage : upperChar d with
      | nil => exact absurd himage hraised.ne_nil
      | cons c more =>
          rw [himage] at hback hhead hrest
          have hupper : isAsciiUpper c = true := hhead
          obtain ⟨e, hlower, hsmall, hup⟩ := lowerChar_of_isAsciiUpper hupper
          have hσ : c ≠ capitalSigma := by
            intro heq
            obtain rfl := heq
            cases hupper
          rw [List.cons_append, lowerAfter_cons _ _ hσ, hlower, lowerChar_underscore,
            List.singleton_append, List.singleton_append] at hback
          obtain ⟨hletter, htail⟩ := List.cons.inj (List.cons.inj hback).2
          subst hletter
          have hmore : more = [] := by
            rw [himage] at hup
            exact (List.cons.inj hup).2
          subst hmore
          have hends : endsAfter true [c] = false := by
            obtain ⟨c', hup', -, -, hends⟩ := upperChar_of_isAsciiLower hsmall
            rw [himage] at hup'
            obtain rfl := List.singleton_inj.mp hup'
            exact hends
          rw [hends] at hrest
          obtain ⟨hseparated, hall⟩ := ih false _ hplain' hrest htail
          refine ⟨by simp [separated, hsmall, hseparated], ?_⟩
          intro x hx
          simp only [List.mem_cons] at hx
          rcases hx with rfl | rfl | hmem
          · exact ⟨by decide, rfl⟩
          · exact lowerChar_of_isAsciiLower hsmall
          · exact hall x hmem
  | case5 c d rest hc ih =>
      rw [bordersAtFolds, if_neg hc] at h
      have hplain' : ∀ e ∈ d :: rest, isPlainChar e = true :=
        fun e he => hplain e (List.mem_cons_of_mem _ he)
      have hσ : c ≠ capitalSigma :=
        (lowerAfter_letters before (raised (c :: d :: rest)) c
          (by rw [hback]; exact List.mem_cons_self)).2
      rw [raised, if_neg hc, lowerAfter_cons before _ hσ] at hback
      have hlength := Nat.le_trans (length_le_raised (endsWord c) hplain' h)
        (length_le_lowerAfter (c :: before) (raised (d :: rest)))
      obtain ⟨himage, hback⟩ := split_image (lowerChar_lowered hc hσ).ne_nil hlength hback
      obtain ⟨hseparated, hall⟩ := ih (endsWord c) _ hplain' h hback
      refine ⟨by rw [separated, if_neg hc]; exact hseparated, ?_⟩
      intro x hx
      rcases List.mem_cons.mp hx with rfl | hmem
      · exact ⟨hσ, himage⟩
      · exact hall x hmem

/-- **There and back.**  Marking the borders of the spelling in lower case gives
the name again exactly for the names in lower case with separated words. -/
theorem snake_spelledChars_iff {cs : List Char} (hplain : ∀ c ∈ cs, isPlainChar c = true) :
    snake (spelledChars cs) = cs ↔ lower cs = cs ∧ separated false cs = true := by
  unfold snake lower
  rw [bordered_eq]
  constructor
  · intro h
    have hsmall : ∀ c ∈ cs, isAsciiUpper c = false := by
      intro c hc
      rw [← h] at hc
      exact (lowerAfter_letters _ _ c hc).1
    have hcount : borders false (spelledChars cs) = folds cs := by
      have hback := congrArg (List.count '_') h
      rw [count_lowerAfter, count_borderedAfter, ← count_spelledChars hplain] at hback
      omega
    have hborders := (borders_le_folds false hplain hsmall).2 hcount
    rw [borderedAfter_eq_raised false hplain hsmall hborders] at h
    obtain ⟨hseparated, hall⟩ := separated_of_lowerAfter_raised false [] hplain hborders h
    exact ⟨(lowerAfter_eq_self_iff [] cs).mpr hall, hseparated⟩
  · intro h
    obtain ⟨hlower, hseparated⟩ := h
    exact lowerAfter_borderedAfter false [] ((lowerAfter_eq_self_iff [] cs).mp hlower) hseparated

/-! ## Names of members -/

/-- A name of plain characters that does not start with an underscore.  Every
identifier without an underscore in front is one. -/
structure IsPlain (name : String) : Prop where
  start : ∃ c rest, name.toList = c :: rest ∧ c ≠ '_'
  plain : ∀ c ∈ name.toList, isPlainChar c = true

theorem IsPlain.spelled_toList {name : String} (h : IsPlain name) :
    ∃ c rest, name.toList.head? = some c ∧ (spelled name).toList = c :: rest ∧
      isPlainChar c = true := by
  obtain ⟨c, rest, hname, hc⟩ := h.start
  have hplain := h.plain c (by rw [hname]; exact List.mem_cons_self)
  have hspelled : ∃ more, spelledChars name.toList = c :: more := by
    rw [hname]
    cases rest with
    | nil => exact ⟨[], by simp [spelledChars, hc]⟩
    | cons d rest => exact ⟨spelledChars (d :: rest), by simp [spelledChars, hc]⟩
  obtain ⟨more, hmore⟩ := hspelled
  exact ⟨c, more, by rw [hname]; rfl, by rw [spelled, String.toList_ofList, hmore], hplain⟩

/-- The spelling of a plain name may also be looked up with underscores exactly
if the name starts in lower case. -/
theorem hasSnakeSpelling_spelled {name : String} (h : IsPlain name) :
    hasSnakeSpelling (spelled name) = name.toList.head?.any isLower := by
  obtain ⟨c, rest, hhead, hspelled, hplain⟩ := h.spelled_toList
  have hdollar : (c == '$') = false := by
    cases heq : c == '$' with
    | false => rfl
    | true =>
        obtain rfl := eq_of_beq heq
        cases hplain
  have hne : (some c != some '$') = true := by
    simpa [bne] using hdollar
  unfold hasSnakeSpelling start?
  rw [hspelled, List.dropWhile_cons, hdollar, hhead]
  simp [hne]

/-- **The names found under their own spelling.**  The spelling of a plain name
in a key is looked up under the name itself exactly if the name spells back. -/
theorem mem_spellings_iff {name : String} (h : IsPlain name) :
    name ∈ spellings (spelled name) ↔ SpellsBack name := by
  unfold SpellsBack
  by_cases hunderscore : '_' ∈ name.toList
  · have hne : name ≠ spelled name := by
      intro heq
      have hcount := count_spelledChars h.plain
      have hfolds := folds_pos hunderscore
      have hchars : spelledChars name.toList = name.toList := by
        have hlists := congrArg String.toList heq
        rw [spelled, String.toList_ofList] at hlists
        exact hlists.symm
      rw [hchars] at hcount
      omega
    have hsnake : snakeize (spelled name) = name ↔
        lower name.toList = name.toList ∧ separated false name.toList = true := by
      rw [← snake_spelledChars_iff h.plain]
      unfold snakeize spelled
      rw [String.toList_ofList, ← String.toList_inj, String.toList_ofList]
    unfold spellings
    rw [hasSnakeSpelling_spelled h]
    constructor
    · intro hmem
      split at hmem
      · next hcondition =>
          rw [Bool.and_eq_true] at hcondition
          rcases List.mem_cons.mp hmem with heq | hmem
          · exact absurd heq hne
          · exact Or.inr ⟨hcondition.1, hsnake.mp (List.mem_singleton.mp hmem).symm⟩
      · exact absurd (List.mem_singleton.mp hmem) hne
    · intro hcase
      rcases hcase with hnot | ⟨hlower, hback⟩
      · exact absurd hunderscore hnot
      · have heq := hsnake.mpr hback
        rw [if_pos (by simp [hlower, heq, hne]), heq]
        simp
  · have hself : spelled name = name := by
      unfold spelled
      rw [spelledChars_of_not_mem hunderscore, String.ofList_toList]
    rw [hself]
    refine ⟨fun _ => Or.inl hunderscore, fun _ => ?_⟩
    unfold spellings
    split <;> exact List.mem_cons_self

end Conformance.Name
