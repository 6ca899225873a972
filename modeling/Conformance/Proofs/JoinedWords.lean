import Conformance.Proofs.Spelling

/-!
# Words joined by underscores

The names of an implementation are often words of small letters and digits with an underscore
between two.  Folding the underscores away and marking the borders again gives such a name back
exactly if its borders can be told: every word behind an underscore starts with a letter, whose
capital marks the border, and no word between two underscores is that letter alone, because then
one capital follows another (`snakeize_camelize_intercalate_iff`).

Such a name is in lower case, so by `snake_spelledChars_iff` only its borders count.  `separated`
goes through the name with a flag that says whether what comes before can end a word.  A word that
is not empty sets the flag (`separated_append`); so each word behind an underscore has to meet a
condition of its own, and the induction is on these words.
-/

namespace Conformance.Name

open Text

/-- A word of a name: small letters and digits of ASCII, and at least one. -/
structure IsWord (w : String) : Prop where
  nonempty : w ≠ ""
  chars : ∀ c ∈ w.toList, (isAsciiLower c || isAsciiDigit c) = true

instance (w : String) : Decidable (IsWord w) :=
  decidable_of_iff (w ≠ "" ∧ w.toList.all (fun c => isAsciiLower c || isAsciiDigit c) = true)
    ⟨fun h => ⟨h.1, List.all_eq_true.mp h.2⟩, fun h => ⟨h.nonempty, List.all_eq_true.mpr h.chars⟩⟩

/-- The word starts with a letter and not with a digit. -/
def startsWithLetter (w : String) : Bool := w.toList.head?.any isAsciiLower

theorem IsWord.exists_cons {w : String} (h : IsWord w) :
    ∃ c more, w.toList = c :: more ∧ ∀ d ∈ more, endsWord d = true := by
  cases hw : w.toList with
  | nil => exact absurd (String.toList_eq_nil_iff.mp hw) h.nonempty
  | cons c more =>
      exact ⟨c, more, rfl, fun d hd => h.chars d (by rw [hw]; exact List.mem_cons_of_mem c hd)⟩

/-! ## Characters of words -/

/-- A character of a word is plain, is in lower case and is no underscore. -/
theorem endsWord_facts {c : Char} (h : endsWord c = true) :
    c ≠ '_' ∧ isPlainChar c = true ∧ c ≠ capitalSigma ∧ lowerChar c = [c] := by
  have hlt : c.toNat < 128 := by
    rcases Bool.or_eq_true_iff.mp h with hletter | hdigit
    · exact toNat_lt_of_isAsciiLower hletter
    · exact toNat_lt_of_isAsciiDigit hdigit
  have hascii : ∀ n < 128, endsWord (Char.ofNat n) = true → Char.ofNat n ≠ '_' ∧
      isPlainChar (Char.ofNat n) = true ∧ Char.ofNat n ≠ capitalSigma ∧
        lowerChar (Char.ofNat n) = [Char.ofNat n] := by decide +kernel
  exact forall_ascii (P := fun c => endsWord c = true → c ≠ '_' ∧ isPlainChar c = true ∧
    c ≠ capitalSigma ∧ lowerChar c = [c]) hascii hlt h

/-! ## Joining -/

/-- The words that follow in a name, each with an underscore before it. -/
def following (words : List String) : List Char := words.flatMap fun w => '_' :: w.toList

@[simp] theorem following_nil : following [] = [] := rfl

theorem following_cons (w : String) (words : List String) :
    following (w :: words) = '_' :: (w.toList ++ following words) := by
  rw [following, List.flatMap_cons, List.cons_append, following]

theorem toList_intercalate_cons (w : String) (words : List String) :
    ("_".intercalate (w :: words)).toList = w.toList ++ following words := by
  induction words generalizing w with
  | nil => simp
  | cons w' words ih =>
      rw [String.intercalate_cons_cons, String.toList_append, String.toList_append, ih,
        following_cons, List.append_assoc]
      rfl

/-- Every character of a joined name is plain and in lower case. -/
theorem joined_facts {cs : List Char} {words : List String} (hcs : ∀ c ∈ cs, endsWord c = true)
    (h : ∀ w ∈ words, IsWord w) : ∀ c ∈ cs ++ following words,
      isPlainChar c = true ∧ c ≠ capitalSigma ∧ lowerChar c = [c] := by
  intro c hc
  rcases List.mem_append.mp hc with hfirst | hlater
  · exact (endsWord_facts (hcs c hfirst)).2
  · obtain ⟨w, hw, hmem⟩ := List.mem_flatMap.mp hlater
    rcases List.mem_cons.mp hmem with rfl | hletter
    · exact ⟨by decide, by decide, lowerChar_underscore⟩
    · exact (endsWord_facts ((h w hw).chars c hletter)).2

/-- A joined name ends as its last word does, and not with an underscore. -/
theorem getLast?_joined {cs : List Char} {words : List String}
    (hcs : ∀ c ∈ cs, endsWord c = true) (h : ∀ w ∈ words, IsWord w) :
    (cs ++ following words).getLast? ≠ some '_' := by
  induction words generalizing cs with
  | nil =>
      rw [following_nil, List.append_nil]
      exact fun hlast => (endsWord_facts (hcs '_' (List.mem_of_getLast? hlast))).1 rfl
  | cons w words ih =>
      have hw := h w List.mem_cons_self
      have hlast := ih hw.chars fun w' hw' => h w' (List.mem_cons_of_mem w hw')
      obtain ⟨c, more, hchars, -⟩ := hw.exists_cons
      rw [following_cons]
      rw [hchars, List.cons_append] at hlast ⊢
      rw [List.getLast?_append, List.getLast?_cons_cons]
      rw [List.getLast?_eq_some_getLast (List.cons_ne_nil _ _)] at hlast ⊢
      exact hlast

/-! ## Borders -/

/-- What stands before a word that is not empty does not count behind it. -/
theorem separated_append {cs : List Char} (hne : cs ≠ []) (hcs : ∀ c ∈ cs, endsWord c = true)
    (ends : Bool) (more : List Char) : separated ends (cs ++ more) = separated true more := by
  induction cs generalizing ends with
  | nil => exact absurd rfl hne
  | cons c cs ih =>
      have hc := hcs c List.mem_cons_self
      have hunderscore := (endsWord_facts hc).1
      cases cs with
      | nil =>
          cases more with
          | nil => simp [separated, hunderscore]
          | cons d more => simp [separated, hunderscore, hc]
      | cons d cs =>
          rw [List.cons_append, List.cons_append, separated, if_neg hunderscore, ← List.cons_append]
          exact ih (List.cons_ne_nil d cs) (fun e he => hcs e (List.mem_cons_of_mem c he)) _

/-- Directly behind a folded letter no word can follow. -/
theorem separated_false_following {words : List String} (h : ∀ w ∈ words, IsWord w) :
    separated false (following words) = true ↔ words = [] := by
  cases words with
  | nil => simp [separated]
  | cons w words =>
      obtain ⟨c, more, hchars, -⟩ := (h w List.mem_cons_self).exists_cons
      rw [following_cons, hchars, List.cons_append]
      simp [separated]

/-- A word behind an underscore has to start with a letter, and unless it is the last word, not to
be that letter alone. -/
theorem separated_following_cons {w : String} {words : List String} (hw : IsWord w)
    (h : ∀ w ∈ words, IsWord w) :
    separated true (following (w :: words)) = true ↔
      startsWithLetter w = true ∧ (words = [] ∨ 2 ≤ w.length) ∧
        separated true (following words) = true := by
  obtain ⟨c, more, hchars, hmore⟩ := hw.exists_cons
  have hlength : w.length = more.length + 1 := by
    rw [← String.length_toList, hchars, List.length_cons]
  have hletter : startsWithLetter w = isAsciiLower c := by
    rw [startsWithLetter, hchars]
    rfl
  rw [following_cons, hchars, hletter, hlength, List.cons_append, separated, if_pos rfl,
    Bool.true_and, Bool.and_eq_true]
  refine and_congr_right fun _ => ?_
  cases more with
  | nil =>
      rw [List.nil_append, separated_false_following h]
      constructor
      · rintro rfl
        exact ⟨Or.inl rfl, rfl⟩
      · rintro ⟨hlast | hlong, -⟩
        · exact hlast
        · exact absurd hlong (by decide)
  | cons d more =>
      rw [separated_append (List.cons_ne_nil d more) hmore]
      constructor
      · exact fun hrest => ⟨Or.inr (by simp), hrest⟩
      · exact fun hboth => hboth.2

/-- The borders of all words that follow can be told. -/
theorem separated_following_iff {words : List String} (h : ∀ w ∈ words, IsWord w) :
    separated true (following words) = true ↔
      (∀ w ∈ words, startsWithLetter w = true) ∧ ∀ w ∈ words.dropLast, 2 ≤ w.length := by
  induction words with
  | nil => simp [separated]
  | cons w words ih =>
      have hwords : ∀ w ∈ words, IsWord w := fun w' hw' => h w' (List.mem_cons_of_mem w hw')
      rw [separated_following_cons (h w List.mem_cons_self) hwords, ih hwords]
      cases words with
      | nil => simp
      | cons w' words =>
          rw [List.dropLast_cons_cons, List.forall_mem_cons (a := w), List.forall_mem_cons (a := w)]
          simp only [List.cons_ne_nil, false_or]
          constructor
          · rintro ⟨hletter, hlong, hletters, hall⟩
            exact ⟨⟨hletter, hletters⟩, hlong, hall⟩
          · rintro ⟨⟨hletter, hletters⟩, hlong, hall⟩
            exact ⟨hletter, hlong, hletters, hall⟩

/-! ## The names that survive -/

/-- **Which joined names are found back.**  Folding a name of words and marking its borders again
gives the name exactly if every word but the first starts with a letter, and every word but the
first and the last has at least two characters.  The first word may start with a digit. -/
theorem snakeize_camelize_intercalate_iff {words : List String} (h : ∀ w ∈ words, IsWord w) :
    snakeize (camelize ("_".intercalate words)) = "_".intercalate words ↔
      (∀ w ∈ words.tail, startsWithLetter w = true) ∧ ∀ w ∈ words.tail.dropLast, 2 ≤ w.length := by
  cases words with
  | nil => exact iff_of_true rfl ⟨nofun, nofun⟩
  | cons first words =>
      have hfirst := h first List.mem_cons_self
      have hwords : ∀ w ∈ words, IsWord w := fun w hw => h w (List.mem_cons_of_mem first hw)
      have hname := toList_intercalate_cons first words
      have hfacts := joined_facts hfirst.chars hwords
      have hplain := fun c hc => (hfacts c hc).1
      have hlower : lower (first.toList ++ following words) = first.toList ++ following words :=
        (lowerAfter_eq_self_iff [] _).mpr fun c hc => (hfacts c hc).2
      have hne : first.toList ≠ [] := mt String.toList_eq_nil_iff.mp hfirst.nonempty
      rw [snakeize, camelize, hname, String.toList_ofList, ← String.toList_inj,
        String.toList_ofList, hname,
        camel_eq_spelledChars hplain (getLast?_joined hfirst.chars hwords),
        snake_spelledChars_iff hplain, separated_append hne hfirst.chars,
        separated_following_iff hwords]
      exact and_iff_right hlower

/-- A word of one letter is found back at the end of a name and is lost inside of it. -/
theorem one_letter_word_told :
    (∀ w ∈ ["get", "h2o", "x"], IsWord w) ∧ (∀ w ∈ ["get", "x", "y"], IsWord w) ∧
      snakeize (camelize "get_h2o_x") = "get_h2o_x" ∧
      snakeize (camelize "get_x_y") ≠ "get_x_y" := by
  have hkept : ∀ w ∈ ["get", "h2o", "x"], IsWord w := by decide
  have hlost : ∀ w ∈ ["get", "x", "y"], IsWord w := by decide
  refine ⟨hkept, hlost, ?_, ?_⟩
  · exact (snakeize_camelize_intercalate_iff hkept).mpr ⟨by decide, by decide⟩
  · intro hback
    exact absurd ((snakeize_camelize_intercalate_iff hlost).mp hback).2 (by decide)

end Conformance.Name
