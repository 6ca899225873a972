import Conformance.Proofs.Spelling

/-!
# Names of digits

In a list or a tuple a name of digits is an index.  Digits are in no case, so such a name is
looked up as it stands; and since no lower-case image of another character has a digit in it,
the spelling with underscores of any other name is no index either (`eq_of_mem_spellings`).

As in the file on the case mappings, each fact about single characters is checked on the 128
characters of ASCII and on the blocks of the tables.
-/

namespace Conformance

namespace Text

/-- First and last code point of each block of digits beyond ASCII. -/
def digitSpans : List (Nat × Nat) :=
  ClassTable.zeros.toList.map (fun first => (first, first + 9)) ++
    ClassTable.loneDigits.toList.map fun run => (run.1, run.2.1)

/-- A digit beyond ASCII lies in one of the blocks. -/
theorem mem_digitSpans {c : Char} (hfar : 128 ≤ c.toNat) (h : isDigit c = true) :
    ∃ span ∈ digitSpans, span.1 ≤ c.toNat ∧ c.toNat ≤ span.2 := by
  have hnear : ¬ c.toNat < 128 := Nat.not_lt_of_le hfar
  unfold isDigit at h
  rcases Bool.or_eq_true_iff.mp h with hdecimal | hlone
  · unfold decimalValue? at hdecimal
    rw [if_neg hnear, Option.isSome_map] at hdecimal
    obtain ⟨first, hfind⟩ := Option.isSome_iff_exists.mp hdecimal
    have hmem := Array.mem_toList_iff.mpr (Array.mem_of_find?_eq_some hfind)
    have hin := Array.find?_some hfind
    simp only [Bool.and_eq_true, decide_eq_true_eq] at hin
    refine ⟨(first, first + 9), ?_, hin.1, by have := hin.2; dsimp only; omega⟩
    exact List.mem_append_left _ (List.mem_map_of_mem hmem)
  · unfold inRuns at hlone
    obtain ⟨i, hi, hrun⟩ := Array.any_eq_true.mp (Bool.and_eq_true_iff.mp hlone).2
    simp only [Run.has, Bool.and_eq_true, decide_eq_true_eq] at hrun
    refine ⟨_, List.mem_append_right _ (List.mem_map_of_mem ?_), hrun.1.1, hrun.1.2⟩
    exact Array.mem_toList_iff.mpr (Array.getElem_mem hi)

/-- **A digit is not in lower case.** -/
theorem isLower_of_isDigit {c : Char} (h : isDigit c = true) : isLower c = false := by
  by_cases hlt : c.toNat < 128
  · have hascii : ∀ n < 128, isDigit (Char.ofNat n) = true → isLower (Char.ofNat n) = false := by
      decide +kernel
    exact forall_ascii (P := fun c => isDigit c = true → isLower c = false) hascii hlt h
  · have happart : ∀ span ∈ digitSpans, ∀ run ∈ ClassTable.lowers.toList,
        run.2.1 < span.1 ∨ span.2 < run.1 := by
      decide +kernel
    obtain ⟨span, hspan, hfirst, hlast⟩ := mem_digitSpans (Nat.le_of_not_lt hlt) h
    unfold isLower inRuns
    rw [if_neg hlt, Array.any_eq_false]
    intro i hi hrun
    simp only [Run.has, Bool.and_eq_true, decide_eq_true_eq] at hrun
    have := happart span hspan _ (Array.mem_toList_iff.mpr (Array.getElem_mem hi))
    omega

/-- No lower-case image has a digit in it, other than a digit itself. -/
theorem isDigit_of_mem_lowerChar {c d : Char} (hd : d ∈ lowerChar c) (h : isDigit d = true) :
    isDigit c = true := by
  by_cases hlt : c.toNat < 128
  · have hascii : ∀ n < 128, isDigit (Char.ofNat n) = true ∨
        (lowerChar (Char.ofNat n)).any isDigit = false := by
      decide +kernel
    rcases forall_ascii (P := fun c => isDigit c = true ∨ (lowerChar c).any isDigit = false)
      hascii hlt with hdigit | hnone
    · exact hdigit
    · exact absurd h (List.any_eq_false.mp hnone d hd)
  · unfold lowerChar at hd
    rw [if_neg hlt] at hd
    split at hd
    · next image hfind =>
        have hall : ∀ e ∈ CaseTable.lowerExpansions.toList,
            (e.2.map Char.ofNat).any isDigit = false := by
          decide +kernel
        have hnone := hall _ (Array.mem_toList_iff.mpr (Array.mem_of_find?_eq_some hfind))
        exact absurd h (List.any_eq_false.mp hnone d hd)
    · split at hd
      · next code hshift =>
          have hapart : ∀ run ∈ imageRuns CaseTable.lowerShifts, run = (107, 107) ∨
              128 ≤ run.1 ∧ ∀ span ∈ digitSpans, run.2 < span.1 ∨ span.2 < run.1 := by
            decide +kernel
          obtain ⟨run, hrun, hfirst, hlast⟩ := mem_imageRuns hshift
          obtain rfl := List.mem_singleton.mp hd
          rcases hapart run hrun with rfl | ⟨hfar, hspans⟩
          · obtain rfl : code = 107 := by omega
            exact absurd h (by decide)
          · rcases toNat_ofNat code with hcode | hzero
            · obtain ⟨span, hspan, hin⟩ := mem_digitSpans (by omega) h
              have := hspans span hspan
              omega
            · rw [← Char.ofNat_toNat (Char.ofNat code), hzero] at h
              exact absurd h (by decide)
      · obtain rfl := List.mem_singleton.mp hd
        exact h

/-- The image of a character of a text has a digit in it only if the character is one. -/
theorem lowerAfter_head (before : List Char) (c : Char) (rest : List Char) :
    ∃ image, lowerAfter before (c :: rest) = image ++ lowerAfter (c :: before) rest ∧
      image ≠ [] ∧ ∀ d ∈ image, isDigit d = true → isDigit c = true := by
  by_cases hσ : c = capitalSigma
  · subst hσ
    refine ⟨[if casedNext before && !casedNext rest then 'ς' else 'σ'], by simp [lowerAfter],
      List.cons_ne_nil _ _, fun d hd h => ?_⟩
    obtain rfl := List.mem_singleton.mp hd
    split at h
    · exact absurd h (by decide +kernel)
    · exact absurd h (by decide +kernel)
  · refine ⟨lowerChar c, Name.lowerAfter_cons before rest hσ, ?_, fun d => isDigit_of_mem_lowerChar⟩
    by_cases hc : c = '_'
    · subst hc
      exact List.cons_ne_nil _ _
    · exact (lowerChar_lowered hc hσ).ne_nil

end Text

namespace Name

variable {name : String}

/-- Whether a name has a spelling with underscores is seen from its first character. -/
theorem hasSnakeSpelling_cons {c : Char} {rest : List Char} (hname : name.toList = c :: rest) :
    hasSnakeSpelling name = (c != '$' && Text.isLower c) := by
  unfold hasSnakeSpelling start?
  rw [hname]
  by_cases hc : c = '$'
  · simp [hc]
  · rw [List.dropWhile_cons_of_neg (by simpa using hc), Bool.and_comm]
    rfl

/-- A name of digits starts with one. -/
theorem exists_cons_of_isIndex (h : isIndex name = true) :
    ∃ c rest, name.toList = c :: rest ∧ Text.isDigit c = true := by
  unfold isIndex Text.isNumeral at h
  rcases hname : name.toList with _ | ⟨c, rest⟩
  · rw [hname] at h
    cases h
  · rw [hname] at h
    exact ⟨c, rest, rfl, List.all_eq_true.mp (Bool.and_eq_true_iff.mp h).2 c List.mem_cons_self⟩

/-- A name of digits has no spelling with underscores. -/
theorem hasSnakeSpelling_of_isIndex (h : isIndex name = true) : hasSnakeSpelling name = false := by
  obtain ⟨c, rest, hname, hdigit⟩ := exists_cons_of_isIndex h
  rw [hasSnakeSpelling_cons hname, Text.isLower_of_isDigit hdigit, Bool.and_false]

/-- Word borders are marked behind a first character. -/
theorem exists_bordered_cons (c : Char) (rest : List Char) :
    ∃ more, bordered (c :: rest) = c :: more := by
  cases rest with
  | nil => exact ⟨[], rfl⟩
  | cons d rest =>
      unfold bordered
      split
      · exact ⟨_, rfl⟩
      · exact ⟨_, rfl⟩

/-- A spelling with underscores does not start with a digit. -/
theorem isIndex_snakeize (h : hasSnakeSpelling name = true) : isIndex (snakeize name) = false := by
  refine Bool.eq_false_iff.mpr fun hindex => ?_
  obtain ⟨d, tail, hsnake, hdigit⟩ := exists_cons_of_isIndex hindex
  rw [snakeize, String.toList_ofList, snake, Text.lower] at hsnake
  rcases hname : name.toList with _ | ⟨c, rest⟩
  · rw [hname] at hsnake
    cases hsnake
  · rw [hasSnakeSpelling_cons hname] at h
    obtain ⟨more, hmore⟩ := exists_bordered_cons c rest
    obtain ⟨image, himage, hne, hletters⟩ := Text.lowerAfter_head [] c more
    rw [hname, hmore, himage] at hsnake
    have hd : d ∈ image := by
      obtain ⟨first, others, rfl⟩ := List.exists_cons_of_ne_nil hne
      obtain ⟨rfl, -⟩ := List.cons.inj hsnake
      exact List.mem_cons_self
    have hlower := Text.isLower_of_isDigit (hletters d hd hdigit)
    rw [hlower, Bool.and_false] at h
    cases h

/-- **A name of digits is looked up as it stands**, and no other name is looked up under a
name of digits. -/
theorem eq_of_mem_spellings {other : String} (h : other ∈ spellings name)
    (hindex : isIndex other = true) : other = name := by
  unfold spellings at h
  split at h
  · next hspelled =>
      obtain ⟨hsnake, -⟩ := Bool.and_eq_true_iff.mp hspelled
      rcases List.mem_cons.mp h with rfl | hmem
      · rfl
      · obtain rfl := List.mem_singleton.mp hmem
        rw [isIndex_snakeize hsnake] at hindex
        cases hindex
  · exact List.mem_singleton.mp h

end Name

end Conformance
