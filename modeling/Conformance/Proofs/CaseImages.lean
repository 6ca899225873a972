import Conformance.Name

/-!
# Images of the case mappings

Names are spelled anew by case mappings, so what is known of a respelled name
rests on what the images of single characters can be.  This file reads off the
tables the few facts that matter: an image is never empty; it has an underscore
only for an underscore; an upper-case image has no word border inside it and
none of the characters that a key or a path is taken apart at; and a lower-case
image has no capital of ASCII and no capital sigma.

Each fact is checked on the 128 characters of ASCII, on the images listed one by
one and on every member of the shift runs; what is in no table is its own image.
-/

namespace Conformance

/-- A character at which neither a key nor a path is taken apart. -/
def isPlainChar (c : Char) : Bool :=
  c != '.' && c != '=' && c != '(' && c != '$' && !Text.isBlank c

namespace Text

/-- First and last image of each run of shifts. -/
def imageRuns (shifts : Array Shift) : List (Nat × Nat) :=
  shifts.toList.map fun s =>
    ((Int.ofNat s.1 + s.2.2.2).toNat, (Int.ofNat s.2.1 + s.2.2.2).toNat)

/-- A shifted code point lies in the images of a run. -/
theorem mem_imageRuns {shifts : Array Shift} {code image : Nat}
    (h : shifted? shifts code = some image) :
    ∃ run ∈ imageRuns shifts, run.1 ≤ image ∧ image ≤ run.2 := by
  unfold shifted? at h
  obtain ⟨s, hfind, rfl⟩ := Option.map_eq_some_iff.mp h
  have hhas := Array.find?_some hfind
  have hmem := Array.mem_of_find?_eq_some hfind
  simp only [Run.has, Bool.and_eq_true, decide_eq_true_eq] at hhas
  obtain ⟨⟨hfirst, hlast⟩, -⟩ := hhas
  refine ⟨_, List.mem_map.mpr ⟨s, Array.mem_toList_iff.mpr hmem, rfl⟩, ?_, ?_⟩
  · have hle : Int.ofNat s.1 + s.2.2.2 ≤ Int.ofNat code + s.2.2.2 := by
      simp only [Int.ofNat_eq_natCast]
      omega
    exact Int.toNat_le_toNat hle
  · have hle : Int.ofNat code + s.2.2.2 ≤ Int.ofNat s.2.1 + s.2.2.2 := by
      simp only [Int.ofNat_eq_natCast]
      omega
    exact Int.toNat_le_toNat hle

/-- A property of the characters of ASCII, checked one by one. -/
theorem forall_ascii {P : Char → Prop} (h : ∀ n < 128, P (Char.ofNat n)) {c : Char}
    (hc : c.toNat < 128) : P c := by
  have hself : Char.ofNat c.toNat = c := Char.ofNat_toNat c
  exact hself ▸ h c.toNat hc

/-- What is not behind a character of ASCII is in ASCII. -/
theorem toNat_lt_of_le {c d : Char} (h : c ≤ d) (hd : d.toNat < 128) : c.toNat < 128 :=
  Nat.lt_of_le_of_lt h hd

theorem toNat_lt_of_isAsciiUpper {c : Char} (h : isAsciiUpper c = true) : c.toNat < 128 := by
  simp only [isAsciiUpper, Bool.and_eq_true, decide_eq_true_eq] at h
  exact toNat_lt_of_le h.2 (by decide)

theorem toNat_lt_of_isAsciiLower {c : Char} (h : isAsciiLower c = true) : c.toNat < 128 := by
  simp only [isAsciiLower, Bool.and_eq_true, decide_eq_true_eq] at h
  exact toNat_lt_of_le h.2 (by decide)

theorem toNat_lt_of_isAsciiDigit {c : Char} (h : isAsciiDigit c = true) : c.toNat < 128 := by
  simp only [isAsciiDigit, Bool.and_eq_true, decide_eq_true_eq] at h
  exact toNat_lt_of_le h.2 (by decide)

/-- The character of a code point has that code point, unless there is no such
character. -/
theorem toNat_ofNat (code : Nat) : (Char.ofNat code).toNat = code ∨ (Char.ofNat code).toNat = 0 := by
  unfold Char.ofNat
  by_cases hvalid : code.isValidChar
  · rw [dif_pos hvalid]
    exact Or.inl rfl
  · rw [dif_neg hvalid]
    exact Or.inr rfl

/-- White space beyond ASCII. -/
def farBlanks : List Nat :=
  [133, 160, 5760, 8192, 8193, 8194, 8195, 8196, 8197, 8198, 8199, 8200, 8201, 8202, 8232, 8233,
    8239, 8287, 12288]

/-- A character beyond ASCII that is no white space is plain. -/
theorem isPlainChar_of_far {c : Char} (hfar : 128 ≤ c.toNat) (hblank : c.toNat ∉ farBlanks) :
    isPlainChar c = true := by
  have hne : ∀ d : Char, d.toNat < 128 → c ≠ d := by
    intro d hd heq
    obtain rfl := heq
    omega
  have hnot : isBlank c = false := by
    simp only [farBlanks, List.mem_cons, List.not_mem_nil, or_false, not_or] at hblank
    simp only [isBlank, Bool.or_eq_false_iff, Bool.and_eq_false_iff, decide_eq_false_iff_not,
      beq_eq_false_iff_ne]
    omega
  simp [isPlainChar, hnot, hne '.' (by decide), hne '=' (by decide), hne '(' (by decide),
    hne '$' (by decide)]

/-! ## Upper case -/

/-- What the upper-case image of a plain character other than the underscore is
known to be. -/
structure Raised (image : List Char) : Prop where
  ne_nil : image ≠ []
  underscore : '_' ∉ image
  /-- There is no word border inside. -/
  border : Name.bordered image = image
  plain : ∀ c ∈ image, isPlainChar c = true

instance (image : List Char) : Decidable (Raised image) :=
  decidable_of_iff (image ≠ [] ∧ '_' ∉ image ∧ Name.bordered image = image ∧
      image.all isPlainChar = true)
    ⟨fun h => ⟨h.1, h.2.1, h.2.2.1, List.all_eq_true.mp h.2.2.2⟩,
      fun h => ⟨h.ne_nil, h.underscore, h.border, List.all_eq_true.mpr h.plain⟩⟩

/-- A single character is an image if it is plain and no underscore. -/
theorem Raised.single {c : Char} (hplain : isPlainChar c = true) (hc : c ≠ '_') : Raised [c] where
  ne_nil := List.cons_ne_nil c []
  underscore := by simpa using hc.symm
  border := rfl
  plain := by simpa using hplain

/-- **Upper-case images.** -/
theorem upperChar_raised {c : Char} (hplain : isPlainChar c = true) (hc : c ≠ '_') :
    Raised (upperChar c) := by
  by_cases hlt : c.toNat < 128
  · have hascii : ∀ n < 128, isPlainChar (Char.ofNat n) = true → Char.ofNat n ≠ '_' →
        Raised (upperChar (Char.ofNat n)) := by decide +kernel
    exact forall_ascii (P := fun c => isPlainChar c = true → c ≠ '_' → Raised (upperChar c))
      hascii hlt hplain hc
  · unfold upperChar
    rw [if_neg hlt]
    split
    · next image hfind =>
        have hall : ∀ e ∈ CaseTable.upperExpansions.toList, Raised (e.2.map Char.ofNat) := by
          decide +kernel
        exact hall _ (Array.mem_toList_iff.mpr (Array.mem_of_find?_eq_some hfind))
    · split
      · next code hshift =>
          have hruns : ∀ run ∈ imageRuns CaseTable.upperShifts, run = (73, 73) ∨ run = (83, 83) ∨
              128 ≤ run.1 ∧ ∀ b ∈ farBlanks, b < run.1 ∨ run.2 < b := by
            decide +kernel
          obtain ⟨run, hrun, hfirst, hlast⟩ := mem_imageRuns hshift
          rcases hruns run hrun with rfl | rfl | ⟨hfar, hblanks⟩
          · obtain rfl : code = 73 := by omega
            decide
          · obtain rfl : code = 83 := by omega
            decide
          · have hblank : code ∉ farBlanks := by
              intro hmem
              have := hblanks code hmem
              omega
            rcases toNat_ofNat code with hcode | hzero
            · have hne : Char.ofNat code ≠ '_' := by
                intro heq
                rw [heq] at hcode
                have : '_'.toNat = 95 := rfl
                omega
              exact .single (isPlainChar_of_far (by omega) (by rw [hcode]; exact hblank)) hne
            · rw [← Char.ofNat_toNat (Char.ofNat code), hzero]
              decide
      · exact .single hplain hc

/-- Only a closing parenthesis has one in its upper-case image. -/
theorem closing_not_mem_upperChar {c : Char} (hc : c ≠ ')') : ')' ∉ upperChar c := by
  by_cases hlt : c.toNat < 128
  · have hascii : ∀ n < 128, Char.ofNat n ≠ ')' → ')' ∉ upperChar (Char.ofNat n) := by
      decide +kernel
    exact forall_ascii (P := fun c => c ≠ ')' → ')' ∉ upperChar c) hascii hlt hc
  · unfold upperChar
    rw [if_neg hlt]
    split
    · next image hfind =>
        have hall : ∀ e ∈ CaseTable.upperExpansions.toList, ')' ∉ e.2.map Char.ofNat := by
          decide +kernel
        exact hall _ (Array.mem_toList_iff.mpr (Array.mem_of_find?_eq_some hfind))
    · split
      · next code hshift =>
          have hruns : ∀ run ∈ imageRuns CaseTable.upperShifts, 41 < run.1 := by decide +kernel
          obtain ⟨run, hrun, hfirst, -⟩ := mem_imageRuns hshift
          have hlow := hruns run hrun
          intro hmem
          have hcode : ')' = Char.ofNat code := List.mem_singleton.mp hmem
          have hclosing : ')'.toNat = 41 := rfl
          rcases toNat_ofNat code with himage | himage
          · rw [← hcode] at himage
            omega
          · rw [← hcode] at himage
            omega
      · intro hmem
        exact hc (List.mem_singleton.mp hmem).symm

/-! ## Lower case -/

/-- What the lower-case image of a character other than the underscore and the
capital sigma is known to be. -/
structure Lowered (image : List Char) : Prop where
  ne_nil : image ≠ []
  underscore : '_' ∉ image
  capital : ∀ c ∈ image, isAsciiUpper c = false
  sigma : capitalSigma ∉ image

instance (image : List Char) : Decidable (Lowered image) :=
  decidable_of_iff (image ≠ [] ∧ '_' ∉ image ∧ image.any isAsciiUpper = false ∧
      capitalSigma ∉ image)
    ⟨fun h => ⟨h.1, h.2.1, fun c hc => by simpa using List.any_eq_false.mp h.2.2.1 c hc, h.2.2.2⟩,
      fun h => ⟨h.ne_nil, h.underscore,
        List.any_eq_false.mpr fun c hc => by simpa using h.capital c hc, h.sigma⟩⟩

/-- A single character beyond ASCII is an image if it is no capital sigma. -/
theorem Lowered.single {c : Char} (hfar : 128 ≤ c.toNat) (hσ : c ≠ capitalSigma) : Lowered [c] where
  ne_nil := List.cons_ne_nil c []
  underscore := by
    intro hmem
    obtain rfl := List.mem_singleton.mp hmem
    have : '_'.toNat = 95 := rfl
    omega
  capital := by
    intro d hd
    obtain rfl := List.mem_singleton.mp hd
    have hnot : ¬ d ≤ 'Z' := by
      intro hle
      have hnat : d.toNat ≤ 'Z'.toNat := hle
      have : 'Z'.toNat = 90 := rfl
      omega
    simp [isAsciiUpper, hnot]
  sigma := by simpa using hσ.symm

/-- **Lower-case images.** -/
theorem lowerChar_lowered {c : Char} (hc : c ≠ '_') (hσ : c ≠ capitalSigma) :
    Lowered (lowerChar c) := by
  by_cases hlt : c.toNat < 128
  · have hascii : ∀ n < 128, Char.ofNat n ≠ '_' → Lowered (lowerChar (Char.ofNat n)) := by
      decide +kernel
    exact forall_ascii (P := fun c => c ≠ '_' → Lowered (lowerChar c)) hascii hlt hc
  · unfold lowerChar
    rw [if_neg hlt]
    split
    · next image hfind =>
        have hall : ∀ e ∈ CaseTable.lowerExpansions.toList, Lowered (e.2.map Char.ofNat) := by
          decide +kernel
        exact hall _ (Array.mem_toList_iff.mpr (Array.mem_of_find?_eq_some hfind))
    · split
      · next code hshift =>
          have hruns : ∀ run ∈ imageRuns CaseTable.lowerShifts, run = (107, 107) ∨
              128 ≤ run.1 ∧ (931 < run.1 ∨ run.2 < 931) := by
            decide +kernel
          obtain ⟨run, hrun, hfirst, hlast⟩ := mem_imageRuns hshift
          rcases hruns run hrun with rfl | ⟨hfar, hsigma⟩
          · obtain rfl : code = 107 := by omega
            decide
          · rcases toNat_ofNat code with hcode | hzero
            · refine .single (by omega) ?_
              intro heq
              rw [heq] at hcode
              have : capitalSigma.toNat = 931 := rfl
              omega
            · rw [← Char.ofNat_toNat (Char.ofNat code), hzero]
              decide
      · exact .single (by omega) hσ

@[simp] theorem lowerChar_underscore : lowerChar '_' = ['_'] := rfl

/-- The lower case of a capital of ASCII is a lower-case letter of ASCII. -/
theorem lowerChar_of_isAsciiUpper {c : Char} (h : isAsciiUpper c = true) :
    ∃ d, lowerChar c = [d] ∧ isAsciiLower d = true ∧ upperChar d = [c] := by
  have hlt := toNat_lt_of_isAsciiUpper h
  have hascii : ∀ n < 128, isAsciiUpper (Char.ofNat n) = true →
      lowerChar (Char.ofNat n) = [Char.ofNat (n + 32)] ∧
        isAsciiLower (Char.ofNat (n + 32)) = true ∧
        upperChar (Char.ofNat (n + 32)) = [Char.ofNat n] := by decide +kernel
  have hletter := hascii c.toNat hlt
  rw [Char.ofNat_toNat] at hletter
  exact ⟨_, hletter h⟩

/-- The upper case of a lower-case letter of ASCII is a capital of ASCII. -/
theorem upperChar_of_isAsciiLower {d : Char} (h : isAsciiLower d = true) :
    ∃ c, upperChar d = [c] ∧ isAsciiUpper c = true ∧ lowerChar c = [d] ∧
      Name.endsWord c = false := by
  have hlt := toNat_lt_of_isAsciiLower h
  have hascii : ∀ n < 128, isAsciiLower (Char.ofNat n) = true →
      upperChar (Char.ofNat n) = [Char.ofNat (n - 32)] ∧
        isAsciiUpper (Char.ofNat (n - 32)) = true ∧
        lowerChar (Char.ofNat (n - 32)) = [Char.ofNat n] ∧
        Name.endsWord (Char.ofNat (n - 32)) = false := by decide +kernel
  have hletter := hascii d.toNat hlt
  rw [Char.ofNat_toNat] at hletter
  exact ⟨_, hletter h⟩

/-- A lower-case letter of ASCII is in lower case. -/
theorem lowerChar_of_isAsciiLower {d : Char} (h : isAsciiLower d = true) :
    d ≠ capitalSigma ∧ lowerChar d = [d] := by
  obtain ⟨c, -, hupper, hlower, -⟩ := upperChar_of_isAsciiLower h
  have hnot : isAsciiUpper d = false := by
    have hcapital : ∀ e ∈ lowerChar c, isAsciiUpper e = false :=
      (lowerChar_lowered (by rintro rfl; cases hupper) (by rintro rfl; cases hupper)).capital
    exact hcapital d (by rw [hlower]; exact List.mem_singleton_self d)
  have hlt := toNat_lt_of_isAsciiLower h
  constructor
  · intro heq
    obtain rfl := heq
    cases h
  · unfold lowerChar
    rw [if_pos hlt, hnot]
    rfl

end Text

end Conformance
