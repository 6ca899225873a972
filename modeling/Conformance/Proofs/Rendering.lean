import Conformance.Data.Render
import Mathlib.Data.List.Basic

/-!
# Telling rendered values apart

The text of a value is put together from those of its parts with brackets, commas and colons, and
strings may hold all of these characters.  The text can still be read one way only, because each
part ends where it ends: a string at the first quote that no backslash escapes, a number at the
first character that is no digit, and a list or mapping at the bracket behind its last part.

`Separable` is this property of one value, whatever is written behind it.  A list of separable
values has it again (`joined_separable`), so all plain values have it, by induction on how they
are built (`IsPlain.separable`), and the text of a plain value is the text of no other
(`render_eq_iff`).
-/

namespace Conformance

namespace Text

/-! ## Characters of a string -/

/-- Value of a hexadecimal digit in lower case. -/
def hexValue (c : Char) : Nat := if c.isDigit then c.toNat - 48 else c.toNat - 87

/-- The character that a letter behind a backslash stands for. -/
def unescaped : Char → Char
  | 'n' => '\n'
  | 'r' => '\r'
  | 't' => '\t'
  | 'b' => '\x08'
  | 'f' => '\x0c'
  | c => c

/-- The character that comes first inside a JSON string, and the text behind it. -/
def readJsonChar : List Char → Option (Char × List Char)
  | [] => none
  | '\\' :: 'u' :: _ :: _ :: high :: low :: rest =>
    some (Char.ofNat (16 * hexValue high + hexValue low), rest)
  | '\\' :: letter :: rest => some (unescaped letter, rest)
  | c :: rest => some (c, rest)

/-- The digits of a control character, and their value. -/
theorem hexPadded_control : ∀ n < 32,
    hexPadded 4 n = ['0', '0', Nat.digitChar (n / 16), Nat.digitChar (n % 16)] ∧
      16 * hexValue (Nat.digitChar (n / 16)) + hexValue (Nat.digitChar (n % 16)) = n := by
  decide

/-- **A character of a string is read back**, whatever is behind it. -/
theorem readJsonChar_jsonChar (c : Char) (rest : List Char) :
    readJsonChar (jsonChar c ++ rest) = some (c, rest) := by
  unfold jsonChar
  -- The quote, the backslash and the five characters that have a letter of their own.
  iterate 7
    split
    · next h =>
        rw [eq_of_beq h]
        rfl
  split
  · next h =>
      obtain ⟨hdigits, hvalue⟩ := hexPadded_control c.toNat h
      rw [hdigits]
      change some (Char.ofNat (16 * hexValue _ + hexValue _), rest) = _
      rw [hvalue, Char.ofNat_toNat]
  · next hslash _ _ _ _ _ _ =>
      -- Every other character is written as it is, and none of these is the backslash.
      unfold readJsonChar
      split <;> simp_all

/-- No character of a string is written as the quote that ends it. -/
theorem jsonChar_append_ne (c : Char) (rest after : List Char) :
    jsonChar c ++ rest ≠ '"' :: after := by
  intro h
  have hread := readJsonChar_jsonChar c rest
  rw [h] at hread
  cases hread
  cases h

/-- The inside of a string ends at its quote. -/
theorem flatMap_jsonChar_inj {cs ds s t : List Char}
    (h : cs.flatMap jsonChar ++ '"' :: s = ds.flatMap jsonChar ++ '"' :: t) : cs = ds ∧ s = t := by
  induction cs generalizing ds with
  | nil =>
      cases ds with
      | nil => exact ⟨rfl, (List.cons.inj h).2⟩
      | cons d ds =>
          rw [List.flatMap_cons, List.append_assoc] at h
          exact absurd h.symm (jsonChar_append_ne d _ s)
  | cons c cs ih =>
      rw [List.flatMap_cons, List.append_assoc] at h
      cases ds with
      | nil => exact absurd h (jsonChar_append_ne c _ t)
      | cons d ds =>
          rw [List.flatMap_cons, List.append_assoc] at h
          have hread := readJsonChar_jsonChar c (cs.flatMap jsonChar ++ '"' :: s)
          rw [h, readJsonChar_jsonChar] at hread
          obtain ⟨hchar, hrest⟩ := Prod.mk.inj (Option.some.inj hread)
          obtain ⟨hcs, hst⟩ := ih hrest.symm
          exact ⟨by rw [hchar, hcs], hst⟩

/-- **A string ends where it ends.** -/
theorem json_append_inj {cs ds s t : List Char} (h : json cs ++ s = json ds ++ t) :
    cs = ds ∧ s = t := by
  unfold json at h
  rw [List.cons_append, List.cons_append, List.append_assoc, List.append_assoc] at h
  exact flatMap_jsonChar_inj (List.cons.inj h).2

/-! ## Numbers -/

/-- The text does not go on with a digit. -/
def Stops (s : List Char) : Prop := ∀ c ∈ s.head?, c.isDigit = false

theorem stops_nil : Stops [] := nofun

theorem stops_cons {c : Char} (hc : c.isDigit = false) (rest : List Char) : Stops (c :: rest) := by
  rintro d ⟨⟩
  exact hc

/-- The digits of a number are those up to the first character that is none. -/
theorem takeWhile_numeral {s : List Char} (n : Nat) (hs : Stops s) :
    (numeral n ++ s).takeWhile Char.isDigit = numeral n := by
  have hdigits : ∀ c ∈ numeral n, c.isDigit = true := fun c hc =>
    Nat.isDigit_of_mem_toDigits (by decide) (by decide) hc
  have hnone : s.takeWhile Char.isDigit = [] := by
    cases s with
    | nil => rfl
    | cons c rest => rw [List.takeWhile_cons, hs c rfl, if_neg Bool.false_ne_true]
  rw [List.takeWhile_append_of_pos hdigits, hnone, List.append_nil]

theorem numeral_append_inj {m n : Nat} {s t : List Char} (hs : Stops s) (ht : Stops t)
    (h : numeral m ++ s = numeral n ++ t) : m = n ∧ s = t := by
  have hsame : numeral m = numeral n := by
    rw [← takeWhile_numeral m hs, h, takeWhile_numeral n ht]
  rw [hsame] at h
  refine ⟨?_, List.append_cancel_left h⟩
  have hvalue : ∀ k, Nat.ofDigitChars 10 (numeral k) 0 = k := fun k =>
    Nat.ofDigitChars_toDigits (by decide) (by decide)
  rw [← hvalue m, hsame, hvalue]

/-- The text of a number that is not negative starts with a digit. -/
theorem head_numeral (n : Nat) : ∃ c rest, numeral n = c :: rest ∧ c.isDigit = true := by
  cases hdigits : numeral n with
  | nil => exact absurd hdigits Nat.toDigits_ne_nil
  | cons c rest =>
      have hmem : c ∈ numeral n := by
        rw [hdigits]
        exact List.mem_cons_self
      exact ⟨c, rest, rfl, Nat.isDigit_of_mem_toDigits (by decide) (by decide) hmem⟩

theorem numeral_append_ne (n : Nat) (s t : List Char) : numeral n ++ s ≠ '-' :: t := by
  obtain ⟨c, rest, hdigits, hc⟩ := head_numeral n
  rw [hdigits]
  intro h
  rw [(List.cons.inj h).1] at hc
  cases hc

/-- **A number ends where its digits end.** -/
theorem integer_append_inj {i j : Int} {s t : List Char} (hs : Stops s) (ht : Stops t)
    (h : integer i ++ s = integer j ++ t) : i = j ∧ s = t := by
  unfold integer at h
  by_cases hi : i < 0
  · by_cases hj : j < 0
    · rw [if_pos hi, if_pos hj] at h
      obtain ⟨habs, hst⟩ := numeral_append_inj hs ht (List.cons.inj h).2
      exact ⟨by omega, hst⟩
    · rw [if_pos hi, if_neg hj] at h
      exact absurd h.symm (numeral_append_ne _ _ _)
  · by_cases hj : j < 0
    · rw [if_neg hi, if_pos hj] at h
      exact absurd h (numeral_append_ne _ _ _)
    · rw [if_neg hi, if_neg hj] at h
      obtain ⟨habs, hst⟩ := numeral_append_inj hs ht h
      exact ⟨by omega, hst⟩

end Text

open Text

/-! ## Texts behind one another -/

section Separable

variable {α : Type} {P : α → Prop} {f : α → List Char}

variable (P f) in
/-- The text of the value is told from those of the others, and from what is behind it. -/
def Separable (a : α) : Prop :=
  ∀ b, P b → ∀ s t, Stops s → Stops t → f a ++ s = f b ++ t → a = b ∧ s = t

/-- Joined texts are the first one and then the others, each behind a comma. -/
theorem joined_cons (part : List Char) (parts : List (List Char)) :
    joined (part :: parts) = part ++ parts.flatMap (", ".toList ++ ·) := by
  unfold joined commaSeparated
  induction parts generalizing part with
  | nil => simp
  | cons next parts ih =>
      rw [List.intersperse_cons_cons, List.flatten_cons, List.flatten_cons, ih next,
        List.flatMap_cons, List.append_assoc]

variable {close : Char}

/-- Texts behind commas, and the bracket that closes them, do not go on with a digit. -/
theorem stops_parts (hdigit : close.isDigit = false) (parts : List (List Char)) (s : List Char) :
    Stops (parts.flatMap (", ".toList ++ ·) ++ close :: s) := by
  cases parts with
  | nil => exact stops_cons hdigit s
  | cons part parts => exact stops_cons (by decide) _

/-- Values behind commas are told apart, and end at the bracket that closes them. -/
theorem parts_separable (hcomma : close ≠ ',') (hdigit : close.isDigit = false) {xs ys : List α}
    (hxs : ∀ x ∈ xs, Separable P f x) (hys : ∀ y ∈ ys, P y) {s t : List Char}
    (h : (xs.map f).flatMap (", ".toList ++ ·) ++ close :: s =
      (ys.map f).flatMap (", ".toList ++ ·) ++ close :: t) : xs = ys ∧ s = t := by
  induction xs generalizing ys with
  | nil =>
      cases ys with
      | nil => exact ⟨rfl, (List.cons.inj h).2⟩
      | cons y ys => exact absurd (List.cons.inj h).1 hcomma
  | cons x xs ih =>
      cases ys with
      | nil => exact absurd (List.cons.inj h).1.symm hcomma
      | cons y ys =>
          rw [List.forall_mem_cons] at hxs hys
          rw [List.map_cons, List.map_cons, List.flatMap_cons, List.flatMap_cons, List.append_assoc,
            List.append_assoc, List.append_assoc, List.append_assoc] at h
          obtain ⟨hfirst, hrest⟩ := hxs.1 y hys.1 _ _ (stops_parts hdigit _ s)
            (stops_parts hdigit _ t) (List.append_cancel_left h)
          obtain ⟨hlater, hst⟩ := ih hxs.2 hys.2 hrest
          exact ⟨by rw [hfirst, hlater], hst⟩

/-- **A list of separable values** is told from the others, and ends at its bracket, if no value
starts with that. -/
theorem joined_separable (hcomma : close ≠ ',') (hdigit : close.isDigit = false)
    (hstart : ∀ a, P a → ∀ s t, f a ++ s ≠ close :: t) {xs ys : List α} (hplain : ∀ x ∈ xs, P x)
    (hxs : ∀ x ∈ xs, Separable P f x) (hys : ∀ y ∈ ys, P y) {s t : List Char}
    (h : joined (xs.map f) ++ close :: s = joined (ys.map f) ++ close :: t) : xs = ys ∧ s = t := by
  cases xs with
  | nil =>
      cases ys with
      | nil => exact ⟨rfl, (List.cons.inj h).2⟩
      | cons y ys =>
          rw [List.map_cons, joined_cons, List.append_assoc] at h
          exact absurd h.symm (hstart y (hys y List.mem_cons_self) _ _)
  | cons x xs =>
      rw [List.map_cons, joined_cons, List.append_assoc] at h
      cases ys with
      | nil => exact absurd h (hstart x (hplain x List.mem_cons_self) _ _)
      | cons y ys =>
          rw [List.map_cons, joined_cons, List.append_assoc] at h
          rw [List.forall_mem_cons] at hxs hys
          obtain ⟨hfirst, hrest⟩ := hxs.1 y hys.1 _ _ (stops_parts hdigit _ s)
            (stops_parts hdigit _ t) h
          obtain ⟨hlater, hst⟩ := parts_separable hcomma hdigit hxs.2 hys.2 hrest
          exact ⟨by rw [hfirst, hlater], hst⟩

end Separable

/-! ## Plain values -/

/-- The kinds of values that the first character of their text tells. -/
inductive Opening
  | null
  | bool (b : Bool)
  | number
  | text
  | list
  | map
deriving DecidableEq

/-- The kind of the value that a text starting with the character is of. -/
def Opening.of? (c : Char) : Option Opening :=
  if c.isDigit || c == '-' then some .number
  else match c with
    | 'n' => some .null
    | 't' => some (.bool true)
    | 'f' => some (.bool false)
    | '"' => some .text
    | '[' => some .list
    | '\x7b' => some .map
    | _ => none

namespace Literal

/-- The values made of null, booleans, whole numbers and strings by lists and by mappings whose
keys are strings. -/
inductive IsPlain : Literal → Prop
  | null : IsPlain (.scalar .null)
  | bool (b : Bool) : IsPlain (.scalar (.bool b))
  | int (i : Int) : IsPlain (.scalar (.int i))
  | str (s : String) : IsPlain (.scalar (.str s))
  | list {items : List Literal} (h : ∀ v ∈ items, IsPlain v) : IsPlain (.list items)
  | map {entries : List (Key × Literal)} (hkeys : ∀ e ∈ entries, ∃ key, e.1 = .str key)
      (h : ∀ e ∈ entries, IsPlain e.2) : IsPlain (.map entries)

/-- The kind of a value, for plain values. -/
def opening? : Literal → Option Opening
  | .scalar .null => some .null
  | .scalar (.bool b) => some (.bool b)
  | .scalar (.int _) => some .number
  | .scalar (.str _) => some .text
  | .list _ => some .list
  | .map _ => some .map
  | _ => none

theorem renderAll_eq (items : List Literal) : renderAll items = items.map render := by
  induction items with
  | nil => rfl
  | cons v vs ih => rw [renderAll, ih, List.map_cons]

/-- Feature text of an entry. -/
def renderEntry (e : Key × Literal) : List Char := member e.1.plain e.2.render

theorem renderEntries_eq (entries : List (Key × Literal)) :
    renderEntries entries = entries.map renderEntry := by
  induction entries with
  | nil => rfl
  | cons e es ih =>
      rw [renderEntries, ih, List.map_cons]
      rfl

theorem render_list (items : List Literal) :
    (list items).render = '[' :: joined (items.map render) ++ [']'] := by
  rw [render, renderAll_eq]
  rfl

theorem render_map (entries : List (Key × Literal)) :
    (map entries).render = '\x7b' :: joined (entries.map renderEntry) ++ ['\x7d'] := by
  rw [render, renderEntries_eq]
  rfl

/-- **The first character** of the text of a plain value tells its kind. -/
theorem IsPlain.head_render {v : Literal} (h : v.IsPlain) :
    ∃ c rest, v.render = c :: rest ∧ Opening.of? c = v.opening? := by
  cases h with
  | null => exact ⟨_, _, rfl, rfl⟩
  | bool b => cases b <;> exact ⟨_, _, rfl, rfl⟩
  | int i =>
      change ∃ c rest, integer i = c :: rest ∧ Opening.of? c = some .number
      unfold integer
      by_cases hi : i < 0
      · rw [if_pos hi]
        exact ⟨_, _, rfl, rfl⟩
      · obtain ⟨c, rest, hdigits, hc⟩ := head_numeral i.natAbs
        rw [if_neg hi, hdigits]
        refine ⟨c, rest, rfl, ?_⟩
        unfold Opening.of?
        rw [hc, Bool.true_or, if_pos rfl]
  | str s => exact ⟨_, _, rfl, rfl⟩
  | list => exact ⟨_, _, render_list _, rfl⟩
  | map => exact ⟨_, _, render_map _, rfl⟩

/-- No plain value starts with a bracket that closes a list. -/
theorem IsPlain.render_append_ne {v : Literal} (h : v.IsPlain) (s t : List Char) :
    v.render ++ s ≠ ']' :: t := by
  obtain ⟨c, rest, hrender, hopening⟩ := h.head_render
  rw [hrender]
  intro heq
  rw [(List.cons.inj heq).1] at hopening
  cases h <;> cases hopening

/-- Plain values with the same text in front are of the same kind. -/
theorem opening_of_render {v w : Literal} (hv : v.IsPlain) (hw : w.IsPlain) {s t : List Char}
    (h : v.render ++ s = w.render ++ t) : v.opening? = w.opening? := by
  obtain ⟨c, rest, hc, hvkind⟩ := hv.head_render
  obtain ⟨d, rest', hd, hwkind⟩ := hw.head_render
  rw [hc, hd] at h
  rw [← hvkind, (List.cons.inj h).1, hwkind]

/-- An entry of a plain mapping. -/
def IsPlainEntry (e : Key × Literal) : Prop := (∃ key, e.1 = .str key) ∧ e.2.IsPlain

/-- No entry starts with the brace that closes a mapping. -/
theorem renderEntry_append_ne (e : Key × Literal) (s t : List Char) :
    renderEntry e ++ s ≠ '\x7d' :: t := by
  unfold renderEntry member json
  intro h
  cases (List.cons.inj h).1

/-- An entry is separable if its value is. -/
theorem separable_entry {e : Key × Literal} (he : IsPlainEntry e)
    (h : Separable IsPlain render e.2) : Separable IsPlainEntry renderEntry e := by
  intro e' he' s t hs ht heq
  obtain ⟨key, value⟩ := e
  obtain ⟨key', value'⟩ := e'
  obtain ⟨⟨name, rfl⟩, -⟩ := he
  obtain ⟨⟨name', rfl⟩, hvalue'⟩ := he'
  unfold renderEntry member at heq
  rw [List.append_assoc, List.append_assoc, List.append_assoc, List.append_assoc] at heq
  obtain ⟨hname, hrest⟩ := json_append_inj heq
  obtain ⟨hvalue, hst⟩ := h _ hvalue' s t hs ht (List.append_cancel_left hrest)
  have hkey : name = name' := String.toList_inj.mp hname
  exact ⟨Prod.ext (congrArg Key.str hkey) hvalue, hst⟩

/-- **Plain values are separable.** -/
theorem IsPlain.separable {v : Literal} (h : v.IsPlain) : Separable IsPlain render v := by
  induction h with
  | null =>
      intro w hw s t _ _ heq
      have hkind := opening_of_render .null hw heq
      cases hw with
      | null => exact ⟨rfl, List.append_cancel_left heq⟩
      | _ => cases hkind
  | bool b =>
      intro w hw s t _ _ heq
      have hkind := opening_of_render (.bool b) hw heq
      cases hw with
      | bool b' =>
          cases hkind
          exact ⟨rfl, List.append_cancel_left heq⟩
      | _ => cases hkind
  | int i =>
      intro w hw s t hs ht heq
      have hkind := opening_of_render (.int i) hw heq
      cases hw with
      | int j =>
          obtain ⟨hij, hst⟩ := integer_append_inj hs ht heq
          exact ⟨by rw [hij], hst⟩
      | _ => cases hkind
  | str a =>
      intro w hw s t _ _ heq
      have hkind := opening_of_render (.str a) hw heq
      cases hw with
      | str b =>
          obtain ⟨hab, hst⟩ := json_append_inj heq
          have hsame : a = b := String.toList_inj.mp hab
          exact ⟨by rw [hsame], hst⟩
      | _ => cases hkind
  | @list items h ih =>
      intro w hw s t _ _ heq
      have hkind := opening_of_render (.list h) hw heq
      cases hw with
      | @list items' h' =>
          rw [render_list, render_list, List.append_assoc, List.append_assoc] at heq
          obtain ⟨hitems, hst⟩ := joined_separable (by decide) (by decide)
            (fun _ hplain => hplain.render_append_ne) h ih h' (List.cons.inj heq).2
          exact ⟨by rw [hitems], hst⟩
      | _ => cases hkind
  | @map entries hkeys h ih =>
      intro w hw s t _ _ heq
      have hkind := opening_of_render (.map hkeys h) hw heq
      cases hw with
      | @map entries' hkeys' h' =>
          rw [render_map, render_map, List.append_assoc, List.append_assoc] at heq
          have hplain : ∀ e ∈ entries, IsPlainEntry e := fun e he => ⟨hkeys e he, h e he⟩
          have hplain' : ∀ e ∈ entries', IsPlainEntry e := fun e he => ⟨hkeys' e he, h' e he⟩
          obtain ⟨hentries, hst⟩ := joined_separable (by decide) (by decide)
            (fun e _ => renderEntry_append_ne e) hplain
            (fun e he => separable_entry (hplain e he) (ih e he)) hplain' (List.cons.inj heq).2
          exact ⟨by rw [hentries], hst⟩
      | _ => cases hkind

/-- **Rendered values are told apart.**  Two values made of null, booleans, whole numbers of any
size, strings of any characters, lists, and mappings with strings as keys have the same feature
text exactly if they are the same, down to the order of the entries of mappings. -/
theorem render_eq_iff {v w : Literal} (hv : v.IsPlain) (hw : w.IsPlain) :
    v.render = w.render ↔ v = w := by
  constructor
  · intro h
    have heq : v.render ++ [] = w.render ++ [] := by rw [h]
    exact (hv.separable w hw [] [] stops_nil stops_nil heq).1
  · rintro rfl
    rfl

/-- A list of one string that looks like the end of it, and a list of two strings. -/
theorem quoted_comma_told :
    (list [.str "a\", \"b"]).IsPlain ∧ (list [.str "a", .str "b"]).IsPlain ∧
      (list [.str "a\", \"b"]).render ≠ (list [.str "a", .str "b"]).render := by
  have hone : (list [.str "a\", \"b"]).IsPlain :=
    .list (List.forall_mem_singleton.mpr (.str _))
  have htwo : (list [.str "a", .str "b"]).IsPlain :=
    .list (List.forall_mem_cons.mpr ⟨.str _, List.forall_mem_singleton.mpr (.str _)⟩)
  refine ⟨hone, htwo, fun h => ?_⟩
  cases congrArg List.length (Literal.list.inj ((render_eq_iff hone htwo).mp h))

end Literal

end Conformance
