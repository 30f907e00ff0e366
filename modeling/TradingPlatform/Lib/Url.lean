-- URLs: the five parts of RFC 3986 (appendix B), the percent escapes, and the parameters of a
-- query as a form has them. A decoded text is a list of bytes.
import Mathlib

namespace url

/-! ## UTF-8 -/

def utf8 (text : List Char) : List UInt8 := text.flatMap String.utf8EncodeChar

@[simp] theorem utf8_nil : utf8 [] = [] := rfl

@[simp] theorem utf8_cons (c : Char) (text : List Char) :
    utf8 (c :: text) = String.utf8EncodeChar c ++ utf8 text := List.flatMap_cons

theorem utf8_append (a b : List Char) : utf8 (a ++ b) = utf8 a ++ utf8 b := List.flatMap_append

theorem utf8_inj {a b : List Char} (h : utf8 a = utf8 b) : a = b := by
  have hbytes : a.utf8Encode = b.utf8Encode := congrArg List.toByteArray h
  have harrays : some a.toArray = some b.toArray := by
    rw [← List.utf8Decode?_utf8Encode, hbytes, List.utf8Decode?_utf8Encode]
  simpa using harrays

theorem encode_length_pos (c : Char) : 0 < (String.utf8EncodeChar c).length := by
  rw [String.length_utf8EncodeChar]
  exact c.utf8Size_pos

/-! ## Percent escapes -/

def hex_digit (n : Nat) : Char := "0123456789ABCDEF".toList.getD n '0'

/-- The value of a hex digit, small or capital. -/
def hex_value (c : Char) : Option Nat :=
  if '0' ≤ c ∧ c ≤ '9' then some (c.toNat - 48)
  else if 'A' ≤ c ∧ c ≤ 'F' then some (c.toNat - 55)
  else if 'a' ≤ c ∧ c ≤ 'f' then some (c.toNat - 87)
  else none

/-- The byte of two hex digits. -/
def octet (a b : Char) : Option UInt8 :=
  match hex_value a, hex_value b with
  | some m, some n => some (UInt8.ofNat (16 * m + n))
  | _, _ => none

/-- The escape of a byte. -/
def percent (b : UInt8) : List Char := ['%', hex_digit (b.toNat / 16), hex_digit (b.toNat % 16)]

/-- The text with every character escaped that is not kept. -/
def escape (keep : Char → Bool) (text : List Char) : List Char :=
  text.flatMap fun c => if keep c then [c] else (String.utf8EncodeChar c).flatMap percent

/-- The bytes of a text, in which a character that is not escaped stands for another one. A
percent sign without two hex digits is not an escape. -/
def unescape (f : Char → Char) : List Char → List UInt8
  | '%' :: a :: b :: rest =>
    match octet a b with
    | some n => n :: unescape f rest
    | none => String.utf8EncodeChar (f '%') ++ unescape f (a :: b :: rest)
  | c :: rest => String.utf8EncodeChar (f c) ++ unescape f rest
  | [] => []

/-- A percent sign with two hex digits behind it is in the text. -/
def escapes : List Char → Bool
  | '%' :: a :: b :: rest => (octet a b).isSome || escapes (a :: b :: rest)
  | _ :: rest => escapes rest
  | [] => false

theorem octet_digits (b : UInt8) :
    octet (hex_digit (b.toNat / 16)) (hex_digit (b.toNat % 16)) = some b := by
  have hdigit : ∀ n : Fin 16, hex_value (hex_digit n) = some n.1 := by decide
  have hb := b.toNat_lt
  have hhigh := hdigit ⟨b.toNat / 16, by omega⟩
  have hlow := hdigit ⟨b.toNat % 16, by omega⟩
  have hbyte : 16 * (b.toNat / 16) + b.toNat % 16 = b.toNat := Nat.div_add_mod _ _
  unfold octet
  rw [hhigh, hlow]
  dsimp only
  rw [hbyte, UInt8.ofNat_toNat]

theorem unescape_percent (f : Char → Char) (b : UInt8) (rest : List Char) :
    unescape f (percent b ++ rest) = b :: unescape f rest := by
  show unescape f ('%' :: _ :: _ :: rest) = _
  rw [unescape, octet_digits]

theorem unescape_percents (f : Char → Char) (bytes : List UInt8) (rest : List Char) :
    unescape f (bytes.flatMap percent ++ rest) = bytes ++ unescape f rest := by
  induction bytes with
  | nil => rfl
  | cons b bytes ih =>
    rw [List.flatMap_cons, List.append_assoc, unescape_percent, ih, List.cons_append]

theorem unescape_cons (f : Char → Char) {c : Char} (h : c ≠ '%') (rest : List Char) :
    unescape f (c :: rest) = String.utf8EncodeChar (f c) ++ unescape f rest := by
  rw [unescape]
  rintro a b rest' rfl
  exact absurd rfl h

theorem octet_isSome {a b : Char} :
    (octet a b).isSome = true ↔ (hex_value a).isSome = true ∧ (hex_value b).isSome = true := by
  unfold octet
  cases hex_value a with
  | none => simp
  | some m =>
    cases hex_value b with
    | none => simp
    | some n => simp

/-- The byte of the two hex digits at the front of a text. -/
def front : List Char → Option UInt8
  | a :: b :: _ => octet a b
  | _ => none

theorem unescape_lone (f : Char → Char) {rest : List Char} (h : front rest = none) :
    unescape f ('%' :: rest) = String.utf8EncodeChar (f '%') ++ unescape f rest := by
  match rest, h with
  | [], _ => rfl
  | [a], _ => rfl
  | a :: b :: rest, h =>
    have hoctet : octet a b = none := h
    rw [unescape, hoctet]

theorem front_of_head {text : List Char} (h : ∀ c ∈ text.head?, hex_value c = none) :
    front text = none := by
  match text, h with
  | [], _ => rfl
  | [a], _ => rfl
  | a :: b :: rest, h =>
    have ha : hex_value a = none := h a rfl
    show octet a b = none
    rw [octet, ha]

/-- What is kept where texts are escaped. -/
structure Keeps (keep : Char → Bool) : Prop where
  percent : keep '%' = true
  hex : ∀ c, (hex_value c).isSome = true → keep c = true

@[simp] theorem escape_nil (keep : Char → Bool) : escape keep [] = [] := rfl

theorem escape_kept {keep : Char → Bool} {c : Char} (h : keep c = true) (rest : List Char) :
    escape keep (c :: rest) = c :: escape keep rest := by
  simp [escape, h]

theorem escape_other {keep : Char → Bool} {c : Char} (h : keep c = false) (rest : List Char) :
    escape keep (c :: rest) = (String.utf8EncodeChar c).flatMap percent ++ escape keep rest := by
  simp [escape, h]

theorem escape_append (keep : Char → Bool) (a b : List Char) :
    escape keep (a ++ b) = escape keep a ++ escape keep b := List.flatMap_append

theorem escape_eq_self {keep : Char → Bool} {text : List Char} (h : ∀ c ∈ text, keep c = true) :
    escape keep text = text := by
  induction text with
  | nil => rfl
  | cons c text ih =>
    rw [escape_kept (h c List.mem_cons_self), ih fun x hx => h x (List.mem_cons_of_mem _ hx)]

/-- The escape of a character starts with a percent sign. -/
theorem escape_other_head {keep : Char → Bool} {c : Char} (h : keep c = false) (rest : List Char) :
    ∃ rest', escape keep (c :: rest) = '%' :: rest' := by
  have hpos := encode_length_pos c
  rw [escape_other h]
  cases hbytes : String.utf8EncodeChar c with
  | nil =>
    rw [hbytes] at hpos
    exact absurd hpos (Nat.lt_irrefl 0)
  | cons b bytes => exact ⟨_, rfl⟩

theorem not_hex_of_other {keep : Char → Bool} (hkeep : Keeps keep) {c : Char} (h : keep c = false) :
    hex_value c = none := by
  cases hvalue : hex_value c with
  | none => rfl
  | some n =>
    have hkept := hkeep.hex c (by rw [hvalue]; rfl)
    rw [h] at hkept
    cases hkept

theorem front_escape {keep : Char → Bool} (hkeep : Keeps keep) (text : List Char) :
    front (escape keep text) = front text := by
  have hpercent : hex_value '%' = none := by decide
  cases text with
  | nil => rfl
  | cons a rest =>
    by_cases ha : keep a = true
    · rw [escape_kept ha]
      cases rest with
      | nil => rfl
      | cons b rest =>
        by_cases hb : keep b = true
        · rw [escape_kept hb]
          rfl
        · have hb := (Bool.not_eq_true _).mp hb
          obtain ⟨rest', hrest'⟩ := escape_other_head hb rest
          rw [hrest']
          show octet a '%' = octet a b
          unfold octet
          rw [hpercent, not_hex_of_other hkeep hb]
    · have ha := (Bool.not_eq_true _).mp ha
      obtain ⟨rest', hrest'⟩ := escape_other_head ha rest
      rw [hrest', front_of_head (by intro c hc; cases hc; exact hpercent),
        front_of_head (by intro c hc; cases hc; exact not_hex_of_other hkeep ha)]

/-- What is behind a percent sign that does not escape a byte. -/
theorem front_of_not_match {rest : List Char} (h : ∀ a b rest', rest = a :: b :: rest' → False) :
    front rest = none := by
  match rest, h with
  | [], _ => rfl
  | [a], _ => rfl
  | a :: b :: rest, h => exact (h a b rest rfl).elim

/-- An escaped text has the bytes of the text. -/
theorem unescape_escape {f : Char → Char} {keep : Char → Bool} (hkeep : Keeps keep)
    (hf : ∀ c, keep c = false → f c = c) (text : List Char) :
    unescape f (escape keep text) = unescape f text := by
  fun_induction unescape f text with
  | case1 a b rest n hoctet ih =>
    obtain ⟨ha, hb⟩ := octet_isSome.mp (by rw [hoctet]; rfl : (octet a b).isSome = true)
    rw [escape_kept hkeep.percent, escape_kept (hkeep.hex a ha), escape_kept (hkeep.hex b hb),
      unescape, hoctet]
    exact congrArg (n :: ·) ih
  | case2 a b rest hoctet ih =>
    have hfront : front (escape keep (a :: b :: rest)) = none := by
      rw [front_escape hkeep]
      exact hoctet
    rw [escape_kept hkeep.percent, unescape_lone f hfront, ih]
  | case3 c rest hmatch ih =>
    by_cases hc : keep c = true
    · rw [escape_kept hc]
      by_cases hpercent : c = '%'
      · subst hpercent
        have hfront : front (escape keep rest) = none := by
          rw [front_escape hkeep]
          exact front_of_not_match fun a b rest' => hmatch a b rest' rfl
        rw [unescape_lone f hfront, ih]
      · rw [unescape_cons f hpercent, ih]
    · rw [escape_other ((Bool.not_eq_true _).mp hc), unescape_percents, ih,
        hf c ((Bool.not_eq_true _).mp hc)]
  | case4 => rfl

/-- Texts are decoded one by one, where the second one does not go on with an escape. -/
theorem unescape_append (f : Char → Char) (a : List Char) {b : List Char}
    (h : ∀ c ∈ b.head?, hex_value c = none) : unescape f (a ++ b) = unescape f a ++ unescape f b := by
  fun_induction unescape f a with
  | case1 x y rest n hoctet ih =>
    show unescape f ('%' :: x :: y :: (rest ++ b)) = _
    rw [unescape, hoctet]
    exact congrArg (n :: ·) ih
  | case2 x y rest hoctet ih =>
    show unescape f ('%' :: x :: y :: (rest ++ b)) = _
    rw [unescape, hoctet, List.append_assoc]
    exact congrArg (String.utf8EncodeChar (f '%') ++ ·) ih
  | case3 c rest hmatch ih =>
    rw [List.cons_append, List.append_assoc]
    by_cases hpercent : c = '%'
    · subst hpercent
      have hfront : front (rest ++ b) = none := by
        match rest, hmatch with
        | [], _ => exact front_of_head h
        | [x], _ =>
          cases b with
          | nil => rfl
          | cons y b =>
            have hy : hex_value y = none := h y rfl
            show octet x y = none
            unfold octet
            rw [hy]
            cases hex_value x <;> rfl
        | x :: y :: rest, hmatch => exact (hmatch x y rest rfl rfl).elim
      rw [unescape_lone f hfront, ih]
    · rw [unescape_cons f hpercent, ih]
  | case4 => rfl

theorem unescape_length_le {f : Char → Char}
    (hf : ∀ c, (String.utf8EncodeChar (f c)).length = (String.utf8EncodeChar c).length)
    (text : List Char) : (unescape f text).length ≤ (utf8 text).length := by
  fun_induction unescape f text with
  | case1 a b rest n hoctet ih =>
    have hpercent := encode_length_pos '%'
    simp only [utf8_cons, List.length_append, List.length_cons]
    omega
  | case2 a b rest hoctet ih =>
    rw [utf8_cons, List.length_append, List.length_append, hf]
    omega
  | case3 c rest hmatch ih =>
    rw [utf8_cons, List.length_append, List.length_append, hf]
    omega
  | case4 => exact Nat.le_refl _

/-- An escape takes three characters for one byte. -/
theorem unescape_length_lt {f : Char → Char}
    (hf : ∀ c, (String.utf8EncodeChar (f c)).length = (String.utf8EncodeChar c).length) {text : List Char} (h : escapes text = true) :
    (unescape f text).length < (utf8 text).length := by
  fun_induction unescape f text with
  | case1 a b rest n hoctet ih =>
    have hpercent := encode_length_pos '%'
    have ha := encode_length_pos a
    have hrest := unescape_length_le hf rest
    simp only [utf8_cons, List.length_append, List.length_cons]
    omega
  | case2 a b rest hoctet ih =>
    rw [escapes, hoctet, Option.isSome_none, Bool.false_or] at h
    have hlt := ih h
    rw [utf8_cons, List.length_append, List.length_append, hf]
    omega
  | case3 c rest hmatch ih =>
    rw [escapes.eq_2 c rest hmatch] at h
    have hlt := ih h
    rw [utf8_cons, List.length_append, List.length_append, hf]
    omega
  | case4 => cases h

theorem unescape_of_no_escapes (f : Char → Char) {text : List Char} (h : escapes text = false) :
    unescape f text = utf8 (text.map f) := by
  fun_induction unescape f text with
  | case1 a b rest n hoctet ih =>
    rw [escapes, hoctet, Option.isSome_some, Bool.true_or] at h
    cases h
  | case2 a b rest hoctet ih =>
    rw [escapes, hoctet, Option.isSome_none, Bool.false_or] at h
    rw [ih h, ← utf8_cons]
    rfl
  | case3 c rest hmatch ih =>
    rw [escapes.eq_2 c rest hmatch] at h
    rw [ih h, ← utf8_cons]
    rfl
  | case4 => rfl

theorem escapes_of_not_mem {text : List Char} (h : '%' ∉ text) : escapes text = false := by
  induction text with
  | nil => rfl
  | cons c text ih =>
    rw [List.mem_cons, not_or] at h
    obtain ⟨hc, htext⟩ := h
    rw [escapes.eq_2 c text fun a b rest he => absurd he.symm hc]
    exact ih htext

/-! ## The parts of a URL -/

/-- The text before the first `c`, and the text behind it. -/
def cut (c : Char) (text : List Char) : List Char × Option (List Char) :=
  (text.takeWhile (· ≠ c), (text.dropWhile (· ≠ c)).tail?)

structure Parts where
  scheme : Option (List Char)
  authority : Option (List Char)
  path : List Char
  query : Option (List Char)
  fragment : Option (List Char)
  deriving DecidableEq

def scheme_char (c : Char) : Bool := c.isAlphanum || c = '+' || c = '-' || c = '.'

/-- A scheme starts with a letter and ends with a colon. -/
def split_scheme (text : List Char) : Option (List Char) × List Char :=
  let name := text.takeWhile scheme_char
  let rest := text.dropWhile scheme_char
  if name.head?.any Char.isAlpha ∧ rest.head? = some ':' then (some name, rest.tail)
  else (none, text)

def split_authority (text : List Char) : Option (List Char) × List Char :=
  if text.head? = some '/' ∧ text.tail.head? = some '/' then
    let (authority, path) := cut '/' text.tail.tail
    (some authority, (path.map ('/' :: ·)).getD [])
  else (none, text)

def split (text : List Char) : Parts :=
  let (before, fragment) := cut '#' text
  let (before, query) := cut '?' before
  let (scheme, rest) := split_scheme before
  let (authority, path) := split_authority rest
  ⟨scheme, authority, path, query, fragment⟩

def Parts.map (f : List Char → List Char) (parts : Parts) : Parts :=
  ⟨parts.scheme.map f, parts.authority.map f, f parts.path, parts.query.map f,
    parts.fragment.map f⟩

theorem cut_of_not_mem {c : Char} {text : List Char} (h : c ∉ text) : cut c text = (text, none) := by
  have hne : ∀ x ∈ text, (decide (x ≠ c)) = true := by
    intro x hx
    exact decide_eq_true fun he => h (he ▸ hx)
  unfold cut
  rw [List.takeWhile_eq_self_iff.mpr hne, List.dropWhile_eq_nil_iff.mpr hne]
  rfl

theorem cut_append {c : Char} {a : List Char} (h : c ∉ a) (b : List Char) :
    cut c (a ++ c :: b) = (a, some b) := by
  have hne : ∀ x ∈ a, (decide (x ≠ c)) = true := by
    intro x hx
    exact decide_eq_true fun he => h (he ▸ hx)
  unfold cut
  rw [List.takeWhile_append_of_pos hne, List.dropWhile_append_of_pos hne]
  simp

/-- Where a text is cut, or that it is not. -/
theorem cut_cases (c : Char) (text : List Char) :
    (c ∉ text ∧ cut c text = (text, none)) ∨
      ∃ a b, c ∉ a ∧ text = a ++ c :: b ∧ cut c text = (a, some b) := by
  by_cases h : c ∈ text
  · obtain ⟨a, b, htext, ha⟩ := List.eq_append_cons_of_mem h
    refine Or.inr ⟨a, b, ha, htext, ?_⟩
    rw [htext, cut_append ha]
  · exact Or.inl ⟨h, cut_of_not_mem h⟩

/-! ## What is put behind a URL -/

/-- A URL without a query takes one. -/
theorem split_query {u : List Char} (hquery : '?' ∉ u) (hfragment : '#' ∉ u) {q : List Char}
    (hq : '#' ∉ q) : split (u ++ '?' :: q) = { split u with query := some q } := by
  have hwhole : '#' ∉ u ++ '?' :: q := by
    simp [hfragment, hq]
  unfold split
  rw [cut_of_not_mem hwhole, cut_of_not_mem hfragment]
  dsimp only
  rw [cut_append hquery, cut_of_not_mem hquery]

/-- What is put behind a URL with a fragment becomes a part of it. -/
theorem split_fragment {u : List Char} (h : '#' ∈ u) :
    ∃ b, (split u).fragment = some b ∧ ∀ x, (split (u ++ x)).fragment = some (b ++ x) := by
  obtain ⟨a, b, hu, ha⟩ := List.eq_append_cons_of_mem h
  refine ⟨b, ?_, ?_⟩
  · unfold split
    rw [hu, cut_append ha]
  · intro x
    unfold split
    rw [hu, List.append_assoc, List.cons_append, cut_append ha]

theorem split_no_fragment {u : List Char} (h : '#' ∉ u) : (split u).fragment = none := by
  unfold split
  rw [cut_of_not_mem h]

theorem split_some_fragment {u : List Char} (h : '#' ∈ u) : (split u).fragment ≠ none := by
  obtain ⟨b, hb, -⟩ := split_fragment h
  rw [hb]
  exact Option.some_ne_none b

theorem split_no_query {u : List Char} (hquery : '?' ∉ u) (hfragment : '#' ∉ u) :
    (split u).query = none := by
  unfold split
  rw [cut_of_not_mem hfragment]
  dsimp only
  rw [cut_of_not_mem hquery]

/-- What is put behind a URL with a query becomes a part of it. -/
theorem split_longer_query {u : List Char} (hquery : '?' ∈ u) (hfragment : '#' ∉ u) :
    ∃ q, (split u).query = some q ∧
      ∀ x, '#' ∉ x → split (u ++ x) = { split u with query := some (q ++ x) } := by
  obtain ⟨a, b, hu, ha⟩ := List.eq_append_cons_of_mem hquery
  subst hu
  have hfirst : '#' ∉ a := fun h => hfragment (List.mem_append_left _ h)
  have hrest : '#' ∉ b := fun h => hfragment (List.mem_append_right _ (List.mem_cons_of_mem _ h))
  rw [split_query ha hfirst hrest]
  refine ⟨b, rfl, ?_⟩
  intro x hx
  rw [List.append_assoc, List.cons_append, split_query ha hfirst (by simp [hrest, hx])]

/-! ## Escaped URLs -/

/-- The characters that have a meaning of their own in a URL, and the unreserved ones. -/
def url_char (c : Char) : Bool :=
  c.isAlphanum || "-._~:/?#[]@!$&'()*+,;=%".toList.contains c

theorem isAlphanum_of_hex {c : Char} (h : (hex_value c).isSome = true) : c.isAlphanum = true := by
  unfold hex_value at h
  simp only [Char.isAlphanum, Char.isAlpha, Char.isUpper, Char.isLower, Char.isDigit,
    Bool.or_eq_true, Bool.and_eq_true, decide_eq_true_iff]
  split at h
  · rename_i hc
    exact Or.inr hc
  · split at h
    · rename_i hc
      exact Or.inl (Or.inl ⟨hc.1, UInt32.le_trans hc.2 (by decide : 'F'.val ≤ 'Z'.val)⟩)
    · split at h
      · rename_i hc
        exact Or.inl (Or.inr ⟨hc.1, UInt32.le_trans hc.2 (by decide : 'f'.val ≤ 'z'.val)⟩)
      · cases h

theorem not_alphanum_percent : ('%' : Char).isAlphanum = false := by decide

/-- What is in an escaped text is in the text, or it is a letter, a digit or a percent sign. -/
theorem mem_escape {keep : Char → Bool} {c : Char} {text : List Char} (h : c ∈ escape keep text) :
    c ∈ text ∨ c = '%' ∨ c.isAlphanum = true := by
  obtain ⟨x, hx, hc⟩ := List.mem_flatMap.mp h
  split at hc
  · exact Or.inl (List.mem_singleton.mp hc ▸ hx)
  · obtain ⟨b, -, hc⟩ := List.mem_flatMap.mp hc
    have hdigit : ∀ n : Fin 16, (hex_digit n).isAlphanum = true := by decide
    have hb := b.toNat_lt
    unfold percent at hc
    simp only [List.mem_cons, List.not_mem_nil, or_false] at hc
    rcases hc with rfl | rfl | rfl
    · exact Or.inr (Or.inl rfl)
    · exact Or.inr (Or.inr (hdigit ⟨_, by omega⟩))
    · exact Or.inr (Or.inr (hdigit ⟨_, by omega⟩))

theorem not_mem_escape {keep : Char → Bool} {c : Char} {text : List Char} (hpercent : c ≠ '%')
    (halnum : c.isAlphanum = false) (h : c ∉ text) : c ∉ escape keep text := by
  intro hc
  rcases mem_escape hc with hmem | he | he
  · exact h hmem
  · exact hpercent he
  · rw [halnum] at he
    cases he

section Escaped

variable {keep : Char → Bool} (hkeep : ∀ c, url_char c = true → keep c = true)

include hkeep

theorem keep_alphanum {c : Char} (h : c.isAlphanum = true) : keep c = true := by
  apply hkeep
  unfold url_char
  rw [h, Bool.true_or]

theorem keeps_of_url_char : Keeps keep where
  percent := hkeep '%' (by decide)
  hex _ h := keep_alphanum hkeep (isAlphanum_of_hex h)

theorem cut_escape {c : Char} (hc : url_char c = true) (hpercent : c ≠ '%')
    (halnum : c.isAlphanum = false) (text : List Char) :
    cut c (escape keep text) = ((cut c text).1 |> escape keep, (cut c text).2.map (escape keep)) := by
  rcases cut_cases c text with ⟨hmem, hcut⟩ | ⟨a, b, ha, htext, hcut⟩
  · rw [hcut, cut_of_not_mem (not_mem_escape hpercent halnum hmem)]
    rfl
  · rw [hcut, htext, escape_append, escape_kept (hkeep c hc),
      cut_append (not_mem_escape hpercent halnum ha)]
    rfl

theorem takeWhile_scheme_escape (text : List Char) :
    (escape keep text).takeWhile scheme_char = text.takeWhile scheme_char ∧
      (escape keep text).dropWhile scheme_char = escape keep (text.dropWhile scheme_char) := by
  induction text with
  | nil => exact ⟨rfl, rfl⟩
  | cons c text ih =>
    by_cases hscheme : scheme_char c = true
    · have hkept : keep c = true := by
        unfold scheme_char at hscheme
        simp only [Bool.or_eq_true, decide_eq_true_iff] at hscheme
        rcases hscheme with ((h | rfl) | rfl) | rfl
        · exact keep_alphanum hkeep h
        · exact hkeep _ (by decide)
        · exact hkeep _ (by decide)
        · exact hkeep _ (by decide)
      rw [escape_kept hkept, List.takeWhile_cons_of_pos hscheme, List.dropWhile_cons_of_pos hscheme,
        List.takeWhile_cons_of_pos hscheme, List.dropWhile_cons_of_pos hscheme, ih.1, ih.2]
      exact ⟨rfl, rfl⟩
    · have hpercent : ¬ scheme_char '%' = true := by decide
      rw [List.takeWhile_cons_of_neg hscheme, List.dropWhile_cons_of_neg hscheme]
      by_cases hkept : keep c = true
      · rw [escape_kept hkept, List.takeWhile_cons_of_neg hscheme,
          List.dropWhile_cons_of_neg hscheme]
        exact ⟨rfl, rfl⟩
      · obtain ⟨rest, hrest⟩ := escape_other_head ((Bool.not_eq_true _).mp hkept) text
        rw [hrest, List.takeWhile_cons_of_neg hpercent, List.dropWhile_cons_of_neg hpercent]
        exact ⟨rfl, rfl⟩

theorem keep_scheme {c : Char} (h : scheme_char c = true) : keep c = true := by
  unfold scheme_char at h
  simp only [Bool.or_eq_true, decide_eq_true_iff] at h
  rcases h with ((h | rfl) | rfl) | rfl
  · exact keep_alphanum hkeep h
  · exact hkeep _ (by decide)
  · exact hkeep _ (by decide)
  · exact hkeep _ (by decide)

/-- An escaped text starts with a character of URLs exactly when the text does. -/
theorem head_escape {c : Char} (hc : url_char c = true) (hpercent : c ≠ '%') (text : List Char) :
    (escape keep text).head? = some c ↔ text.head? = some c := by
  cases text with
  | nil => rfl
  | cons x text =>
    by_cases hx : keep x = true
    · rw [escape_kept hx]
      rfl
    · obtain ⟨rest, hrest⟩ := escape_other_head ((Bool.not_eq_true _).mp hx) text
      rw [hrest]
      constructor
      · intro h
        cases h
        exact absurd rfl hpercent
      · intro h
        cases h
        exact absurd (hkeep _ hc) hx

theorem tail_escape {c : Char} (hc : url_char c = true) {text : List Char}
    (h : text.head? = some c) : (escape keep text).tail = escape keep text.tail := by
  cases text with
  | nil => cases h
  | cons x text =>
    cases h
    rw [escape_kept (hkeep _ hc)]
    rfl

theorem split_scheme_escape (text : List Char) :
    split_scheme (escape keep text) =
      ((split_scheme text).1.map (escape keep), escape keep (split_scheme text).2) := by
  obtain ⟨htake, hdrop⟩ := takeWhile_scheme_escape hkeep text
  have hself : escape keep (text.takeWhile scheme_char) = text.takeWhile scheme_char :=
    escape_eq_self fun c hc => keep_scheme hkeep (List.mem_takeWhile_imp hc)
  have hcolon := head_escape hkeep (c := ':') (by decide) (by decide)
    (text.dropWhile scheme_char)
  unfold split_scheme
  dsimp only
  simp only [htake, hdrop, hcolon]
  split
  · rename_i hscheme
    rw [tail_escape hkeep (by decide) hscheme.2, Option.map_some, hself]
  · rfl

theorem split_authority_escape (text : List Char) :
    split_authority (escape keep text) =
      ((split_authority text).1.map (escape keep), escape keep (split_authority text).2) := by
  have hslash : url_char '/' = true := by decide
  have hfirst := head_escape hkeep hslash (by decide) text
  unfold split_authority
  by_cases hhead : text.head? = some '/'
  · have hsecond := head_escape hkeep hslash (by decide) text.tail
    simp only [tail_escape hkeep hslash hhead, hfirst, hsecond]
    split
    · rename_i hboth
      rw [tail_escape hkeep hslash hboth.2, cut_escape hkeep hslash (by decide) (by decide)]
      dsimp only
      cases (cut '/' text.tail.tail).2 with
      | none => rfl
      | some path =>
        simp only [Option.map_some, Option.getD_some, escape_kept (hkeep '/' hslash)]
    · rfl
  · rw [if_neg fun h => hhead (hfirst.mp h.1), if_neg fun h => hhead h.1]
    rfl

/-- An escaped URL has the escaped parts of the URL. -/
theorem split_escape (text : List Char) :
    split (escape keep text) = (split text).map (escape keep) := by
  unfold split
  rw [cut_escape hkeep (by decide) (by decide) (by decide)]
  dsimp only
  rw [cut_escape hkeep (by decide) (by decide) (by decide)]
  dsimp only
  rw [split_scheme_escape hkeep]
  dsimp only
  rw [split_authority_escape hkeep]
  rfl

end Escaped

/-! ## The parameters of a query -/

/-- A plus sign stands for a space. -/
def plus (c : Char) : Char := if c = '+' then ' ' else c

def percent_decode (text : List Char) : List UInt8 := unescape id text

def form_decode (text : List Char) : List UInt8 := unescape plus text

/-- The name and the value of a parameter. -/
def pair (piece : List Char) : List UInt8 × List UInt8 :=
  (form_decode (cut '=' piece).1, form_decode ((cut '=' piece).2.getD []))

def params (query : List Char) : List (List UInt8 × List UInt8) :=
  ((query.splitOn '&').filter (· ≠ [])).map pair

theorem plus_length (c : Char) :
    (String.utf8EncodeChar (plus c)).length = (String.utf8EncodeChar c).length := by
  unfold plus
  split
  · rename_i hc
    rw [hc]
    rfl
  · rfl

theorem percent_decode_escape {keep : Char → Bool} (hkeep : ∀ c, url_char c = true → keep c = true)
    (text : List Char) : percent_decode (escape keep text) = percent_decode text :=
  unescape_escape (keeps_of_url_char hkeep) (fun _ _ => rfl) text

theorem form_decode_escape {keep : Char → Bool} (hkeep : ∀ c, url_char c = true → keep c = true)
    (text : List Char) : form_decode (escape keep text) = form_decode text := by
  refine unescape_escape (keeps_of_url_char hkeep) ?_ text
  intro c hc
  unfold plus
  rw [if_neg]
  rintro rfl
  rw [hkeep '+' (by decide)] at hc
  cases hc

theorem percent_decode_append (a : List Char) {b : List Char}
    (h : ∀ c ∈ b.head?, hex_value c = none) :
    percent_decode (a ++ b) = percent_decode a ++ percent_decode b := unescape_append id a h

theorem form_decode_append (a : List Char) {b : List Char}
    (h : ∀ c ∈ b.head?, hex_value c = none) :
    form_decode (a ++ b) = form_decode a ++ form_decode b := unescape_append plus a h

theorem form_decode_length_le (text : List Char) :
    (form_decode text).length ≤ (utf8 text).length := unescape_length_le plus_length text

/-- A text that a form reads as it stands. -/
theorem form_decode_eq_utf8_iff (text : List Char) :
    form_decode text = utf8 text ↔ '+' ∉ text ∧ escapes text = false := by
  have hmap : '+' ∉ text → text.map plus = text := by
    intro hplus
    rw [List.map_congr_left (g := id), List.map_id]
    intro c hc
    show (if c = '+' then ' ' else c) = id c
    rw [if_neg]
    · rfl
    · rintro rfl
      exact hplus hc
  constructor
  · intro h
    have hescapes : escapes text = false := by
      by_contra hne
      have hlt := unescape_length_lt plus_length ((Bool.not_eq_false _).mp hne)
      rw [show unescape plus text = utf8 text from h] at hlt
      exact absurd hlt (Nat.lt_irrefl _)
    refine ⟨?_, hescapes⟩
    intro hplus
    rw [form_decode, unescape_of_no_escapes plus hescapes] at h
    rw [← utf8_inj h, List.mem_map] at hplus
    obtain ⟨c, -, hc⟩ := hplus
    unfold plus at hc
    split at hc
    · exact absurd hc (by decide)
    · rename_i hne
      exact hne hc
  · rintro ⟨hplus, hescapes⟩
    rw [form_decode, unescape_of_no_escapes plus hescapes, hmap hplus]

theorem pair_escape {keep : Char → Bool} (hkeep : ∀ c, url_char c = true → keep c = true)
    (piece : List Char) : pair (escape keep piece) = pair piece := by
  unfold pair
  rw [cut_escape hkeep (by decide) (by decide) (by decide)]
  dsimp only
  rw [form_decode_escape hkeep]
  cases (cut '=' piece).2 with
  | none => rfl
  | some value =>
    rw [Option.map_some, Option.getD_some, Option.getD_some, form_decode_escape hkeep]

@[simp] theorem params_nil : params [] = [] := rfl

theorem params_piece {piece : List Char} (h : '&' ∉ piece) (hne : piece ≠ []) :
    params piece = [pair piece] := by
  unfold params
  rw [List.splitOn_eq_singleton h, List.filter_cons_of_pos (by simpa using hne)]
  rfl

theorem params_append (a b : List Char) : params (a ++ '&' :: b) = params a ++ params b := by
  unfold params
  rw [List.splitOn_append_cons_self, List.filter_append, List.map_append]

/-- Every query is a piece, or a piece in front of a shorter query. -/
theorem pieces_induction {P : List Char → Prop} (hpiece : ∀ a, '&' ∉ a → P a)
    (hcons : ∀ a b, '&' ∉ a → P b → P (a ++ '&' :: b)) (query : List Char) : P query := by
  by_cases h : '&' ∈ query
  · obtain ⟨a, b, hquery, ha⟩ := List.eq_append_cons_of_mem h
    subst hquery
    exact hcons a b ha (pieces_induction hpiece hcons b)
  · exact hpiece query h
termination_by query.length
decreasing_by
  subst_vars
  simp only [List.length_append, List.length_cons]
  omega

theorem params_escape {keep : Char → Bool} (hkeep : ∀ c, url_char c = true → keep c = true)
    (query : List Char) : params (escape keep query) = params query := by
  have hpiece : ∀ a, '&' ∉ a → params (escape keep a) = params a := by
    intro a ha
    have hescaped : '&' ∉ escape keep a := not_mem_escape (by decide) (by decide) ha
    cases a with
    | nil => rfl
    | cons c a =>
      have hne : escape keep (c :: a) ≠ [] := by
        by_cases hc : keep c = true
        · rw [escape_kept hc]
          exact List.cons_ne_nil _ _
        · obtain ⟨rest, hrest⟩ := escape_other_head ((Bool.not_eq_true _).mp hc) a
          rw [hrest]
          exact List.cons_ne_nil _ _
      rw [params_piece hescaped hne, params_piece ha (List.cons_ne_nil _ _), pair_escape hkeep]
  induction query using pieces_induction with
  | hpiece a ha => exact hpiece a ha
  | hcons a b ha ih =>
    rw [escape_append, escape_kept (hkeep '&' (by decide)), params_append, params_append,
      hpiece a ha, ih]

/-- What stands behind the last piece of a query becomes a part of it. -/
theorem exists_last_piece (query : List Char) :
    ∃ front piece, '&' ∉ piece ∧ ∀ x, params (query ++ x) = front ++ params (piece ++ x) := by
  induction query using pieces_induction with
  | hpiece a ha => exact ⟨[], a, ha, fun x => rfl⟩
  | hcons a b ha ih =>
    obtain ⟨front, piece, hpiece, hparams⟩ := ih
    refine ⟨params a ++ front, piece, hpiece, ?_⟩
    intro x
    rw [List.append_assoc, List.cons_append, params_append, hparams, List.append_assoc]

end url
