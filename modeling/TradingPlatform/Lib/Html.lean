-- HTML as a browser reads it (the HTML standard): the tags of a text with their attributes. What
-- stands between the tags is not kept. A script is read like a style, up to its end tag.
import TradingPlatform.Lib.Url

namespace html

/-! ## Newlines -/

/-- A carriage return is a line feed, together with a line feed behind it. -/
def normalize_newlines : List Char → List Char
  | '\r' :: '\n' :: rest => '\n' :: normalize_newlines rest
  | '\r' :: rest => '\n' :: normalize_newlines rest
  | c :: rest => c :: normalize_newlines rest
  | [] => []

/-! ## Character references -/

/-- The characters that numbers from 128 to 159 stand for. -/
def windows_1252 : List (Nat × Nat) :=
  [(0x80, 0x20ac), (0x82, 0x201a), (0x83, 0x192), (0x84, 0x201e), (0x85, 0x2026), (0x86, 0x2020),
    (0x87, 0x2021), (0x88, 0x2c6), (0x89, 0x2030), (0x8a, 0x160), (0x8b, 0x2039), (0x8c, 0x152),
    (0x8e, 0x17d), (0x91, 0x2018), (0x92, 0x2019), (0x93, 0x201c), (0x94, 0x201d), (0x95, 0x2022),
    (0x96, 0x2013), (0x97, 0x2014), (0x98, 0x2dc), (0x99, 0x2122), (0x9a, 0x161), (0x9b, 0x203a),
    (0x9c, 0x153), (0x9e, 0x17e), (0x9f, 0x178)]

/-- The character of a number. What is no character is the replacement character. -/
def numeric_char (n : Nat) : Char :=
  if n = 0 ∨ 0x10ffff < n ∨ 0xd800 ≤ n ∧ n ≤ 0xdfff then '\ufffd'
  else Char.ofNat ((windows_1252.lookup n).getD n)

/-- The digits of a base at the beginning of a text, and a semicolon behind them. `skipped` is the
length of what is before the digits. -/
def numeric_reference (base skipped : Nat) (text : List Char) : Option (Nat × List Char) :=
  let digits := text.takeWhile fun c => (url.hex_value c).any (· < base)
  if digits = [] then none
  else
    let n := digits.foldl (fun n c => base * n + (url.hex_value c).getD 0) 0
    let semicolon := if (text.drop digits.length).head? = some ';' then 1 else 0
    some (skipped + digits.length + semicolon, [numeric_char n])

section References

-- what a name stands for; a name may end with a semicolon
variable (named : List Char → Option (List Char))

/-- The longest name at the beginning of a text: its length, and what it stands for. -/
def longest_name (text : List Char) : Option (Nat × List Char) :=
  (List.range text.length).reverse.findSome? fun k =>
    (named (text.take (k + 1))).map fun chars => (k + 1, chars)

/-- In an attribute, a name without a semicolon is none before an equals sign, a letter or a
digit. -/
def named_reference (text : List Char) : Option (Nat × List Char) :=
  (longest_name named text).filter fun (n, _) =>
    (text.take n).getLast? = some ';' || !(text.drop n).head?.any fun c => c = '=' || c.isAlphanum

/-- What an ampersand and the text behind it stand for, with the length of what is read. -/
def reference : List Char → Option (Nat × List Char)
  | '#' :: 'x' :: text => numeric_reference 16 2 text
  | '#' :: 'X' :: text => numeric_reference 16 2 text
  | '#' :: text => numeric_reference 10 1 text
  | text => named_reference named text

/-- The value of an attribute behind `skipped` characters. -/
def decode_from : Nat → List Char → List Char
  | _, [] => []
  | skipped + 1, _ :: text => decode_from skipped text
  | 0, c :: text =>
    if c = '&' then
      match reference named text with
      | some (n, chars) => chars ++ decode_from n text
      | none => c :: decode_from 0 text
    else c :: decode_from 0 text

def decode (raw : List Char) : List Char := decode_from named 0 raw

/-- There is a character reference in the text. -/
def has_reference : List Char → Bool
  | [] => false
  | c :: text => c = '&' && (reference named text).isSome || has_reference text

end References

/-! ## Tags -/

structure Tag where
  closing : Bool
  name : List Char
  attributes : List (List Char × List Char) := []
  self_closing : Bool := false
  deriving DecidableEq

/-- The first attribute of a name is the one that counts. -/
def Tag.add (tag : Tag) (name value : List Char) : Tag :=
  if name ∈ tag.attributes.map (·.1) then tag
  else { tag with attributes := tag.attributes ++ [(name, value)] }

/-- An end tag has no attributes. -/
def Tag.emitted (tag : Tag) : Tag :=
  if tag.closing then { tag with attributes := [], self_closing := false } else tag

def Tag.decode (named : List Char → Option (List Char)) (tag : Tag) : Tag :=
  { tag with attributes := tag.attributes.map fun (name, raw) => (name, html.decode named raw) }

inductive Quote where
  | double
  | single
  | none
  deriving DecidableEq

inductive State where
  | data
  /-- The text of an element that has no elements. -/
  | text (element : List Char)
  | text_less_than (element : List Char)
  | text_end_tag_open (element : List Char)
  | text_end_tag_name (element seen : List Char)
  | plaintext
  | tag_open
  | end_tag_open
  | tag_name (tag : Tag)
  | before_attribute_name (tag : Tag)
  | attribute_name (tag : Tag) (name : List Char)
  | after_attribute_name (tag : Tag) (name : List Char)
  | before_attribute_value (tag : Tag) (name : List Char)
  | attribute_value (quote : Quote) (tag : Tag) (name raw : List Char)
  | after_attribute_value (tag : Tag)
  | self_closing_start_tag (tag : Tag)
  | markup_declaration (seen : List Char)
  /-- A comment that is none, or the doctype. -/
  | until_greater
  | comment_start
  | comment_start_dash
  | comment
  | comment_end_dash
  | comment_end
  | comment_end_bang
  deriving DecidableEq

def space (c : Char) : Bool := c = '\t' || c = '\n' || c = '\x0c' || c = ' '

/-- A null is replaced. -/
def unnull (c : Char) : Char := if c = '\x00' then '\ufffd' else c

/-- The elements whose text is read up to the end tag. -/
def text_elements : List (List Char) :=
  ["title", "textarea", "style", "xmp", "iframe", "noembed", "noframes", "noscript", "script"].map
    String.toList

/-- What is behind a tag. -/
def behind (tag : Tag) : State :=
  if tag.closing then .data
  else if tag.name ∈ text_elements then .text tag.name
  else if tag.name = "plaintext".toList then .plaintext
  else .data

def emit (tag : Tag) : State × Option Tag := (behind tag, some tag.emitted)

def stay (state : State) : State × Option Tag := (state, none)

/-! ## One character -/

def step_data (c : Char) : State × Option Tag := stay (if c = '<' then .tag_open else .data)

def step_text (element : List Char) (c : Char) : State × Option Tag :=
  stay (if c = '<' then .text_less_than element else .text element)

def step_attribute_name (tag : Tag) (name : List Char) (c : Char) : State × Option Tag :=
  if space c then stay (.after_attribute_name tag name)
  else if c = '/' then stay (.self_closing_start_tag (tag.add name []))
  else if c = '>' then emit (tag.add name [])
  else if c = '=' then stay (.before_attribute_value tag name)
  else stay (.attribute_name tag (name ++ [unnull c.toLower]))

def step_before_attribute_name (tag : Tag) (c : Char) : State × Option Tag :=
  if space c then stay (.before_attribute_name tag)
  else if c = '/' then stay (.self_closing_start_tag tag)
  else if c = '>' then emit tag
  else if c = '=' then stay (.attribute_name tag ['='])
  else step_attribute_name tag [] c

def step_tag_name (tag : Tag) (c : Char) : State × Option Tag :=
  if space c then stay (.before_attribute_name tag)
  else if c = '/' then stay (.self_closing_start_tag tag)
  else if c = '>' then emit tag
  else stay (.tag_name { tag with name := tag.name ++ [unnull c.toLower] })

def step_unquoted (tag : Tag) (name raw : List Char) (c : Char) : State × Option Tag :=
  if space c then stay (.before_attribute_name (tag.add name raw))
  else if c = '>' then emit (tag.add name raw)
  else stay (.attribute_value .none tag name (raw ++ [unnull c]))

def step_until_greater (c : Char) : State × Option Tag :=
  stay (if c = '>' then .data else .until_greater)

def step_comment (c : Char) : State × Option Tag :=
  stay (if c = '-' then .comment_end_dash else .comment)

def step_markup_declaration (seen : List Char) (c : Char) : State × Option Tag :=
  let seen := seen ++ [c.toLower]
  if seen = "--".toList then stay .comment_start
  else if seen = "doctype".toList then stay .until_greater
  else if seen.isPrefixOf "--".toList || seen.isPrefixOf "doctype".toList then
    stay (.markup_declaration seen)
  else step_until_greater c

def step_text_end_tag_name (element seen : List Char) (c : Char) : State × Option Tag :=
  let tag : Tag := { closing := true, name := seen }
  if c.isAlpha then stay (.text_end_tag_name element (seen ++ [c.toLower]))
  else if seen = element ∧ space c then stay (.before_attribute_name tag)
  else if seen = element ∧ c = '/' then stay (.self_closing_start_tag tag)
  else if seen = element ∧ c = '>' then emit tag
  else step_text element c

def step : State → Char → State × Option Tag
  | .data, c => step_data c
  | .text element, c => step_text element c
  | .text_less_than element, c =>
    if c = '/' then stay (.text_end_tag_open element) else step_text element c
  | .text_end_tag_open element, c =>
    if c.isAlpha then stay (.text_end_tag_name element [c.toLower]) else step_text element c
  | .text_end_tag_name element seen, c => step_text_end_tag_name element seen c
  | .plaintext, _ => stay .plaintext
  | .tag_open, c =>
    if c = '!' then stay (.markup_declaration [])
    else if c = '/' then stay .end_tag_open
    else if c.isAlpha then stay (.tag_name { closing := false, name := [c.toLower] })
    else if c = '?' then stay .until_greater
    else step_data c
  | .end_tag_open, c =>
    if c.isAlpha then stay (.tag_name { closing := true, name := [c.toLower] })
    else step_until_greater c
  | .tag_name tag, c => step_tag_name tag c
  | .before_attribute_name tag, c => step_before_attribute_name tag c
  | .attribute_name tag name, c => step_attribute_name tag name c
  | .after_attribute_name tag name, c =>
    if space c then stay (.after_attribute_name tag name)
    else if c = '/' then stay (.self_closing_start_tag (tag.add name []))
    else if c = '=' then stay (.before_attribute_value tag name)
    else if c = '>' then emit (tag.add name [])
    else step_attribute_name (tag.add name []) [] c
  | .before_attribute_value tag name, c =>
    if space c then stay (.before_attribute_value tag name)
    else if c = '"' then stay (.attribute_value .double tag name [])
    else if c = '\'' then stay (.attribute_value .single tag name [])
    else if c = '>' then emit (tag.add name [])
    else step_unquoted tag name [] c
  | .attribute_value .double tag name raw, c =>
    stay (if c = '"' then .after_attribute_value (tag.add name raw)
      else .attribute_value .double tag name (raw ++ [unnull c]))
  | .attribute_value .single tag name raw, c =>
    stay (if c = '\'' then .after_attribute_value (tag.add name raw)
      else .attribute_value .single tag name (raw ++ [unnull c]))
  | .attribute_value .none tag name raw, c => step_unquoted tag name raw c
  | .after_attribute_value tag, c =>
    if space c then stay (.before_attribute_name tag)
    else if c = '/' then stay (.self_closing_start_tag tag)
    else if c = '>' then emit tag
    else step_before_attribute_name tag c
  | .self_closing_start_tag tag, c =>
    if c = '>' then emit { tag with self_closing := true } else step_before_attribute_name tag c
  | .markup_declaration seen, c => step_markup_declaration seen c
  | .until_greater, c => step_until_greater c
  | .comment_start, c =>
    if c = '-' then stay .comment_start_dash else if c = '>' then stay .data else step_comment c
  | .comment_start_dash, c =>
    if c = '-' then stay .comment_end else if c = '>' then stay .data else step_comment c
  | .comment, c => step_comment c
  | .comment_end_dash, c => if c = '-' then stay .comment_end else step_comment c
  | .comment_end, c =>
    if c = '>' then stay .data
    else if c = '!' then stay .comment_end_bang
    else if c = '-' then stay .comment_end
    else step_comment c
  | .comment_end_bang, c =>
    if c = '-' then stay .comment_end_dash else if c = '>' then stay .data else step_comment c

/-! ## A text -/

/-- The state behind a text, and the tags in it. -/
def go (state : State) : List Char → State × List Tag
  | [] => (state, [])
  | c :: text =>
    let (next, tag) := step state c
    let (last, tags) := go next text
    (last, tag.toList ++ tags)

/-- The tags of a text with their attributes. -/
def tags (named : List Char → Option (List Char)) (text : List Char) : List Tag :=
  (go .data (normalize_newlines text)).2.map (Tag.decode named)

/-! ## Lemmas on newlines -/

theorem normalize_length_le (text : List Char) : (normalize_newlines text).length ≤ text.length := by
  fun_induction normalize_newlines text with
  | case1 rest ih =>
    simp only [List.length_cons]
    omega
  | case2 rest h ih =>
    simp only [List.length_cons]
    omega
  | case3 c rest h1 h2 ih =>
    simp only [List.length_cons]
    omega
  | case4 => exact Nat.le_refl _

/-- No carriage return is left. -/
theorem no_return_normalize (text : List Char) : '\r' ∉ normalize_newlines text := by
  fun_induction normalize_newlines text with
  | case1 rest ih => simp [ih]
  | case2 rest h ih => simp [ih]
  | case3 c rest h1 h2 ih =>
    have hc : '\r' ≠ c := fun h => h2 h.symm
    simp [ih, hc]
  | case4 => exact List.not_mem_nil

theorem mem_normalize {text : List Char} {c : Char} (h : c ∈ normalize_newlines text) :
    c = '\n' ∨ c ∈ text := by
  fun_induction normalize_newlines text with
  | case1 rest ih =>
    rcases List.mem_cons.mp h with hc | hc
    · exact Or.inl hc
    · exact (ih hc).imp_right fun hin => List.mem_cons_of_mem _ (List.mem_cons_of_mem _ hin)
  | case2 rest hrest ih =>
    rcases List.mem_cons.mp h with hc | hc
    · exact Or.inl hc
    · exact (ih hc).imp_right (List.mem_cons_of_mem _)
  | case3 d rest h1 h2 ih =>
    rcases List.mem_cons.mp h with hc | hc
    · exact Or.inr (hc ▸ List.mem_cons_self)
    · exact (ih hc).imp_right (List.mem_cons_of_mem _)
  | case4 => cases h

theorem normalize_cons {c : Char} (h : c ≠ '\r') (text : List Char) :
    normalize_newlines (c :: text) = c :: normalize_newlines text := by
  rw [normalize_newlines]
  · intro rest hc
    exact absurd hc h
  · exact h

theorem normalize_of_prefix {a : List Char} (h : '\r' ∉ a) (b : List Char) :
    normalize_newlines (a ++ b) = a ++ normalize_newlines b := by
  induction a with
  | nil => rfl
  | cons c a ih =>
    have hc : c ≠ '\r' := by
      rintro rfl
      exact h List.mem_cons_self
    rw [List.cons_append, normalize_cons hc, ih fun ha => h (List.mem_cons_of_mem c ha),
      List.cons_append]

theorem normalize_of_no_return {text : List Char} (h : '\r' ∉ text) :
    normalize_newlines text = text := by
  have happend := normalize_of_prefix h []
  rwa [List.append_nil, normalize_newlines, List.append_nil] at happend

/-- Texts are read one after the other, if no line feed begins the second one. -/
theorem normalize_append (a : List Char) {b : List Char} (h : b.head? ≠ some '\n') :
    normalize_newlines (a ++ b) = normalize_newlines a ++ normalize_newlines b := by
  fun_induction normalize_newlines a with
  | case1 rest ih =>
    rw [List.cons_append, List.cons_append, normalize_newlines, ih, List.cons_append]
  | case2 rest hrest ih =>
    rw [List.cons_append, List.cons_append, ← ih]
    rw [normalize_newlines]
    intro more heq
    cases rest with
    | nil =>
      rw [List.nil_append] at heq
      rw [heq] at h
      exact h rfl
    | cons d rest =>
      obtain ⟨rfl, -⟩ := List.cons.inj heq
      exact hrest _ rfl
  | case3 c rest h1 h2 ih =>
    rw [List.cons_append, normalize_cons h2, ih, List.cons_append]
  | case4 => rfl

/-! ## Lemmas on references -/

section References

variable {named : List Char → Option (List Char)}
  (hnamed : ∀ name chars, named name = some chars → chars.length ≤ name.length)

theorem numeric_reference_le {base skipped : Nat} {text chars : List Char} {n : Nat}
    (h : numeric_reference base skipped text = some (n, chars)) :
    chars.length = 1 ∧ 1 ≤ n ∧ n ≤ skipped + text.length := by
  unfold numeric_reference at h
  dsimp only at h
  split at h
  · cases h
  · rename_i hne
    cases h
    have hpos := List.length_pos_iff.mpr hne
    have hle := (List.takeWhile_prefix (l := text) fun c => (url.hex_value c).any (· < base)).length_le
    refine ⟨rfl, by omega, ?_⟩
    split
    · rename_i hsemicolon
      have hdrop : text.drop (text.takeWhile fun c => (url.hex_value c).any (· < base)).length ≠ [] := by
        intro hnil
        rw [hnil] at hsemicolon
        cases hsemicolon
      rw [Ne, List.drop_eq_nil_iff] at hdrop
      omega
    · omega

include hnamed

theorem named_reference_le {text chars : List Char} {n : Nat}
    (h : named_reference named text = some (n, chars)) :
    chars.length ≤ n ∧ n ≤ text.length := by
  obtain ⟨hlongest, -⟩ := Option.filter_eq_some_iff.mp h
  obtain ⟨k, hk, hname⟩ := List.exists_of_findSome?_eq_some hlongest
  obtain ⟨found, hfound, heq⟩ := Option.map_eq_some_iff.mp hname
  obtain ⟨rfl, rfl⟩ := Prod.mk.inj heq
  have hlt : k < text.length := List.mem_range.mp (List.mem_reverse.mp hk)
  have hlength := hnamed _ _ hfound
  rw [List.length_take] at hlength
  omega

/-- A reference is longer than what it stands for, with its ampersand. -/
theorem reference_le {text chars : List Char} {n : Nat}
    (h : reference named text = some (n, chars)) : chars.length ≤ n ∧ n ≤ text.length := by
  unfold reference at h
  split at h
  · have hle := numeric_reference_le h
    simp only [List.length_cons]
    omega
  · have hle := numeric_reference_le h
    simp only [List.length_cons]
    omega
  · have hle := numeric_reference_le h
    simp only [List.length_cons]
    omega
  · exact named_reference_le hnamed h

theorem decode_from_length_le (skipped : Nat) (text : List Char) :
    (decode_from named skipped text).length ≤ text.length - skipped := by
  fun_induction decode_from named skipped text with
  | case1 => exact Nat.zero_le _
  | case2 skipped c text ih =>
    simp only [List.length_cons]
    omega
  | case3 text n chars h ih =>
    have hle := reference_le hnamed h
    simp only [List.length_append, List.length_cons]
    omega
  | case4 text h ih =>
    simp only [List.length_cons]
    omega
  | case5 c text h ih =>
    simp only [List.length_cons]
    omega

theorem decode_length_lt {text : List Char} (h : has_reference named text = true) :
    (decode named text).length < text.length := by
  unfold decode
  induction text with
  | nil => cases h
  | cons c text ih =>
    rw [has_reference, Bool.or_eq_true, Bool.and_eq_true] at h
    by_cases hc : c = '&'
    · cases href : reference named text with
      | none =>
        rw [href] at h
        have hrest := ih (h.resolve_left fun hleft => nomatch hleft.2)
        rw [decode_from, if_pos hc, href]
        simp only [List.length_cons]
        omega
      | some found =>
        obtain ⟨n, chars⟩ := found
        have hle := reference_le hnamed href
        have hbehind := decode_from_length_le hnamed n text
        rw [decode_from, if_pos hc, href]
        simp only [List.length_append, List.length_cons]
        omega
    · have hrest := ih (h.resolve_left fun hleft => hc (of_decide_eq_true hleft.1))
      rw [decode_from, if_neg hc]
      simp only [List.length_cons]
      omega

omit hnamed in
theorem decode_of_no_reference {text : List Char} (h : has_reference named text = false) :
    decode named text = text := by
  unfold decode
  induction text with
  | nil => rfl
  | cons c text ih =>
    rw [has_reference, Bool.or_eq_false_iff] at h
    have hrest := ih h.2
    by_cases hc : c = '&'
    · have hnone : reference named text = none := by
        rw [decide_eq_true hc, Bool.true_and] at h
        exact Option.isSome_eq_false_iff.mp h.1 |> Option.isNone_iff_eq_none.mp
      rw [decode_from, if_pos hc, hnone]
      dsimp only
      rw [hrest]
    · rw [decode_from, if_neg hc, hrest]

end References

/-! ## The value of an attribute -/

/-- The value that is read up to the first quote. -/
def raw_value (text : List Char) : List Char :=
  ((normalize_newlines text).takeWhile (· ≠ '"')).map unnull

/-- A text that stands for itself between two quotes. -/
structure Plain (named : List Char → Option (List Char)) (text : List Char) : Prop where
  no_quote : '"' ∉ text
  no_return : '\r' ∉ text
  no_null : '\x00' ∉ text
  no_reference : has_reference named text = false

theorem unnull_ne_null (c : Char) : unnull c ≠ '\x00' := by
  unfold unnull
  split
  · decide
  · assumption

theorem map_unnull {text : List Char} (h : '\x00' ∉ text) : text.map unnull = text := by
  have hself : ∀ c ∈ text, unnull c = c := by
    intro c hc
    refine if_neg ?_
    rintro rfl
    exact h hc
  rw [List.map_congr_left hself, List.map_id']

/-- Only a null is replaced. -/
theorem mem_map_unnull {text : List Char} {c : Char} (hc : c ≠ '\ufffd') (h : c ∈ text.map unnull) :
    c ∈ text := by
  obtain ⟨d, hd, heq⟩ := List.mem_map.mp h
  unfold unnull at heq
  split at heq
  · exact absurd heq.symm hc
  · exact heq ▸ hd

/-- A text is the value that is read of it exactly when it stands for itself. -/
theorem decode_raw_value_iff {named : List Char → Option (List Char)}
    (hnamed : ∀ name chars, named name = some chars → chars.length ≤ name.length)
    (text : List Char) : decode named (raw_value text) = text ↔ Plain named text := by
  constructor
  · intro h
    -- nothing got shorter on the way
    have hnormalize := normalize_length_le text
    have htake := (List.takeWhile_prefix (l := normalize_newlines text) (· ≠ '"')).length_le
    have hraw : (raw_value text).length =
        ((normalize_newlines text).takeWhile (· ≠ '"')).length := List.length_map _
    have hdecode := decode_from_length_le hnamed 0 (raw_value text)
    have hlength : (decode named (raw_value text)).length = text.length := congrArg List.length h
    have hno : has_reference named (raw_value text) = false := by
      by_contra hsome
      rw [Bool.not_eq_false] at hsome
      have hlt := decode_length_lt hnamed hsome
      omega
    have hself : raw_value text = text := (decode_of_no_reference hno).symm.trans h
    have hwhole : (normalize_newlines text).takeWhile (· ≠ '"') = normalize_newlines text := by
      apply (List.takeWhile_prefix _).eq_of_length
      rw [hself] at hraw
      omega
    have hmap : text = (normalize_newlines text).map unnull := by
      conv_lhs => rw [← hself, raw_value, hwhole]
    have hquote : '"' ∉ normalize_newlines text := by
      intro hin
      exact of_decide_eq_true (List.takeWhile_eq_self_iff.mp hwhole _ hin) rfl
    constructor
    · intro hin
      rw [hmap] at hin
      exact hquote (mem_map_unnull (by decide) hin)
    · intro hin
      rw [hmap] at hin
      exact no_return_normalize text (mem_map_unnull (by decide) hin)
    · intro hin
      rw [hmap] at hin
      obtain ⟨c, -, hc⟩ := List.mem_map.mp hin
      exact unnull_ne_null c hc
    · rw [hself] at hno
      exact hno
  · intro h
    have hwhole : text.takeWhile (· ≠ '"') = text := by
      rw [List.takeWhile_eq_self_iff]
      exact fun c hc => decide_eq_true fun hquote => h.no_quote (hquote ▸ hc)
    rw [raw_value, normalize_of_no_return h.no_return, hwhole, map_unnull h.no_null,
      decode_of_no_reference h.no_reference]

/-! ## Lemmas on texts -/

theorem go_cons (state : State) (c : Char) (text : List Char) :
    go state (c :: text) =
      ((go (step state c).1 text).1, (step state c).2.toList ++ (go (step state c).1 text).2) := rfl

theorem go_append (state : State) (a b : List Char) :
    go state (a ++ b) =
      ((go (go state a).1 b).1, (go state a).2 ++ (go (go state a).1 b).2) := by
  induction a generalizing state with
  | nil => rfl
  | cons c a ih =>
    rw [List.cons_append, go_cons, go_cons, ih, List.append_assoc]

/-- A value without quotes is read whole. -/
theorem go_value (tag : Tag) (name raw : List Char) {text : List Char} (h : '"' ∉ text) :
    go (.attribute_value .double tag name raw) text =
      (.attribute_value .double tag name (raw ++ text.map unnull), []) := by
  induction text generalizing raw with
  | nil => rw [List.map_nil, List.append_nil, go]
  | cons c text ih =>
    have hc : c ≠ '"' := by
      rintro rfl
      exact h List.mem_cons_self
    rw [go_cons, step, stay, if_neg hc]
    dsimp only
    rw [ih _ fun hin => h (List.mem_cons_of_mem c hin), List.map_cons, List.append_assoc,
      List.singleton_append]
    rfl

/-- A text with a quote behind it, up to its first quote. -/
theorem first_quote (text behind : List Char) :
    ∃ rest, text ++ '"' :: behind = text.takeWhile (· ≠ '"') ++ '"' :: rest ∧
      ('"' ∉ text → rest = behind) := by
  by_cases h : '"' ∈ text
  · obtain ⟨a, b, rfl, ha⟩ := List.eq_append_cons_of_mem h
    have hne : ∀ c ∈ a, decide (c ≠ '"') = true := by
      intro c hc
      exact decide_eq_true fun hquote => ha (hquote ▸ hc)
    have htake : (a ++ '"' :: b).takeWhile (· ≠ '"') = a := by
      rw [List.takeWhile_append_of_pos hne]
      simp
    refine ⟨b ++ '"' :: behind, ?_, fun hno => absurd h hno⟩
    rw [htake, List.append_assoc, List.cons_append]
  · have htake : text.takeWhile (· ≠ '"') = text := by
      rw [List.takeWhile_eq_self_iff]
      exact fun c hc => decide_eq_true fun hquote => h (hquote ▸ hc)
    exact ⟨behind, by rw [htake], fun _ => rfl⟩

/-- The value of an attribute is read up to the first quote, and then the attributes behind it. -/
theorem go_quoted (tag : Tag) (name : List Char) (text behind : List Char) :
    ∃ rest, go (.attribute_value .double tag name []) (normalize_newlines text ++ '"' :: behind) =
        go (.after_attribute_value (tag.add name (raw_value text))) rest ∧
      ('"' ∉ text → rest = behind) := by
  obtain ⟨rest, heq, hrest⟩ := first_quote (normalize_newlines text) behind
  refine ⟨rest, ?_, ?_⟩
  · have hno : '"' ∉ (normalize_newlines text).takeWhile (· ≠ '"') := by
      intro hin
      have hne := List.mem_takeWhile_imp hin
      simp at hne
    rw [heq, go_append, go_value tag name [] hno, List.nil_append, go_cons, step, if_pos rfl]
    rfl
  · intro h
    apply hrest
    intro hin
    rcases mem_normalize hin with hc | hc
    · exact absurd hc (by decide)
    · exact h hc

/-- The tag whose attributes are read. -/
def tag_of : State → Option Tag
  | .before_attribute_name tag => some tag
  | .attribute_name tag _ => some tag
  | .after_attribute_name tag _ => some tag
  | .before_attribute_value tag _ => some tag
  | .attribute_value _ tag _ _ => some tag
  | .after_attribute_value tag => some tag
  | .self_closing_start_tag tag => some tag
  | _ => none

/-- The tag has attributes besides the other one's. -/
structure Extends (tag longer : Tag) : Prop where
  closing : longer.closing = tag.closing
  name : longer.name = tag.name
  attributes : tag.attributes <+: longer.attributes

theorem Extends.refl (tag : Tag) : Extends tag tag := ⟨rfl, rfl, List.prefix_refl _⟩

theorem Extends.add (tag : Tag) (name value : List Char) : Extends tag (tag.add name value) := by
  unfold Tag.add
  split
  · exact Extends.refl tag
  · exact ⟨rfl, rfl, List.prefix_append _ _⟩

theorem Extends.trans {a b c : Tag} (hab : Extends a b) (hbc : Extends b c) : Extends a c :=
  ⟨hbc.closing.trans hab.closing, hbc.name.trans hab.name, hab.attributes.trans hbc.attributes⟩

/-- Attributes of the tag are read on, or the tag is emitted. -/
def Reads (tag : Tag) (read : State × Option Tag) : Prop :=
  (read.2 = none ∧ ∃ longer, tag_of read.1 = some longer ∧ Extends tag longer) ∨
    ∃ longer, read.2 = some longer.emitted ∧ Extends tag longer

section Reads

variable {tag longer : Tag}

theorem reads_stay {state : State} (hstate : tag_of state = some longer) (h : Extends tag longer) :
    Reads tag (stay state) := Or.inl ⟨rfl, longer, hstate, h⟩

theorem reads_emit (h : Extends tag longer) : Reads tag (emit longer) := Or.inr ⟨longer, rfl, h⟩

theorem Reads.trans {read : State × Option Tag} (h : Reads longer read) (hlonger : Extends tag longer) :
    Reads tag read := by
  rcases h with ⟨hnone, last, hlast, hextends⟩ | ⟨last, hlast, hextends⟩
  · exact Or.inl ⟨hnone, last, hlast, hlonger.trans hextends⟩
  · exact Or.inr ⟨last, hlast, hlonger.trans hextends⟩

theorem reads_attribute_name (tag : Tag) (name : List Char) (c : Char) :
    Reads tag (step_attribute_name tag name c) := by
  unfold step_attribute_name
  split
  · exact reads_stay rfl (Extends.refl tag)
  split
  · exact reads_stay rfl (Extends.add tag name [])
  split
  · exact reads_emit (Extends.add tag name [])
  split
  · exact reads_stay rfl (Extends.refl tag)
  · exact reads_stay rfl (Extends.refl tag)

theorem reads_before_attribute_name (tag : Tag) (c : Char) :
    Reads tag (step_before_attribute_name tag c) := by
  unfold step_before_attribute_name
  split
  · exact reads_stay rfl (Extends.refl tag)
  split
  · exact reads_stay rfl (Extends.refl tag)
  split
  · exact reads_emit (Extends.refl tag)
  split
  · exact reads_stay rfl (Extends.refl tag)
  · exact reads_attribute_name tag [] c

theorem reads_unquoted (tag : Tag) (name raw : List Char) (c : Char) :
    Reads tag (step_unquoted tag name raw c) := by
  unfold step_unquoted
  split
  · exact reads_stay rfl (Extends.add tag name raw)
  split
  · exact reads_emit (Extends.add tag name raw)
  · exact reads_stay rfl (Extends.refl tag)

theorem reads_after_attribute_name (tag : Tag) (name : List Char) (c : Char) :
    Reads tag (step (.after_attribute_name tag name) c) := by
  rw [step]
  split
  · exact reads_stay rfl (Extends.refl tag)
  split
  · exact reads_stay rfl (Extends.add tag name [])
  split
  · exact reads_stay rfl (Extends.refl tag)
  split
  · exact reads_emit (Extends.add tag name [])
  · exact (reads_attribute_name _ [] c).trans (Extends.add tag name [])

theorem reads_before_attribute_value (tag : Tag) (name : List Char) (c : Char) :
    Reads tag (step (.before_attribute_value tag name) c) := by
  rw [step]
  split
  · exact reads_stay rfl (Extends.refl tag)
  split
  · exact reads_stay rfl (Extends.refl tag)
  split
  · exact reads_stay rfl (Extends.refl tag)
  split
  · exact reads_emit (Extends.add tag name [])
  · exact reads_unquoted tag name [] c

theorem reads_attribute_value (quote : Quote) (tag : Tag) (name raw : List Char) (c : Char) :
    Reads tag (step (.attribute_value quote tag name raw) c) := by
  cases quote with
  | double =>
    rw [step]
    split
    · exact reads_stay rfl (Extends.add tag name raw)
    · exact reads_stay rfl (Extends.refl tag)
  | single =>
    rw [step]
    split
    · exact reads_stay rfl (Extends.add tag name raw)
    · exact reads_stay rfl (Extends.refl tag)
  | none => exact reads_unquoted tag name raw c

theorem reads_after_attribute_value (tag : Tag) (c : Char) :
    Reads tag (step (.after_attribute_value tag) c) := by
  rw [step]
  split
  · exact reads_stay rfl (Extends.refl tag)
  split
  · exact reads_stay rfl (Extends.refl tag)
  split
  · exact reads_emit (Extends.refl tag)
  · exact reads_before_attribute_name tag c

theorem reads_self_closing (tag : Tag) (c : Char) :
    Reads tag (step (.self_closing_start_tag tag) c) := by
  rw [step]
  split
  · exact reads_emit ⟨rfl, rfl, List.prefix_refl _⟩
  · exact reads_before_attribute_name tag c

/-- No character takes an attribute from a tag. -/
theorem step_reads {state : State} (h : tag_of state = some tag) (c : Char) :
    Reads tag (step state c) := by
  cases state with
  | before_attribute_name => cases h; exact reads_before_attribute_name tag c
  | attribute_name _ name => cases h; exact reads_attribute_name tag name c
  | after_attribute_name _ name => cases h; exact reads_after_attribute_name tag name c
  | before_attribute_value _ name => cases h; exact reads_before_attribute_value tag name c
  | attribute_value quote _ name raw => cases h; exact reads_attribute_value quote tag name raw c
  | after_attribute_value => cases h; exact reads_after_attribute_value tag c
  | self_closing_start_tag => cases h; exact reads_self_closing tag c
  | _ => cases h

/-- The next tag that is emitted has the attributes that were read so far. -/
theorem go_reads {state : State} (h : tag_of state = some tag) (text : List Char) :
    (go state text).2 = [] ∨
      ∃ longer rest, (go state text).2 = longer.emitted :: rest ∧ Extends tag longer := by
  induction text generalizing state tag with
  | nil => exact Or.inl rfl
  | cons c text ih =>
    rw [go_cons]
    rcases step_reads h c with ⟨hnone, longer, hlonger, hextends⟩ | ⟨longer, hemitted, hextends⟩
    · rw [hnone, Option.toList_none, List.nil_append]
      rcases ih hlonger with hnil | ⟨last, rest, heq, hlast⟩
      · exact Or.inl hnil
      · exact Or.inr ⟨last, rest, heq, hextends.trans hlast⟩
    · rw [hemitted]
      exact Or.inr ⟨longer, _, rfl, hextends⟩

end Reads

end html
