-- The texts of Python's `json`: what `json.dumps` writes for a string or an integer, and
-- `json.loads`. A string that is read may hold lone surrogates, which no text does.
import TradingPlatform.Lib.Url
import TradingPlatform.Shared.Double

open url

namespace trading_platform.shared

/-! ## Python strings -/

/-- A code point of a Python string. The surrogates are code points as well. -/
abbrev CodePoint := Fin 0x110000

abbrev PyStr := List CodePoint

theorem code_point_lt (c : Char) : c.toNat < 0x110000 := by
  rcases c.valid with h | ⟨-, h⟩
  · exact Nat.lt_trans h (by decide)
  · exact h

def code_point (c : Char) : CodePoint := ⟨c.toNat, code_point_lt c⟩

def py_str (text : List Char) : PyStr := text.map code_point

/-- The character of a code point that is no surrogate. -/
def char_of (p : CodePoint) : Option Char :=
  if h : p.1.isValidChar then some (Char.ofNatAux p.1 h) else none

@[simp] theorem char_of_code_point (c : Char) : char_of (code_point c) = some c := by
  have hvalid : (code_point c).1.isValidChar := c.valid
  unfold char_of
  rw [dif_pos hvalid]
  rfl

/-- The text of a string without surrogates. -/
def text_of (s : PyStr) : Option (List Char) := s.mapM char_of

@[simp] theorem text_of_py_str (text : List Char) : text_of (py_str text) = some text := by
  unfold text_of py_str
  induction text with
  | nil => rfl
  | cons c cs ih =>
    rw [List.map_cons, List.mapM_cons, ih, char_of_code_point]
    rfl

/-- `s.encode()`. -/
def py_encode (s : PyStr) : Except PyErr (List UInt8) :=
  match text_of s with
  | some text => .ok (utf8 text)
  | none => .error ⟨"UnicodeEncodeError", "'utf-8' codec can't encode: surrogates not allowed"⟩

/-- `bytes.decode()`. -/
def py_decode (bytes : List UInt8) : Except PyErr (List Char) :=
  match bytes.toByteArray.utf8Decode? with
  | some text => .ok text.toList
  | none => .error ⟨"UnicodeDecodeError", "'utf-8' codec can't decode"⟩

@[simp] theorem py_decode_utf8 (text : List Char) : py_decode (utf8 text) = .ok text := by
  have hdecode : (utf8 text).toByteArray.utf8Decode? = some text.toArray :=
    List.utf8Decode?_utf8Encode
  unfold py_decode
  rw [hdecode]

/-! ## Values -/

/-- A value as `json.loads` gives it. The last one of the fields with a key is the one of the
dict. -/
inductive PyJson where
  | null
  | bool (b : Bool)
  | int (n : Int)
  | float (x : PyFloat)
  | str (s : PyStr)
  | list (items : List PyJson)
  | dict (fields : List (PyStr × PyJson))

namespace PyJson

/-- `bool(value)`. -/
def truthy : PyJson → Bool
  | null => false
  | bool b => b
  | int n => n ≠ 0
  | float x => x ≠ .fin 0
  | str s => !s.isEmpty
  | list items => !items.isEmpty
  | dict fields => !fields.isEmpty

def lookup (key : String) (fields : List (PyStr × PyJson)) : Option PyJson :=
  (fields.reverse.find? (·.1 = py_str key.toList)).map (·.2)

/-- `self.get(key, default)`. -/
def get (self : PyJson) (key : String) (default : PyJson) : Except PyErr PyJson :=
  match self with
  | dict fields => .ok ((lookup key fields).getD default)
  | _ => .error ⟨"AttributeError", "object has no attribute 'get'"⟩

end PyJson

/-! ## Writing -/

/-- The UTF-16 units of a character. -/
def units (c : Char) : List Nat :=
  if c.toNat < 0x10000 then [c.toNat]
  else [0xd800 + (c.toNat - 0x10000) / 0x400, 0xdc00 + (c.toNat - 0x10000) % 0x400]

/-- The escape of a unit, with four small hex digits. -/
def unit_escape (n : Nat) : List Char :=
  ['\\', 'u', Nat.digitChar (n / 4096), Nat.digitChar (n / 256 % 16), Nat.digitChar (n / 16 % 16),
    Nat.digitChar (n % 16)]

/-- What `ensure_ascii` makes of a character. -/
def escape_char (c : Char) : List Char :=
  if c = '\\' then ['\\', '\\']
  else if c = '"' then ['\\', '"']
  else if c = '\x08' then ['\\', 'b']
  else if c = '\x0c' then ['\\', 'f']
  else if c = '\n' then ['\\', 'n']
  else if c = '\r' then ['\\', 'r']
  else if c = '\t' then ['\\', 't']
  else if ' ' ≤ c ∧ c ≤ '~' then [c]
  else (units c).flatMap unit_escape

/-- `json.dumps` of a string. -/
def dumps_str (text : List Char) : List Char := '"' :: (text.flatMap escape_char ++ ['"'])

/-- `json.dumps` of an integer. -/
def dumps_int (n : Int) : List Char :=
  if n < 0 then '-' :: Nat.toDigits 10 n.natAbs else Nat.toDigits 10 n.natAbs

/-! ## Reading -/

def decode_error (msg : String) : PyErr := ⟨"JSONDecodeError", msg⟩

/-- The character of an escape without `u`. -/
def unbackslash : Char → Option Char
  | '"' => some '"'
  | '\\' => some '\\'
  | '/' => some '/'
  | 'b' => some '\x08'
  | 'f' => some '\x0c'
  | 'n' => some '\n'
  | 'r' => some '\r'
  | 't' => some '\t'
  | _ => none

/-- The unit of four hex digits, small or capital. -/
def unit_of (a b c d : Char) : Option Nat :=
  match hex_value a, hex_value b, hex_value c, hex_value d with
  | some w, some x, some y, some z => some (w * 4096 + x * 256 + y * 16 + z)
  | _, _, _, _ => none

/-- A unit, and what is read behind it. -/
def push (n : Nat) (read : Except PyErr (List Nat × List Char)) :
    Except PyErr (List Nat × List Char) :=
  read.map fun (s, rest) => (n :: s, rest)

/-- What stands between the quotes, and what is behind it. -/
def scan_string : List Char → Except PyErr (List Nat × List Char)
  | [] => .error (decode_error "Unterminated string starting at")
  | '"' :: rest => .ok ([], rest)
  | ['\\'] => .error (decode_error "Unterminated string starting at")
  | '\\' :: 'u' :: a :: b :: c :: d :: rest =>
    match unit_of a b c d with
    | some n => push n (scan_string rest)
    | none => .error (decode_error "Invalid \\uXXXX escape")
  | '\\' :: e :: rest =>
    match unbackslash e with
    | some c => push c.toNat (scan_string rest)
    | none => .error (decode_error (if e = 'u' then "Invalid \\uXXXX escape" else "Invalid \\escape"))
  | c :: rest =>
    if c.toNat < 0x20 then .error (decode_error "Invalid control character at")
    else push c.toNat (scan_string rest)

/-- A high surrogate and a low one are one character. -/
def join_surrogates : List Nat → List Nat
  | hi :: lo :: rest =>
    if 0xd800 ≤ hi ∧ hi ≤ 0xdbff ∧ 0xdc00 ≤ lo ∧ lo ≤ 0xdfff then
      (0x10000 + (hi - 0xd800) * 0x400 + (lo - 0xdc00)) :: join_surrogates rest
    else hi :: join_surrogates (lo :: rest)
  | short => short

def string_value (s : List Nat) : PyStr := (join_surrogates s).map (Fin.ofNat 0x110000)

/-- The white space of JSON is skipped. -/
def skip (text : List Char) : List Char :=
  text.dropWhile fun c => c = ' ' || c = '\t' || c = '\n' || c = '\r'

/-- The sign, the digits before and behind the point, and the exponent. -/
structure NumberText where
  negative : Bool
  whole : List Char
  fraction : List Char := []
  exponent : Option Int := none

/-- The digits at the beginning of a text. -/
def digits (text : List Char) : List Char × List Char := text.span Char.isDigit

def scan_fraction : List Char → List Char × List Char
  | '.' :: text => if (digits text).1 = [] then ([], '.' :: text) else digits text
  | text => ([], text)

def signed (negative : Bool) (n : Nat) : Int := if negative then -n else n

def scan_exponent_digits (negative : Bool) (text : List Char) : Option (Int × List Char) :=
  if (digits text).1 = [] then none
  else some (signed negative (Nat.ofDigitChars 10 (digits text).1 0), (digits text).2)

def scan_exponent_value : List Char → Option (Int × List Char)
  | '+' :: text => scan_exponent_digits false text
  | '-' :: text => scan_exponent_digits true text
  | text => scan_exponent_digits false text

def scan_exponent : List Char → Option Int × List Char
  | [] => (none, [])
  | e :: text =>
    if e = 'e' ∨ e = 'E' then
      match scan_exponent_value text with
      | some (n, rest) => (some n, rest)
      | none => (none, e :: text)
    else (none, e :: text)

def scan_whole : List Char → Option (List Char × List Char)
  | '0' :: text => some (['0'], text)
  | text => if (digits text).1 = [] then none else some (digits text)

def scan_sign : List Char → Bool × List Char
  | '-' :: text => (true, text)
  | text => (false, text)

def scan_number (text : List Char) : Option (NumberText × List Char) :=
  let (negative, text) := scan_sign text
  (scan_whole text).map fun (whole, text) =>
    let (fraction, text) := scan_fraction text
    let (exponent, text) := scan_exponent text
    (⟨negative, whole, fraction, exponent⟩, text)

/-- What `int` reads at most. -/
def max_str_digits : Nat := 4300

/-- `int` of the text without a point and an exponent, and `float` of another one. -/
def NumberText.value (n : NumberText) : Except PyErr PyJson :=
  if n.fraction = [] ∧ n.exponent = none then
    if max_str_digits < n.whole.length then
      .error ⟨"ValueError", "Exceeds the limit (4300 digits) for integer string conversion"⟩
    else .ok (.int (signed n.negative (Nat.ofDigitChars 10 n.whole 0)))
  else
    .ok (.float (.of_decimal (signed n.negative (Nat.ofDigitChars 10 (n.whole ++ n.fraction) 0) *
      10 ^ (n.exponent.getD 0 - n.fraction.length))))

/-- A value that is no string, list or dict. -/
def scan_literal : List Char → Except PyErr (PyJson × List Char)
  | 'n' :: 'u' :: 'l' :: 'l' :: rest => .ok (.null, rest)
  | 't' :: 'r' :: 'u' :: 'e' :: rest => .ok (.bool true, rest)
  | 'f' :: 'a' :: 'l' :: 's' :: 'e' :: rest => .ok (.bool false, rest)
  | 'N' :: 'a' :: 'N' :: rest => .ok (.float .nan, rest)
  | 'I' :: 'n' :: 'f' :: 'i' :: 'n' :: 'i' :: 't' :: 'y' :: rest => .ok (.float (.inf false), rest)
  | '-' :: 'I' :: 'n' :: 'f' :: 'i' :: 'n' :: 'i' :: 't' :: 'y' :: rest =>
    .ok (.float (.inf true), rest)
  | text =>
    match scan_number text with
    | some (n, rest) => n.value.map (·, rest)
    | none => .error (decode_error "Expecting value")

/-- There is always a character left for a value, so this is not raised. -/
def no_fuel : PyErr := ⟨"RecursionError", "maximum recursion depth exceeded"⟩

mutual

/-- A value, and what is behind it. -/
def scan_once : Nat → List Char → Except PyErr (PyJson × List Char)
  | 0, _ => .error no_fuel
  | n + 1, text =>
    match text with
    | '"' :: rest => (scan_string rest).map fun (s, rest) => (.str (string_value s), rest)
    | '{' :: rest =>
      match skip rest with
      | '}' :: rest => .ok (.dict [], rest)
      | rest => (scan_fields n rest).map fun (fields, rest) => (.dict fields, rest)
    | '[' :: rest =>
      match skip rest with
      | ']' :: rest => .ok (.list [], rest)
      | rest => (scan_items n rest).map fun (items, rest) => (.list items, rest)
    | text => scan_literal text

/-- The fields up to the closing brace. -/
def scan_fields : Nat → List Char → Except PyErr (List (PyStr × PyJson) × List Char)
  | 0, _ => .error no_fuel
  | n + 1, text =>
    match text with
    | '"' :: rest => do
      let (key, rest) ← scan_string rest
      match skip rest with
      | ':' :: rest =>
        let (value, rest) ← scan_once n (skip rest)
        match skip rest with
        | '}' :: rest => return ([(string_value key, value)], rest)
        | ',' :: rest =>
          let (fields, rest) ← scan_fields n (skip rest)
          return ((string_value key, value) :: fields, rest)
        | _ => .error (decode_error "Expecting ',' delimiter")
      | _ => .error (decode_error "Expecting ':' delimiter")
    | _ => .error (decode_error "Expecting property name enclosed in double quotes")

/-- The items up to the closing bracket. -/
def scan_items : Nat → List Char → Except PyErr (List PyJson × List Char)
  | 0, _ => .error no_fuel
  | n + 1, text => do
    let (value, rest) ← scan_once n text
    match skip rest with
    | ']' :: rest => return ([value], rest)
    | ',' :: rest =>
      let (items, rest) ← scan_items n (skip rest)
      return (value :: items, rest)
    | _ => .error (decode_error "Expecting ',' delimiter")

end

/-- `json.loads`. -/
def loads (text : List Char) : Except PyErr PyJson := do
  if text.head? = some '\ufeff' then
    .error (decode_error "Unexpected UTF-8 BOM (decode using utf-8-sig)")
  else
    let (value, rest) ← scan_once (2 * text.length + 1) (skip text)
    if skip rest = [] then return value else .error (decode_error "Extra data")

/-! ## What is written is read -/

theorem hex_value_digitChar {n : Nat} (h : n < 16) : hex_value (Nat.digitChar n) = some n := by
  have hall : ∀ i : Fin 16, hex_value (Nat.digitChar i.1) = some i.1 := by decide
  exact hall ⟨n, h⟩

/-- The escape of a unit is read as the unit. -/
theorem scan_unit_escape {n : Nat} (h : n < 0x10000) (rest : List Char) :
    scan_string (unit_escape n ++ rest) = push n (scan_string rest) := by
  have hunit : unit_of (Nat.digitChar (n / 4096)) (Nat.digitChar (n / 256 % 16))
      (Nat.digitChar (n / 16 % 16)) (Nat.digitChar (n % 16)) = some n := by
    unfold unit_of
    rw [hex_value_digitChar (by omega), hex_value_digitChar (by omega),
      hex_value_digitChar (by omega), hex_value_digitChar (by omega)]
    dsimp only
    congr 1
    omega
  rw [unit_escape, List.cons_append, List.cons_append, List.cons_append, List.cons_append,
    List.cons_append, List.cons_append, List.nil_append, scan_string, hunit]

theorem scan_plain {c : Char} (hquote : c ≠ '"') (hslash : c ≠ '\\') (h : 0x20 ≤ c.toNat)
    (rest : List Char) : scan_string (c :: rest) = push c.toNat (scan_string rest) := by
  rw [scan_string]
  · rw [if_neg (by omega)]
  · exact fun h => hquote h
  · exact fun h => absurd h hslash
  · intro a b c d rest' h
    exact absurd h hslash
  · intro e rest' h
    exact absurd h hslash

theorem units_lt {c : Char} {n : Nat} (h : n ∈ units c) : n < 0x10000 := by
  have hc := code_point_lt c
  unfold units at h
  generalize c.toNat = code at h hc
  split at h
  · rw [List.mem_singleton.mp h]
    assumption
  · simp only [List.mem_cons, List.not_mem_nil, or_false] at h
    omega

theorem units_of_lt {c : Char} (h : c.toNat < 0x10000) : units c = [c.toNat] := if_pos h

theorem scan_unit_escapes {l : List Nat} (h : ∀ n ∈ l, n < 0x10000) (rest : List Char) :
    scan_string (l.flatMap unit_escape ++ rest) = l.foldr push (scan_string rest) := by
  induction l with
  | nil => rfl
  | cons n l ih =>
    have hn := h n List.mem_cons_self
    have hl : ∀ m ∈ l, m < 0x10000 := fun m hm => h m (List.mem_cons_of_mem n hm)
    rw [List.flatMap_cons, List.append_assoc, scan_unit_escape hn, ih hl, List.foldr_cons]

/-- A character is read back as its units. -/
theorem scan_escape_char (c : Char) (rest : List Char) :
    scan_string (escape_char c ++ rest) = (units c).foldr push (scan_string rest) := by
  unfold escape_char
  split
  · subst c
    rfl
  split
  · subst c
    rfl
  split
  · subst c
    rfl
  split
  · subst c
    rfl
  split
  · subst c
    rfl
  split
  · subst c
    rfl
  split
  · subst c
    rfl
  split
  · rename_i hslash hquote _ _ _ _ _ hplain
    have hlow : 0x20 ≤ c.toNat := hplain.1
    have hhigh : c.toNat ≤ 0x7e := hplain.2
    rw [List.singleton_append, scan_plain hquote hslash hlow, units_of_lt (by omega)]
    rfl
  · exact scan_unit_escapes (fun n => units_lt) rest

theorem foldr_push (l s : List Nat) (rest : List Char) :
    l.foldr push (.ok (s, rest)) = .ok (l ++ s, rest) := by
  induction l with
  | nil => rfl
  | cons n l ih =>
    rw [List.foldr_cons, ih]
    rfl

/-- A string is read back as the units of its characters. -/
theorem scan_dumps_str (text rest : List Char) :
    scan_string (text.flatMap escape_char ++ '"' :: rest) = .ok (text.flatMap units, rest) := by
  induction text with
  | nil => rfl
  | cons c cs ih =>
    rw [List.flatMap_cons, List.append_assoc, scan_escape_char, ih, foldr_push, List.flatMap_cons]

theorem join_plain {n : Nat} (h : n < 0xd800 ∨ 0xdbff < n) (s : List Nat) :
    join_surrogates (n :: s) = n :: join_surrogates s := by
  cases s with
  | nil => rfl
  | cons m s =>
    rw [join_surrogates, if_neg (by omega)]

/-- The units of a text are its characters again. -/
theorem join_units (text : List Char) :
    join_surrogates (text.flatMap units) = text.map Char.toNat := by
  induction text with
  | nil => rfl
  | cons c cs ih =>
    rw [List.flatMap_cons, List.map_cons, ← ih]
    by_cases h : c.toNat < 0x10000
    · have hvalid : c.toNat < 0xd800 ∨ 0xdbff < c.toNat := by
        rcases c.valid with hlow | ⟨hhigh, -⟩
        · exact Or.inl hlow
        · exact Or.inr (Nat.lt_trans (by decide) hhigh)
      rw [units_of_lt h, List.singleton_append, join_plain hvalid]
    · have hc := code_point_lt c
      have hjoin : ∀ n : Nat, ¬ n < 0x10000 →
          0x10000 + (0xd800 + (n - 0x10000) / 0x400 - 0xd800) * 0x400 +
            (0xdc00 + (n - 0x10000) % 0x400 - 0xdc00) = n := by
        omega
      rw [units, if_neg h, List.cons_append, List.singleton_append, join_surrogates,
        if_pos (by omega), hjoin _ h]

theorem string_value_units (text : List Char) : string_value (text.flatMap units) = py_str text := by
  unfold string_value py_str
  rw [join_units, List.map_map]
  apply List.map_congr_left
  intro c _
  apply Fin.ext
  exact Nat.mod_eq_of_lt (code_point_lt c)

/-- A text that ends a number. -/
def EndsNumber (text : List Char) : Prop :=
  ∀ c ∈ text.head?, c.isDigit = false ∧ c ≠ '.' ∧ c ≠ 'e' ∧ c ≠ 'E'

theorem digits_append {ds rest : List Char} (hdigits : ∀ c ∈ ds, c.isDigit = true)
    (hrest : EndsNumber rest) : digits (ds ++ rest) = (ds, rest) := by
  unfold digits
  rw [List.span_eq_takeWhile_dropWhile, List.takeWhile_append_of_pos hdigits,
    List.dropWhile_append_of_pos hdigits]
  cases rest with
  | nil => simp
  | cons c cs =>
    have hc := (hrest c rfl).1
    simp [hc]

theorem toDigits_isDigit {n : Nat} {c : Char} (h : c ∈ Nat.toDigits 10 n) : c.isDigit = true :=
  Nat.isDigit_of_mem_toDigits (by decide) (by decide) h

/-- A number that is not zero does not begin with a zero. -/
theorem head_toDigits {n : Nat} (h : 0 < n) :
    ∃ d ds, Nat.toDigits 10 n = d :: ds ∧ d ≠ '0' := by
  induction n using Nat.strongRecOn with
  | ind n ih =>
    by_cases hlt : n < 10
    · refine ⟨Nat.digitChar n, [], Nat.toDigits_of_lt_base hlt, ?_⟩
      have hall : ∀ i : Fin 10, 0 < i.1 → Nat.digitChar i.1 ≠ '0' := by decide
      exact hall ⟨n, hlt⟩ h
    · obtain ⟨d, ds, hds, hd⟩ := ih (n / 10) (by omega) (by omega)
      refine ⟨d, ds ++ [Nat.digitChar (n % 10)], ?_, hd⟩
      rw [Nat.toDigits_of_base_le (by decide) (by omega), hds, List.cons_append]

theorem scan_whole_toDigits (n : Nat) {rest : List Char} (hrest : EndsNumber rest) :
    scan_whole (Nat.toDigits 10 n ++ rest) = some (Nat.toDigits 10 n, rest) := by
  rcases Nat.eq_zero_or_pos n with rfl | hpos
  · rfl
  · obtain ⟨d, ds, hds, hd⟩ := head_toDigits hpos
    have hread := digits_append (fun c => toDigits_isDigit (n := n)) hrest
    rw [hds] at hread ⊢
    rw [List.cons_append] at hread ⊢
    rw [scan_whole, hread, if_neg (List.cons_ne_nil d ds)]
    exact fun text h => hd (List.cons.inj h).1

theorem scan_fraction_end {rest : List Char} (hrest : EndsNumber rest) :
    scan_fraction rest = ([], rest) := by
  cases rest with
  | nil => rfl
  | cons c cs =>
    rw [scan_fraction]
    exact fun text h => (hrest c rfl).2.1 (List.cons.inj h).1

theorem scan_exponent_end {rest : List Char} (hrest : EndsNumber rest) :
    scan_exponent rest = (none, rest) := by
  cases rest with
  | nil => rfl
  | cons c cs =>
    obtain ⟨-, -, he, hE⟩ := hrest c rfl
    rw [scan_exponent, if_neg (not_or.mpr ⟨he, hE⟩)]

/-- An integer is written as its sign and its digits. -/
theorem scan_sign_dumps_int (n : Int) (rest : List Char) :
    scan_sign (dumps_int n ++ rest) = (decide (n < 0), Nat.toDigits 10 n.natAbs ++ rest) := by
  unfold dumps_int
  by_cases h : n < 0
  · rw [if_pos h, decide_eq_true h]
    rfl
  · rw [if_neg h, decide_eq_false h]
    obtain ⟨d, ds, hds⟩ := List.exists_cons_of_ne_nil (Nat.toDigits_ne_nil (n := n.natAbs) (b := 10))
    have hd : d.isDigit = true := toDigits_isDigit (hds ▸ List.mem_cons_self)
    rw [hds, List.cons_append, scan_sign]
    intro text htext
    rw [(List.cons.inj htext).1] at hd
    cases hd

theorem scan_number_dumps_int (n : Int) {rest : List Char} (hrest : EndsNumber rest) :
    scan_number (dumps_int n ++ rest) =
      some (⟨decide (n < 0), Nat.toDigits 10 n.natAbs, [], none⟩, rest) := by
  unfold scan_number
  rw [scan_sign_dumps_int]
  dsimp only
  rw [scan_whole_toDigits _ hrest, Option.map_some, scan_fraction_end hrest,
    scan_exponent_end hrest]

theorem signed_natAbs (n : Int) : signed (decide (n < 0)) n.natAbs = n := by
  unfold signed
  by_cases h : n < 0
  · rw [decide_eq_true h, if_pos rfl]
    omega
  · rw [decide_eq_false h, if_neg (by decide)]
    omega

/-- A text that begins like a number is read as one. -/
theorem scan_literal_number {text : List Char}
    (h : ∃ c cs, text = c :: cs ∧ (c.isDigit = true ∨ c = '-' ∧ ∀ d ∈ cs.head?, d.isDigit = true)) :
    scan_literal text =
      match scan_number text with
      | some (n, rest) => n.value.map (·, rest)
      | none => .error (decode_error "Expecting value") := by
  obtain ⟨c, cs, rfl, hc⟩ := h
  rw [scan_literal]
  all_goals
    intro rest htext
    obtain ⟨rfl, rfl⟩ := List.cons.inj htext
    rcases hc with hc | ⟨hc, hd⟩
    · exact absurd hc (by decide)
    · first
      | exact absurd hc (by decide)
      | exact absurd (hd 'I' rfl) (by decide)

/-- An integer is read back, if it has no more digits than `int` reads. -/
theorem scan_dumps_int {n : Int} (h : (Nat.toDigits 10 n.natAbs).length ≤ max_str_digits)
    {rest : List Char} (hrest : EndsNumber rest) :
    scan_literal (dumps_int n ++ rest) = .ok (.int n, rest) := by
  have hhead : ∃ c cs, dumps_int n ++ rest = c :: cs ∧
      (c.isDigit = true ∨ c = '-' ∧ ∀ d ∈ cs.head?, d.isDigit = true) := by
    obtain ⟨d, ds, hds⟩ := List.exists_cons_of_ne_nil (Nat.toDigits_ne_nil (n := n.natAbs) (b := 10))
    have hd : d.isDigit = true := toDigits_isDigit (hds ▸ List.mem_cons_self)
    unfold dumps_int
    by_cases hneg : n < 0
    · rw [if_pos hneg, hds]
      refine ⟨'-', _, rfl, Or.inr ⟨rfl, ?_⟩⟩
      intro c hc
      cases hc
      exact hd
    · rw [if_neg hneg, hds]
      exact ⟨d, _, rfl, Or.inl hd⟩
  rw [scan_literal_number hhead, scan_number_dumps_int n hrest]
  dsimp only
  rw [NumberText.value, if_pos ⟨rfl, rfl⟩, if_neg (Nat.not_lt.mpr h), Nat.ofDigitChars_ten_toDigits,
    signed_natAbs]
  rfl

/-! ## Flat dicts -/

/-- A value that is a string or an integer. -/
inductive Flat where
  | str (text : List Char)
  | int (n : Int)

namespace Flat

def dumps : Flat → List Char
  | str text => dumps_str text
  | int n => dumps_int n

def value : Flat → PyJson
  | str text => .str (py_str text)
  | int n => .int n

/-- `int` reads what is written. -/
def Readable : Flat → Prop
  | str _ => True
  | int n => (Nat.toDigits 10 n.natAbs).length ≤ max_str_digits

end Flat

def dumps_fields : List (List Char × Flat) → List Char
  | [] => []
  | [(key, value)] => dumps_str key ++ ':' :: value.dumps
  | (key, value) :: fields => dumps_str key ++ ':' :: (value.dumps ++ ',' :: dumps_fields fields)

/-- `json.dumps` of a dict, with the separators "," and ":". -/
def dumps_dict (fields : List (List Char × Flat)) : List Char := '{' :: (dumps_fields fields ++ ['}'])

/-- The fields as they are read. -/
def read_fields (fields : List (List Char × Flat)) : List (PyStr × PyJson) :=
  fields.map fun (key, value) => (py_str key, value.value)

theorem skip_cons {c : Char} (h : (c = ' ' || c = '\t' || c = '\n' || c = '\r') = false)
    (text : List Char) : skip (c :: text) = c :: text := by
  unfold skip
  rw [List.dropWhile_cons_of_neg (by simpa using h)]

theorem dumps_str_append (text rest : List Char) :
    dumps_str text ++ rest = '"' :: (text.flatMap escape_char ++ '"' :: rest) := by
  simp [dumps_str]

theorem skip_digit {c : Char} (h : c.isDigit = true) (text : List Char) :
    skip (c :: text) = c :: text := by
  apply skip_cons
  simp only [Bool.or_eq_false_iff, decide_eq_false_iff_not]
  refine ⟨⟨⟨?_, ?_⟩, ?_⟩, ?_⟩
  all_goals
    rintro rfl
    exact absurd h (by decide)

/-- An integer begins with a digit or with a minus. -/
theorem dumps_int_cons (n : Int) : ∃ c cs, dumps_int n = c :: cs ∧ (c.isDigit = true ∨ c = '-') := by
  obtain ⟨d, ds, hds⟩ := List.exists_cons_of_ne_nil (Nat.toDigits_ne_nil (n := n.natAbs) (b := 10))
  have hd : d.isDigit = true := toDigits_isDigit (hds ▸ List.mem_cons_self)
  unfold dumps_int
  by_cases hneg : n < 0
  · rw [if_pos hneg]
    exact ⟨'-', _, rfl, Or.inr rfl⟩
  · rw [if_neg hneg, hds]
    exact ⟨d, ds, rfl, Or.inl hd⟩

theorem skip_dumps (value : Flat) (rest : List Char) :
    skip (value.dumps ++ rest) = value.dumps ++ rest := by
  cases value with
  | str text =>
    rw [Flat.dumps, dumps_str_append, skip_cons (by decide)]
  | int n =>
    obtain ⟨c, cs, heq, hc⟩ := dumps_int_cons n
    rw [Flat.dumps, heq, List.cons_append]
    rcases hc with hc | rfl
    · exact skip_digit hc _
    · exact skip_cons (by decide) _

/-- A flat value is read back. -/
theorem scan_once_dumps (n : Nat) {value : Flat} (h : value.Readable) {rest : List Char}
    (hrest : EndsNumber rest) : scan_once (n + 1) (value.dumps ++ rest) = .ok (value.value, rest) := by
  cases value with
  | str text =>
    rw [Flat.dumps, dumps_str_append, scan_once, scan_dumps_str]
    simp only [Except.map, string_value_units, Flat.value]
  | int k =>
    have hliteral := scan_dumps_int h hrest
    obtain ⟨c, cs, heq, hc⟩ := dumps_int_cons k
    rw [Flat.dumps, Flat.value, ← hliteral, heq, List.cons_append, scan_once]
    all_goals
      intro text htext
      rw [(List.cons.inj htext).1] at hc
      exact absurd hc (by decide)

theorem ends_number_of_not_digit {c : Char} (h : c = '}' ∨ c = ',') (rest : List Char) :
    EndsNumber (c :: rest) := by
  intro d hd
  cases hd
  rcases h with rfl | rfl
  · decide
  · decide

/-- The last field is read. -/
theorem scan_fields_last (n : Nat) (key : List Char) {value : Flat} (h : value.Readable)
    (rest : List Char) :
    scan_fields (n + 2) (dumps_str key ++ ':' :: (value.dumps ++ '}' :: rest)) =
      .ok ([(py_str key, value.value)], rest) := by
  have hvalue := scan_once_dumps n h (ends_number_of_not_digit (Or.inl rfl) rest)
  rw [dumps_str_append, scan_fields, scan_dumps_str]
  simp only [bind, Except.bind]
  rw [skip_cons (by decide)]
  simp only [skip_dumps, hvalue]
  rw [skip_cons (by decide), string_value_units]
  rfl

/-- A field is read, and the fields behind it. -/
theorem scan_fields_more (n : Nat) (key : List Char) {value : Flat} (h : value.Readable)
    {text rest : List Char} {fields : List (PyStr × PyJson)} (hskip : skip text = text)
    (hmore : scan_fields (n + 1) text = .ok (fields, rest)) :
    scan_fields (n + 2) (dumps_str key ++ ':' :: (value.dumps ++ ',' :: text)) =
      .ok ((py_str key, value.value) :: fields, rest) := by
  have hvalue := scan_once_dumps n h (ends_number_of_not_digit (Or.inr rfl) text)
  rw [dumps_str_append, scan_fields, scan_dumps_str]
  simp only [bind, Except.bind]
  rw [skip_cons (by decide)]
  simp only [skip_dumps, hvalue]
  rw [skip_cons (by decide)]
  simp only [hskip, hmore, string_value_units]
  rfl

theorem skip_dumps_fields {fields : List (List Char × Flat)} (h : fields ≠ []) (rest : List Char) :
    skip (dumps_fields fields ++ rest) = dumps_fields fields ++ rest := by
  fun_cases dumps_fields fields with
  | case1 => exact absurd rfl h
  | case2 key value =>
    rw [List.append_assoc, dumps_str_append, skip_cons (by decide)]
  | case3 key value fields hne =>
    rw [List.append_assoc, dumps_str_append, skip_cons (by decide)]

/-- The fields of a flat dict are read back. -/
theorem scan_dumps_fields {fields : List (List Char × Flat)} (hne : fields ≠ [])
    (h : ∀ f ∈ fields, f.2.Readable) {n : Nat} (hn : fields.length < n) (rest : List Char) :
    scan_fields n (dumps_fields fields ++ '}' :: rest) = .ok (read_fields fields, rest) := by
  induction fields generalizing n with
  | nil => exact absurd rfl hne
  | cons f fields ih =>
    obtain ⟨key, value⟩ := f
    obtain ⟨m, rfl⟩ : ∃ m, n = m + 2 := ⟨n - 2, by simp only [List.length_cons] at hn; omega⟩
    have hvalue : value.Readable := h _ List.mem_cons_self
    cases fields with
    | nil =>
      rw [dumps_fields, List.append_assoc, List.cons_append]
      exact scan_fields_last m key hvalue rest
    | cons g fields =>
      have hmore := ih (List.cons_ne_nil g fields) (fun f hf => h f (List.mem_cons_of_mem _ hf))
        (n := m + 1) (by simp only [List.length_cons] at hn ⊢; omega)
      have hskip := skip_dumps_fields (List.cons_ne_nil g fields) ('}' :: rest)
      rw [dumps_fields, List.append_assoc, List.cons_append, List.append_assoc, List.cons_append]
      · exact scan_fields_more m key hvalue hskip hmore
      · exact List.cons_ne_nil g fields

theorem length_le_dumps_fields (fields : List (List Char × Flat)) :
    fields.length ≤ (dumps_fields fields).length := by
  fun_induction dumps_fields fields with
  | case1 => exact Nat.le_refl _
  | case2 key value => simp [dumps_str]
  | case3 key value fields hne ih =>
    simp only [dumps_str, List.length_cons, List.length_append]
    omega

/-- What is written of fields begins with a quote. -/
theorem dumps_fields_cons {fields : List (List Char × Flat)} (h : fields ≠ []) :
    ∃ text, dumps_fields fields = '"' :: text := by
  fun_cases dumps_fields fields with
  | case1 => exact absurd rfl h
  | case2 key value => exact ⟨_, rfl⟩
  | case3 key value fields hne => exact ⟨_, rfl⟩

/-- `json.loads` of what `json.dumps` writes for a flat dict. -/
theorem loads_dumps_dict {fields : List (List Char × Flat)} (hne : fields ≠ [])
    (h : ∀ f ∈ fields, f.2.Readable) : loads (dumps_dict fields) = .ok (.dict (read_fields fields)) := by
  have hlength := length_le_dumps_fields fields
  have hread := scan_dumps_fields hne h (n := 2 * (dumps_dict fields).length)
    (by simp only [dumps_dict, List.length_cons, List.length_append]; omega) []
  obtain ⟨text, htext⟩ := dumps_fields_cons hne
  have hobject : scan_once (2 * (dumps_dict fields).length + 1) (dumps_dict fields) =
      .ok (.dict (read_fields fields), []) := by
    generalize 2 * (dumps_dict fields).length = n at hread ⊢
    rw [dumps_dict, htext, List.cons_append]
    rw [htext, List.cons_append] at hread
    rw [scan_once, skip_cons (by decide)]
    exact congrArg (Except.map fun x => (PyJson.dict x.1, x.2)) hread
  have hskip : skip (dumps_dict fields) = dumps_dict fields := skip_cons (by decide) _
  unfold loads
  rw [if_neg (by simp [dumps_dict]), hskip, hobject]
  rfl

/-! ## The reader comes to an end -/

/-- Something was read of the text, or an error of the text was found. -/
def Consumes {α : Type} (text : List Char) : Except PyErr (α × List Char) → Prop
  | .ok (_, rest) => rest.length < text.length
  | .error e => e ≠ no_fuel

section Consumes

variable {α β : Type} {text : List Char} {read : Except PyErr (α × List Char)}

theorem Consumes.map (h : Consumes text read) (f : α → β) :
    Consumes text (read.map fun (a, rest) => (f a, rest)) := by
  cases read with
  | error e => exact h
  | ok value => exact h

theorem Consumes.longer (h : Consumes text read) (longer : List Char)
    (hle : text.length ≤ longer.length) : Consumes longer read := by
  cases read with
  | error e => exact h
  | ok value => exact Nat.lt_of_lt_of_le h hle

theorem Consumes.bind (h : Consumes text read)
    {next : α × List Char → Except PyErr (β × List Char)}
    (hnext : ∀ a rest, rest.length < text.length → Consumes text (next (a, rest))) :
    Consumes text (read >>= next) := by
  cases read with
  | error e => exact h
  | ok value => exact hnext value.1 value.2 h

end Consumes

theorem consumes_error {α : Type} (text : List Char) (msg : String) :
    Consumes text (.error (decode_error msg) : Except PyErr (α × List Char)) := by
  intro h
  have hkind : "JSONDecodeError" = "RecursionError" := congrArg PyErr.kind h
  exact absurd hkind (by decide)

theorem Consumes.push {text : List Char} {n : Nat} {read : Except PyErr (List Nat × List Char)}
    (h : Consumes text read) : Consumes text (push n read) := h.map (n :: ·)

theorem scan_string_consumes (text : List Char) : Consumes text (scan_string text) := by
  fun_induction scan_string text with
  | case1 => exact consumes_error _ _
  | case2 rest => exact Nat.lt_succ_self _
  | case3 => exact consumes_error _ _
  | case4 a b c d rest n hn ih => exact (ih.longer _ (by simp only [List.length_cons]; omega)).push
  | case5 a b c d rest hn => exact consumes_error _ _
  | case6 e rest hne c hc ih => exact (ih.longer _ (by simp only [List.length_cons]; omega)).push
  | case7 e rest hne hc => exact consumes_error _ _
  | case8 c rest => exact consumes_error _ _
  | case9 c rest h1 h2 h3 h4 h ih => exact (ih.longer _ (by simp only [List.length_cons]; omega)).push

theorem skip_length_le (text : List Char) : (skip text).length ≤ text.length :=
  (List.dropWhile_suffix _).length_le

theorem digits_length (text : List Char) :
    (digits text).1.length + (digits text).2.length = text.length := by
  unfold digits
  rw [List.span_eq_takeWhile_dropWhile, ← List.length_append, List.takeWhile_append_dropWhile]

theorem scan_fraction_length_le (text : List Char) : (scan_fraction text).2.length ≤ text.length := by
  fun_cases scan_fraction text with
  | case1 text h => exact Nat.le_refl _
  | case2 text h =>
    have hlength := digits_length text
    simp only [List.length_cons]
    omega
  | case3 text h => exact Nat.le_refl _

theorem scan_exponent_digits_length_le {negative : Bool} {text rest : List Char} {n : Int}
    (h : scan_exponent_digits negative text = some (n, rest)) : rest.length ≤ text.length := by
  unfold scan_exponent_digits at h
  have hlength := digits_length text
  split at h
  · cases h
  · cases h
    omega

theorem scan_exponent_value_length_le {text rest : List Char} {n : Int}
    (h : scan_exponent_value text = some (n, rest)) : rest.length ≤ text.length := by
  unfold scan_exponent_value at h
  split at h
  · exact Nat.le_succ_of_le (scan_exponent_digits_length_le h)
  · exact Nat.le_succ_of_le (scan_exponent_digits_length_le h)
  · exact scan_exponent_digits_length_le h

theorem scan_exponent_length_le (text : List Char) : (scan_exponent text).2.length ≤ text.length := by
  fun_cases scan_exponent text with
  | case1 => exact Nat.le_refl _
  | case2 e text he n rest h => exact Nat.le_succ_of_le (scan_exponent_value_length_le h)
  | case3 e text he h => exact Nat.le_refl _
  | case4 e text he => exact Nat.le_refl _

theorem scan_whole_length_lt {text whole rest : List Char} (h : scan_whole text = some (whole, rest)) :
    rest.length < text.length := by
  unfold scan_whole at h
  split at h
  · cases h
    exact Nat.lt_succ_self _
  · have hlength := digits_length text
    split at h
    · cases h
    · rename_i hne
      have hpos := List.length_pos_iff.mpr hne
      rw [Option.some.inj h] at hlength hpos
      dsimp only at hlength hpos
      omega

theorem scan_number_length_lt {text rest : List Char} {n : NumberText}
    (h : scan_number text = some (n, rest)) : rest.length < text.length := by
  unfold scan_number at h
  obtain ⟨⟨whole, behind⟩, hwhole, heq⟩ := Option.map_eq_some_iff.mp h
  have hsign : (scan_sign text).2.length ≤ text.length := by
    fun_cases scan_sign text with
    | case1 text => exact Nat.le_succ _
    | case2 text h => exact Nat.le_refl _
  have hlt : behind.length < (scan_sign text).2.length := scan_whole_length_lt hwhole
  have hfraction := scan_fraction_length_le behind
  have hexponent := scan_exponent_length_le (scan_fraction behind).2
  have hrest : (scan_exponent (scan_fraction behind).2).2 = rest := (Prod.mk.inj heq).2
  rw [← hrest]
  omega

theorem scan_literal_consumes (text : List Char) : Consumes text (scan_literal text) := by
  fun_cases scan_literal text
  all_goals try simp only [Consumes, List.length_cons]; omega
  · rename_i n rest hnumber
    have hlt := scan_number_length_lt hnumber
    unfold NumberText.value
    split
    · split
      · intro h
        exact absurd (congrArg PyErr.kind h) (by decide)
      · exact hlt
    · exact hlt
  · exact consumes_error _ _

/-- With fuel for two calls at each character, a value is read or an error is found. -/
theorem scan_consumes (n : Nat) :
    (∀ text, 2 * text.length < n → Consumes text (scan_once n text)) ∧
      (∀ text, 2 * text.length + 1 < n → Consumes text (scan_fields n text)) ∧
      ∀ text, 2 * text.length + 1 < n → Consumes text (scan_items n text) := by
  induction n with
  | zero =>
    exact ⟨fun _ h => absurd h (Nat.not_lt_zero _), fun _ h => absurd h (Nat.not_lt_zero _),
      fun _ h => absurd h (Nat.not_lt_zero _)⟩
  | succ n ih =>
    obtain ⟨hvalue, hfields, hitems⟩ := ih
    refine ⟨?_, ?_, ?_⟩
    · intro text hlt
      rw [scan_once.eq_def]
      dsimp only
      split
      · rename_i rest
        have hread := (scan_string_consumes rest).longer ('"' :: rest) (Nat.le_succ _)
        exact hread.map fun s => PyJson.str (string_value s)
      · rename_i rest
        have hskip := skip_length_le rest
        simp only [List.length_cons] at hlt
        split
        · rename_i behind heq
          rw [heq] at hskip
          simp only [List.length_cons] at hskip
          simp only [Consumes, List.length_cons]
          omega
        · have hread := (hfields (skip rest) (by omega)).longer ('{' :: rest)
            (by simp only [List.length_cons]; omega)
          exact hread.map PyJson.dict
      · rename_i rest
        have hskip := skip_length_le rest
        simp only [List.length_cons] at hlt
        split
        · rename_i behind heq
          rw [heq] at hskip
          simp only [List.length_cons] at hskip
          simp only [Consumes, List.length_cons]
          omega
        · have hread := (hitems (skip rest) (by omega)).longer ('[' :: rest)
            (by simp only [List.length_cons]; omega)
          exact hread.map PyJson.list
      · exact scan_literal_consumes _
    · intro text hlt
      rw [scan_fields.eq_def]
      dsimp only
      split
      · rename_i rest
        simp only [List.length_cons] at hlt
        apply ((scan_string_consumes rest).longer ('"' :: rest) (Nat.le_succ _)).bind
        intro key behind hkey
        have hskip := skip_length_le behind
        dsimp only
        split
        · rename_i body heq
          rw [heq] at hskip
          have hbody := skip_length_le body
          simp only [List.length_cons] at hskip hkey
          apply ((hvalue (skip body) (by omega)).longer ('"' :: rest)
            (by simp only [List.length_cons]; omega)).bind
          intro value behind hvalue
          have hskip := skip_length_le behind
          simp only [List.length_cons] at hvalue
          dsimp only
          split
          · rename_i behind heq
            rw [heq] at hskip
            simp only [List.length_cons] at hskip
            simp only [Consumes, pure, Except.pure, List.length_cons]
            omega
          · rename_i more heq
            rw [heq] at hskip
            have hmore := skip_length_le more
            simp only [List.length_cons] at hskip
            have hread := (hfields (skip more) (by omega)).longer ('"' :: rest)
              (by simp only [List.length_cons]; omega)
            exact hread.map ((string_value key, value) :: ·)
          · exact consumes_error _ _
        · exact consumes_error _ _
      · exact consumes_error _ _
    · intro text hlt
      rw [scan_items.eq_def]
      dsimp only
      apply (hvalue text (by omega)).bind
      intro value behind hread
      have hskip := skip_length_le behind
      dsimp only
      split
      · rename_i behind heq
        rw [heq] at hskip
        simp only [List.length_cons] at hskip
        simp only [Consumes, pure, Except.pure]
        omega
      · rename_i more heq
        rw [heq] at hskip
        have hmore := skip_length_le more
        simp only [List.length_cons] at hskip
        have hread := (hitems (skip more) (by omega)).longer text (by omega)
        exact hread.map (value :: ·)
      · exact consumes_error _ _

/-- `json.loads` reads every text to its end or to its first error. -/
theorem loads_has_fuel (text : List Char) : loads text ≠ .error no_fuel := by
  have hskip := skip_length_le text
  have hread := (scan_consumes (2 * text.length + 1)).1 (skip text) (by omega)
  have herror : ∀ msg, decode_error msg ≠ no_fuel := fun msg h => consumes_error [] (α := Unit) msg h
  unfold loads
  split
  · exact fun h => herror _ (Except.error.inj h)
  · cases hvalue : scan_once (2 * text.length + 1) (skip text) with
    | error e =>
      rw [hvalue] at hread
      exact fun h => hread (Except.error.inj h)
    | ok value =>
      simp only [bind, Except.bind]
      split
      · exact fun h => nomatch h
      · exact fun h => herror _ (Except.error.inj h)

end trading_platform.shared
