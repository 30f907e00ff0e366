-- `json.dumps` of any value, and what `json.loads` reads of it. A string comes back as it was,
-- unless a high surrogate in it has a low one right behind it: the two are read as one character.
import TradingPlatform.Shared.JsonText
import Mathlib.Tactic.FieldSimp

open url

namespace trading_platform.shared

/-! ## Floats -/

/-- The decimals with `n` digits below and above a positive number, the nearer one first. -/
def neighbours (q : ℚ) (n : Nat) : List (Nat × Int) :=
  let k := Int.log 10 q - (n - 1)
  let near := (Decimal.round_half_even (q / 10 ^ k)).toNat
  [(near, k), (if (near : ℚ) ≤ q / 10 ^ k then near + 1 else near - 1, k)]

/-- An exponent has two digits at least. -/
def exponent_text (e : Int) : List Char :=
  let ds := Nat.toDigits 10 e.natAbs
  (if e < 0 then '-' else '+') :: if ds.length < 2 then '0' :: ds else ds

/-- The digits without the zeros behind them, with a point among them or an exponent. -/
def format_float (m : Nat) (k : Int) : List Char :=
  let all := Nat.toDigits 10 m
  let ds := (all.reverse.dropWhile (· = '0')).reverse
  let point : Int := all.length + k
  if -4 < point ∧ point ≤ 16 then
    if point ≤ 0 then '0' :: '.' :: (List.replicate point.natAbs '0' ++ ds)
    else if ds.length ≤ point then
      ds ++ List.replicate (point.toNat - ds.length) '0' ++ ['.', '0']
    else ds.take point.toNat ++ '.' :: ds.drop point.toNat
  else
    (match ds with
    | d :: e :: rest => d :: '.' :: e :: rest
    | ds => ds) ++ 'e' :: exponent_text (point - 1)

def sign_text (q : ℚ) : List Char := if q < 0 then ['-'] else []

/-- The text is read as the float. -/
def reads_back (q : ℚ) (text : List Char) : Bool :=
  match scan_literal text with
  | .ok (.float (.fin x), []) => x = q
  | _ => false

/-- All digits of a number whose denominator is a power of two. -/
def exact_text (q : ℚ) : List Char :=
  let k := Nat.log 2 q.den
  dumps_int (q * 10 ^ k).num ++ 'e' :: '-' :: Nat.toDigits 10 k

/-- The shortest text that is read back. For a double there is one with 17 digits; the one with all
digits makes the function total. -/
def shortest_text (q : ℚ) : List Char :=
  if q = 0 then "0.0".toList
  else
    let texts := ((List.range 17).flatMap fun n => neighbours |q| (n + 1)).map fun d =>
      sign_text q ++ format_float d.1 d.2
    (texts.find? (reads_back q)).getD (exact_text q)

/-- `float.__repr__`, and the names that JSON has for what is not finite. -/
def dumps_float : PyFloat → List Char
  | .fin q => shortest_text q
  | .inf negative => if negative then "-Infinity".toList else "Infinity".toList
  | .nan => "NaN".toList

/-! ## Values -/

/-- What `ensure_ascii` makes of a code point. A lone surrogate is escaped as it is. -/
def escape_point (p : CodePoint) : List Char :=
  match char_of p with
  | some c => escape_char c
  | none => unit_escape p.1

/-- `json.dumps` of a string that may hold surrogates. -/
def dumps_py_str (s : PyStr) : List Char := '"' :: (s.flatMap escape_point ++ ['"'])

/-- `int.__repr__`. -/
def int_repr (n : Int) : Except PyErr (List Char) :=
  if max_str_digits < (Nat.toDigits 10 n.natAbs).length then
    .error ⟨"ValueError", "Exceeds the limit (4300 digits) for integer string conversion"⟩
  else .ok (dumps_int n)

mutual

/-- `json.dumps`. -/
def dumps : PyJson → Except PyErr (List Char)
  | .null => .ok "null".toList
  | .bool true => .ok "true".toList
  | .bool false => .ok "false".toList
  | .int n => int_repr n
  | .float x => .ok (dumps_float x)
  | .str s => .ok (dumps_py_str s)
  | .list items => do
    let text ← dumps_items items
    return '[' :: (text ++ [']'])
  | .dict fields => do
    let text ← dumps_entries fields
    return '{' :: (text ++ ['}'])

/-- The items, with ", " between them. -/
def dumps_items : List PyJson → Except PyErr (List Char)
  | [] => .ok []
  | [v] => dumps v
  | v :: vs => do
    let text ← dumps v
    let more ← dumps_items vs
    return text ++ ',' :: ' ' :: more

/-- The fields, with ": " behind each key. -/
def dumps_entries : List (PyStr × PyJson) → Except PyErr (List Char)
  | [] => .ok []
  | [(key, v)] => do
    let text ← dumps v
    return dumps_py_str key ++ ':' :: ' ' :: text
  | (key, v) :: fields => do
    let text ← dumps v
    let more ← dumps_entries fields
    return dumps_py_str key ++ ':' :: ' ' :: (text ++ ',' :: ' ' :: more)

end

/-! ## Surrogates -/

/-- A high surrogate and a low one, which are read as one character. -/
def Pair (hi lo : Nat) : Prop := 0xd800 ≤ hi ∧ hi ≤ 0xdbff ∧ 0xdc00 ≤ lo ∧ lo ≤ 0xdfff

/-- No high surrogate has a low one behind it. -/
def Joined (s : PyStr) : Prop := s.IsChain fun p q => ¬ Pair p.1 q.1

/-- The UTF-16 units of a code point. -/
def point_units (p : CodePoint) : List Nat :=
  if p.1 < 0x10000 then [p.1]
  else [0xd800 + (p.1 - 0x10000) / 0x400, 0xdc00 + (p.1 - 0x10000) % 0x400]

theorem char_of_toNat {p : CodePoint} {c : Char} (h : char_of p = some c) : c.toNat = p.1 := by
  unfold char_of at h
  split at h
  · rw [← Option.some.inj h]
    rfl
  · cases h

/-- Only the surrogates are no characters. -/
theorem surrogate_of_no_char {p : CodePoint} (h : char_of p = none) :
    0xd800 ≤ p.1 ∧ p.1 ≤ 0xdfff := by
  have hp := p.2
  have hvalid : ¬ p.1.isValidChar := by
    intro hvalid
    unfold char_of at h
    rw [dif_pos hvalid] at h
    cases h
  unfold Nat.isValidChar at hvalid
  omega

/-- A code point is read back as its units. -/
theorem scan_escape_point (p : CodePoint) (rest : List Char) :
    scan_string (escape_point p ++ rest) = (point_units p).foldr push (scan_string rest) := by
  unfold escape_point
  cases hchar : char_of p with
  | some c =>
    have hcode := char_of_toNat hchar
    have hunits : point_units p = units c := by
      unfold point_units units
      rw [hcode]
    rw [hunits]
    exact scan_escape_char c rest
  | none =>
    have hsurrogate := surrogate_of_no_char hchar
    have hunits : point_units p = [p.1] := if_pos (by omega)
    rw [hunits]
    exact scan_unit_escape (by omega) rest

theorem scan_dumps_py_str (s : PyStr) (rest : List Char) :
    scan_string (s.flatMap escape_point ++ '"' :: rest) = .ok (s.flatMap point_units, rest) := by
  induction s with
  | nil => rfl
  | cons p s ih =>
    rw [List.flatMap_cons, List.append_assoc, scan_escape_point, ih, foldr_push, List.flatMap_cons]

theorem join_cons {n : Nat} {s : List Nat} (h : ∀ m ∈ s.head?, ¬ Pair n m) :
    join_surrogates (n :: s) = n :: join_surrogates s := by
  cases s with
  | nil => rfl
  | cons m s =>
    have hpair := h m rfl
    unfold Pair at hpair
    rw [join_surrogates, if_neg hpair]

/-- What stands first among the units of a string that goes on is no low surrogate, or the first
code point is one. -/
theorem pair_of_head_units {n m : Nat} {q : CodePoint} {s : List Nat}
    (hm : m ∈ (point_units q ++ s).head?) (h : Pair n m) : Pair n q.1 := by
  unfold point_units at hm
  unfold Pair at h ⊢
  split at hm
  · simp only [List.singleton_append, List.head?_cons, Option.mem_some_iff] at hm
    omega
  · simp only [List.cons_append, List.head?_cons, Option.mem_some_iff] at hm
    omega

/-- The units of a rejoined string are its code points again. -/
theorem join_point_units {s : PyStr} (h : Joined s) :
    join_surrogates (s.flatMap point_units) = s.map (·.1) := by
  induction s with
  | nil => rfl
  | cons p s ih =>
    have hs : Joined s := h.tail
    have hp := p.2
    rw [List.flatMap_cons, List.map_cons, ← ih hs]
    by_cases hlow : p.1 < 0x10000
    · have hunits : point_units p = [p.1] := if_pos hlow
      rw [hunits, List.singleton_append, join_cons]
      intro m hm hpair
      cases s with
      | nil => cases hm
      | cons q s => exact h.rel (pair_of_head_units hm hpair)
    · have hunits : point_units p = [0xd800 + (p.1 - 0x10000) / 0x400,
          0xdc00 + (p.1 - 0x10000) % 0x400] := if_neg hlow
      have hjoin : ∀ n : Nat, ¬ n < 0x10000 →
          0x10000 + (0xd800 + (n - 0x10000) / 0x400 - 0xd800) * 0x400 +
            (0xdc00 + (n - 0x10000) % 0x400 - 0xdc00) = n := by
        omega
      rw [hunits, List.cons_append, List.singleton_append, join_surrogates, if_pos (by omega),
        hjoin _ hlow]

/-- What is read of a string that was written. -/
def rejoined (s : PyStr) : PyStr := string_value (s.flatMap point_units)

theorem joined_of_joined {s : PyStr} (h : Joined s) : rejoined s = s := by
  unfold rejoined string_value
  rw [join_point_units h, List.map_map]
  calc s.map (Fin.ofNat 0x110000 ∘ fun p => p.1) = s.map id :=
        List.map_congr_left fun p _ => Fin.ext (Nat.mod_eq_of_lt p.2)
    _ = s := List.map_id s

/-- A text has no surrogates. -/
theorem joined_py_str (text : List Char) : Joined (py_str text) := by
  induction text with
  | nil => exact .nil
  | cons c cs ih =>
    refine List.isChain_cons.mpr ⟨fun q _ h => ?_, ih⟩
    obtain ⟨hlow, hhigh, -⟩ : 0xd800 ≤ c.toNat ∧ c.toNat ≤ 0xdbff ∧ _ := h
    rcases c.valid with hvalid | ⟨hvalid, -⟩
    · exact absurd (Nat.lt_of_le_of_lt hlow hvalid) (Nat.lt_irrefl _)
    · exact absurd (Nat.lt_of_lt_of_le hvalid hhigh) (by decide)

/-! ## Numbers -/

/-- Digits end at a character that is none. -/
theorem digits_before {ds rest : List Char} (hdigits : ∀ c ∈ ds, c.isDigit = true)
    (hrest : ∀ c ∈ rest.head?, c.isDigit = false) : digits (ds ++ rest) = (ds, rest) := by
  unfold digits
  rw [List.span_eq_takeWhile_dropWhile, List.takeWhile_append_of_pos hdigits,
    List.dropWhile_append_of_pos hdigits]
  cases rest with
  | nil => simp
  | cons c cs => simp [hrest c rfl]

theorem digits_more (text : List Char) {rest : List Char} (hrest : EndsNumber rest) :
    digits (text ++ rest) = ((digits text).1, (digits text).2 ++ rest) := by
  unfold digits
  simp only [List.span_eq_takeWhile_dropWhile]
  induction text with
  | nil =>
    cases rest with
    | nil => rfl
    | cons c cs => simp [(hrest c rfl).1]
  | cons c text ih =>
    simp only [List.cons_append, List.takeWhile_cons, List.dropWhile_cons]
    split
    · simpa using ih
    · rfl

theorem scan_fraction_more (text : List Char) {rest : List Char} (hrest : EndsNumber rest) :
    scan_fraction (text ++ rest) = ((scan_fraction text).1, (scan_fraction text).2 ++ rest) := by
  fun_cases scan_fraction text with
  | case1 text h =>
    rw [List.cons_append, scan_fraction, digits_more text hrest, if_pos h]
  | case2 text h =>
    rw [List.cons_append, scan_fraction, digits_more text hrest, if_neg h]
  | case3 text h =>
    cases text with
    | nil => rw [List.nil_append, scan_fraction_end hrest]
    | cons c text =>
      rw [List.cons_append, scan_fraction]
      intro text' htext
      exact h text (congrArg (· :: text) (List.cons.inj htext).1)

theorem scan_exponent_digits_more {negative : Bool} {text rest : List Char} {n : Int}
    (h : scan_exponent_digits negative text = some (n, [])) (hrest : EndsNumber rest) :
    scan_exponent_digits negative (text ++ rest) = some (n, rest) := by
  unfold scan_exponent_digits at h ⊢
  rw [digits_more text hrest]
  dsimp only
  split at h
  · cases h
  · rename_i hne
    obtain ⟨hn, hend⟩ := Prod.mk.inj (Option.some.inj h)
    rw [if_neg hne, hn, hend, List.nil_append]

theorem scan_exponent_value_more {text rest : List Char} {n : Int}
    (h : scan_exponent_value text = some (n, [])) (hrest : EndsNumber rest) :
    scan_exponent_value (text ++ rest) = some (n, rest) := by
  fun_cases scan_exponent_value text with
  | case1 text => exact scan_exponent_digits_more h hrest
  | case2 text => exact scan_exponent_digits_more h hrest
  | case3 text hplus hminus =>
    rw [scan_exponent_value.eq_3 text hplus hminus] at h
    cases text with
    | nil => cases h
    | cons c text =>
      rw [scan_exponent_value.eq_3]
      · exact scan_exponent_digits_more h hrest
      · exact fun text' htext => hplus text (congrArg (· :: text) (List.cons.inj htext).1)
      · exact fun text' htext => hminus text (congrArg (· :: text) (List.cons.inj htext).1)

theorem scan_exponent_more {text rest : List Char} (h : (scan_exponent text).2 = [])
    (hrest : EndsNumber rest) : scan_exponent (text ++ rest) = ((scan_exponent text).1, rest) := by
  fun_cases scan_exponent text with
  | case1 => exact scan_exponent_end hrest
  | case2 e text he n more hvalue =>
    have hmore : more = [] := by simpa [scan_exponent, he, hvalue] using h
    rw [hmore] at hvalue
    rw [List.cons_append, scan_exponent, if_pos he, scan_exponent_value_more hvalue hrest]
  | case3 e text he hvalue => simp [scan_exponent, he, hvalue] at h
  | case4 e text he => simp [scan_exponent, he] at h

theorem scan_whole_more {text whole behind rest : List Char}
    (h : scan_whole text = some (whole, behind)) (hrest : EndsNumber rest) :
    scan_whole (text ++ rest) = some (whole, behind ++ rest) := by
  fun_cases scan_whole text with
  | case1 text =>
    cases h
    rfl
  | case2 text hzero hnone =>
    rw [scan_whole.eq_2 text hzero, if_pos hnone] at h
    cases h
  | case3 text hzero hsome =>
    rw [scan_whole.eq_2 text hzero, if_neg hsome] at h
    have hdigits := Option.some.inj h
    cases text with
    | nil => exact absurd rfl hsome
    | cons c text =>
      rw [scan_whole.eq_2, digits_more _ hrest, hdigits, if_neg (by rw [hdigits] at hsome; exact hsome)]
      exact fun text' htext => hzero text (congrArg (· :: text) (List.cons.inj htext).1)

theorem scan_number_eq_some {text rest : List Char} {n : NumberText} :
    scan_number text = some (n, rest) ↔
      ∃ whole behind, scan_whole (scan_sign text).2 = some (whole, behind) ∧
        n = ⟨(scan_sign text).1, whole, (scan_fraction behind).1,
          (scan_exponent (scan_fraction behind).2).1⟩ ∧
        rest = (scan_exponent (scan_fraction behind).2).2 := by
  unfold scan_number
  simp only [Option.map_eq_some_iff, Prod.exists, Prod.mk.injEq, eq_comm (b := n),
    eq_comm (b := rest)]

/-- A number that is read to the end of a text is read up to what ends a number. -/
theorem scan_number_more {text rest : List Char} {n : NumberText}
    (h : scan_number text = some (n, [])) (hrest : EndsNumber rest) :
    scan_number (text ++ rest) = some (n, rest) := by
  obtain ⟨whole, behind, hwhole, hn, hend⟩ := scan_number_eq_some.mp h
  have hsign : scan_sign (text ++ rest) = ((scan_sign text).1, (scan_sign text).2 ++ rest) := by
    fun_cases scan_sign text with
    | case1 text => rfl
    | case2 text hminus =>
      cases text with
      | nil => cases hwhole
      | cons c text =>
        rw [List.cons_append, scan_sign]
        exact fun text' htext => hminus text (congrArg (· :: text) (List.cons.inj htext).1)
  have hfraction := scan_fraction_more behind hrest
  have hexponent := scan_exponent_more hend.symm hrest
  refine scan_number_eq_some.mpr ⟨whole, behind ++ rest, ?_, ?_, ?_⟩
  · rw [hsign]
    exact scan_whole_more hwhole hrest
  · rw [hsign, hfraction, hexponent]
    exact hn
  · rw [hfraction, hexponent]

theorem head_of_scan_whole {text whole rest : List Char}
    (h : scan_whole text = some (whole, rest)) : ∃ c cs, text = c :: cs ∧ c.isDigit = true := by
  fun_cases scan_whole text with
  | case1 text => exact ⟨'0', text, rfl, rfl⟩
  | case2 text hzero hnone =>
    rw [scan_whole.eq_2 text hzero, if_pos hnone] at h
    cases h
  | case3 text hzero hsome =>
    cases text with
    | nil => exact absurd rfl hsome
    | cons c text =>
      refine ⟨c, text, rfl, ?_⟩
      by_contra hc
      apply hsome
      simp [digits, List.span_eq_takeWhile_dropWhile, hc]

/-- A number begins with a digit, or with a minus and a digit. -/
theorem head_of_scan_number {text rest : List Char} {n : NumberText}
    (h : scan_number text = some (n, rest)) :
    ∃ c cs, text = c :: cs ∧ (c.isDigit = true ∨ c = '-' ∧ ∀ d ∈ cs.head?, d.isDigit = true) := by
  obtain ⟨whole, behind, hwhole, -, -⟩ := scan_number_eq_some.mp h
  obtain ⟨d, ds, hds, hd⟩ := head_of_scan_whole hwhole
  cases text with
  | nil => cases hds
  | cons c cs =>
    by_cases hc : c = '-'
    · subst c
      refine ⟨'-', cs, rfl, Or.inr ⟨rfl, ?_⟩⟩
      intro c hhead
      have heq : cs = d :: ds := hds
      rw [heq] at hhead
      cases hhead
      exact hd
    · have hsign : scan_sign (c :: cs) = (false, c :: cs) := by
        rw [scan_sign]
        exact fun text' htext => hc (List.cons.inj htext).1
      rw [hsign] at hds
      obtain ⟨rfl, -⟩ := List.cons.inj hds
      exact ⟨c, cs, rfl, Or.inl hd⟩

/-- A finite float is read as a number. -/
theorem scan_float {text rest : List Char} {x : ℚ}
    (h : scan_literal text = .ok (.float (.fin x), rest)) :
    ∃ n, scan_number text = some (n, rest) ∧ n.value = .ok (.float (.fin x)) := by
  unfold scan_literal at h
  split at h
  · cases h
  · cases h
  · cases h
  · cases h
  · cases h
  · cases h
  · split at h
    · rename_i n behind hread
      cases hvalue : n.value with
      | error e =>
        rw [hvalue] at h
        cases h
      | ok value =>
        rw [hvalue] at h
        obtain ⟨rfl, rfl⟩ := Prod.mk.inj (Except.ok.inj h)
        exact ⟨n, hread, hvalue⟩
    · cases h

/-- A finite float that is read to the end of a text is read up to what ends a number. -/
theorem scan_float_more {text rest : List Char} {x : ℚ}
    (h : scan_literal text = .ok (.float (.fin x), [])) (hrest : EndsNumber rest) :
    scan_literal (text ++ rest) = .ok (.float (.fin x), rest) := by
  obtain ⟨n, hread, hvalue⟩ := scan_float h
  have hmore := scan_number_more hread hrest
  rw [scan_literal_number (head_of_scan_number hmore), hmore]
  dsimp only
  rw [hvalue]
  rfl

/-! ## Doubles -/

theorem Decimal.round_half_even_int (n : Int) : Decimal.round_half_even n = n := by
  unfold Decimal.round_half_even
  simp

theorem last_place_le {q : ℚ} {e : Int} (hq : q ≠ 0) (hlt : |q| < 2 ^ (e + 53)) (he : -1074 ≤ e) :
    last_place q ≤ e := by
  have hpos : 0 < |q| := abs_pos.mpr hq
  have hlog : Int.log 2 |q| < e + 53 :=
    (Int.lt_zpow_iff_log_lt (b := 2) (by norm_num) hpos).mp (by exact_mod_cast hlt)
  unfold last_place
  omega

/-- A number on the grid of its last place is its own nearest double. -/
theorem nearest_of_place {q : ℚ} {m : Int} (h : q = m * 2 ^ last_place q) : nearest q = q := by
  have hpos := ulp_pos q
  have hm : q / 2 ^ last_place q = m := by
    rw [div_eq_iff hpos.ne']
    exact h
  unfold nearest
  rw [hm, Decimal.round_half_even_int, ← h]

/-- A number with no more than 53 bits is its own nearest double. -/
theorem nearest_of_bits {m e : Int} (hm : |m| ≤ 2 ^ 53) (he : -1074 ≤ e) :
    nearest ((m : ℚ) * 2 ^ e) = m * 2 ^ e := by
  have hpos : (0 : ℚ) < 2 ^ e := zpow_pos (by norm_num) e
  rcases eq_or_ne m 0 with rfl | hzero
  · exact nearest_of_place (m := 0) (by simp)
  have hq : (m : ℚ) * 2 ^ e ≠ 0 := mul_ne_zero (by exact_mod_cast hzero) hpos.ne'
  have habs : |(m : ℚ) * 2 ^ e| = (|m| : Int) * 2 ^ e := by
    rw [abs_mul, abs_of_pos hpos, Int.cast_abs]
  rcases lt_or_eq_of_le hm with hlt | heq
  · have hlast : last_place ((m : ℚ) * 2 ^ e) ≤ e := by
      apply last_place_le hq _ he
      rw [habs, zpow_add₀ (by norm_num), mul_comm]
      exact mul_lt_mul_of_pos_left (by exact_mod_cast hlt) hpos
    -- the grid of the last place is finer
    obtain ⟨k, hk⟩ : ∃ k : Nat, e = last_place ((m : ℚ) * 2 ^ e) + k :=
      ⟨(e - last_place ((m : ℚ) * 2 ^ e)).toNat, by omega⟩
    apply nearest_of_place (m := m * 2 ^ k)
    calc (m : ℚ) * 2 ^ e = m * 2 ^ (last_place ((m : ℚ) * 2 ^ e) + k) := by rw [← hk]
      _ = ((m * 2 ^ k : Int) : ℚ) * 2 ^ last_place ((m : ℚ) * 2 ^ e) := by
        rw [zpow_add₀ (by norm_num), zpow_natCast]
        push_cast
        ring
  · -- a power of two has its last place one above
    have hlog : Int.log 2 |(m : ℚ) * 2 ^ e| = e + 53 := by
      rw [habs, heq]
      have hpow : (((2 : Int) ^ 53 : Int) : ℚ) * 2 ^ e = (2 : ℚ) ^ (e + 53) := by
        rw [zpow_add₀ (by norm_num), mul_comm]
        norm_num
      rw [hpow]
      exact_mod_cast Int.log_zpow (R := ℚ) (b := 2) (by norm_num) (e + 53)
    have hlast : last_place ((m : ℚ) * 2 ^ e) = e + 1 := by
      unfold last_place
      rw [hlog]
      omega
    have hsign : m = m.sign * 2 ^ 53 := by
      rw [← heq, Int.sign_mul_abs]
    apply nearest_of_place (m := m.sign * 2 ^ 52)
    rw [hlast, zpow_add₀ (by norm_num)]
    conv_lhs => rw [hsign]
    push_cast
    ring

/-- The nearest double has no more than 53 bits. -/
theorem nearest_bits (q : ℚ) :
    ∃ m e : Int, nearest q = m * 2 ^ e ∧ |m| ≤ 2 ^ 53 ∧ -1074 ≤ e := by
  refine ⟨Decimal.round_half_even (q / 2 ^ last_place q), last_place q, rfl, ?_, ?_⟩
  · have hnear := Decimal.round_half_even_near (q / 2 ^ last_place q)
    have hpos := ulp_pos q
    have hsmall : |q / 2 ^ last_place q| < 2 ^ 53 := by
      rw [abs_div, abs_of_pos hpos, div_lt_iff₀ hpos]
      have hlog : |q| < (2 : ℚ) ^ (Int.log 2 |q| + 1) := by
        exact_mod_cast Int.lt_zpow_succ_log_self (b := 2) (by norm_num) |q|
      calc |q| < (2 : ℚ) ^ (Int.log 2 |q| + 1) := hlog
        _ ≤ (2 : ℚ) ^ (53 + last_place q) :=
          zpow_le_zpow_right₀ (by norm_num) (by unfold last_place; omega)
        _ = 2 ^ 53 * 2 ^ last_place q := by
          rw [zpow_add₀ (by norm_num)]
          norm_num
    have habs : |(Decimal.round_half_even (q / 2 ^ last_place q) : ℚ)| < 2 ^ 53 + 1 := by
      have htriangle := abs_sub_abs_le_abs_sub
        (Decimal.round_half_even (q / 2 ^ last_place q) : ℚ) (q / 2 ^ last_place q)
      linarith
    have hint : |Decimal.round_half_even (q / 2 ^ last_place q)| < 2 ^ 53 + 1 := by
      exact_mod_cast habs
    omega
  · unfold last_place
    omega

theorem nearest_nearest (q : ℚ) : nearest (nearest q) = nearest q := by
  obtain ⟨m, e, heq, hm, he⟩ := nearest_bits q
  rw [heq]
  exact nearest_of_bits hm he

/-- A float that is a double, or not finite. -/
def IsDouble : PyFloat → Prop
  | .fin q => PyFloat.of_decimal q = .fin q
  | _ => True

theorem is_double_of_decimal (q : ℚ) : IsDouble (.of_decimal q) := by
  unfold PyFloat.of_decimal
  split
  · trivial
  · rename_i hover
    split
    · trivial
    · rename_i hunder
      unfold IsDouble PyFloat.of_decimal
      dsimp only
      rw [nearest_nearest, if_neg hover, if_neg hunder]

theorem nearest_of_double {q : ℚ} (h : IsDouble (.fin q)) : nearest q = q := by
  unfold IsDouble PyFloat.of_decimal at h
  dsimp only at h
  split at h
  · cases h
  · split at h
    · cases h
    · exact PyFloat.fin.inj h

/-- The denominator of a double is a power of two. -/
theorem den_of_double {q : ℚ} (h : IsDouble (.fin q)) : q.den = 2 ^ Nat.log 2 q.den := by
  obtain ⟨m, e, heq, -, -⟩ := nearest_bits q
  rw [nearest_of_double h] at heq
  have hdvd : q.den ∣ 2 ^ e.natAbs := by
    rcases Int.le_total 0 e with hpos | hneg
    · obtain ⟨k, rfl⟩ := Int.eq_ofNat_of_zero_le hpos
      have hint : q = ((m * 2 ^ k : Int) : ℚ) := by
        rw [heq, zpow_natCast]
        push_cast
        rfl
      rw [hint, Rat.den_intCast]
      exact one_dvd _
    · obtain ⟨k, hk⟩ := Int.exists_eq_neg_ofNat hneg
      have hquot : q = (m : ℚ) / ((2 ^ k : Nat) : ℚ) := by
        rw [heq, hk, zpow_neg, zpow_natCast, div_eq_mul_inv]
        push_cast
        rfl
      have hden := Rat.den_dvd m (2 ^ k : Nat)
      rw [hquot, hk, Int.natAbs_neg, Int.natAbs_natCast]
      exact_mod_cast hden
  obtain ⟨k, -, hk⟩ := (Nat.dvd_prime_pow Nat.prime_two).mp hdvd
  rw [hk, Nat.log_pow (by norm_num)]

/-! ## Floats are read back -/

theorem reads_back_iff {q : ℚ} {text : List Char} :
    reads_back q text = true ↔ scan_literal text = .ok (.float (.fin q), []) := by
  unfold reads_back
  constructor
  · intro h
    split at h
    · rename_i x hread
      rw [hread, of_decide_eq_true h]
    · cases h
  · intro h
    rw [h]
    exact decide_eq_true rfl

/-- The power of ten clears the denominator. -/
theorem num_of_exact {q : ℚ} (h : IsDouble (.fin q)) :
    ((q * 10 ^ Nat.log 2 q.den).num : ℚ) = q * 10 ^ Nat.log 2 q.den := by
  have hden := den_of_double h
  have hnum : q * (2 ^ Nat.log 2 q.den : Nat) = q.num := by
    rw [← hden]
    exact Rat.mul_den_eq_num q
  have hint : q * 10 ^ Nat.log 2 q.den = ((q.num * 5 ^ Nat.log 2 q.den : Int) : ℚ) := by
    calc q * 10 ^ Nat.log 2 q.den
        = q * (2 ^ Nat.log 2 q.den : Nat) * 5 ^ Nat.log 2 q.den := by
          rw [show (10 : ℚ) = 2 * 5 by norm_num, mul_pow]
          push_cast
          ring
      _ = ((q.num * 5 ^ Nat.log 2 q.den : Int) : ℚ) := by
          rw [hnum]
          push_cast
          rfl
  rw [hint, Rat.num_intCast]

theorem scan_exponent_exact (k : Nat) :
    scan_exponent ('e' :: '-' :: Nat.toDigits 10 k) = (some (-(k : Int)), []) := by
  have hdigits : digits (Nat.toDigits 10 k ++ []) = (Nat.toDigits 10 k, []) :=
    digits_before (fun c => toDigits_isDigit) (by simp)
  rw [List.append_nil] at hdigits
  have hvalue : scan_exponent_value ('-' :: Nat.toDigits 10 k) = some (-(k : Int), []) := by
    rw [scan_exponent_value, scan_exponent_digits, hdigits, if_neg Nat.toDigits_ne_nil]
    dsimp only
    rw [Nat.ofDigitChars_ten_toDigits]
    rfl
  rw [scan_exponent, if_pos (Or.inl rfl), hvalue]

theorem scan_whole_exact {n : Nat} (h : 0 < n) {rest : List Char}
    (hrest : ∀ c ∈ rest.head?, c.isDigit = false) :
    scan_whole (Nat.toDigits 10 n ++ rest) = some (Nat.toDigits 10 n, rest) := by
  obtain ⟨d, ds, hds, hd⟩ := head_toDigits h
  have hread := digits_before (fun c => toDigits_isDigit (n := n)) hrest
  rw [hds] at hread ⊢
  rw [List.cons_append] at hread ⊢
  rw [scan_whole, hread, if_neg (List.cons_ne_nil d ds)]
  exact fun text h => hd (List.cons.inj h).1

/-- All digits of a double are read as the double. -/
theorem exact_reads_back {q : ℚ} (hq : q ≠ 0) (h : IsDouble (.fin q)) :
    reads_back q (exact_text q) = true := by
  rw [reads_back_iff]
  have hnum := num_of_exact h
  unfold exact_text
  dsimp only
  generalize Nat.log 2 q.den = k at hnum ⊢
  generalize hm : (q * 10 ^ k).num = m at hnum ⊢
  have hzero : m ≠ 0 := by
    rintro rfl
    rw [Int.cast_zero] at hnum
    exact mul_ne_zero hq (pow_ne_zero k (by norm_num)) hnum.symm
  have hnumber : scan_number (dumps_int m ++ 'e' :: '-' :: Nat.toDigits 10 k) =
      some (⟨decide (m < 0), Nat.toDigits 10 m.natAbs, [], some (-(k : Int))⟩, []) := by
    rw [scan_number_eq_some]
    refine ⟨Nat.toDigits 10 m.natAbs, 'e' :: '-' :: Nat.toDigits 10 k, ?_, ?_, ?_⟩
    · rw [scan_sign_dumps_int]
      exact scan_whole_exact (by omega) (by simp)
    · rw [scan_sign_dumps_int, scan_fraction, scan_exponent_exact]
      exact fun text h => absurd (List.cons.inj h).1 (by decide)
    · rw [scan_fraction, scan_exponent_exact]
      exact fun text h => absurd (List.cons.inj h).1 (by decide)
  rw [scan_literal_number (head_of_scan_number hnumber), hnumber]
  dsimp only
  have hvalue : (m : ℚ) * 10 ^ (-(k : Int)) = q := by
    rw [hnum, zpow_neg, zpow_natCast, mul_assoc, mul_inv_cancel₀ (pow_ne_zero k (by norm_num)),
      mul_one]
  rw [NumberText.value, if_neg (by simp)]
  simp only [List.append_nil, Nat.ofDigitChars_ten_toDigits, signed_natAbs, Option.getD_some,
    List.length_nil, Nat.cast_zero, sub_zero, hvalue]
  rw [show PyFloat.of_decimal q = .fin q from h]
  rfl

theorem zero_reads_back : scan_literal "0.0".toList = .ok (.float (.fin 0), []) :=
  reads_back_iff.mp (by decide +kernel)

theorem shortest_reads_back {q : ℚ} (h : IsDouble (.fin q)) :
    scan_literal (shortest_text q) = .ok (.float (.fin q), []) := by
  unfold shortest_text
  split
  · rename_i hzero
    rw [hzero]
    exact zero_reads_back
  · rename_i hq
    dsimp only
    rw [← reads_back_iff]
    generalize (((List.range 17).flatMap fun n => neighbours |q| (n + 1)).map fun d =>
      sign_text q ++ format_float d.1 d.2) = texts
    cases hfind : texts.find? (reads_back q) with
    | none => exact exact_reads_back hq h
    | some text => exact List.find?_some hfind

/-- A float is read back. -/
theorem scan_dumps_float {x : PyFloat} (h : IsDouble x) {rest : List Char}
    (hrest : EndsNumber rest) : scan_literal (dumps_float x ++ rest) = .ok (.float x, rest) := by
  cases x with
  | fin q => exact scan_float_more (shortest_reads_back h) hrest
  | inf negative =>
    cases negative with
    | true => rfl
    | false => rfl
  | nan => rfl

/-! ## Values are read back -/

mutual

/-- No integer has more digits than `int` writes, and the finite floats are doubles. -/
def Writable : PyJson → Prop
  | .int n => (Nat.toDigits 10 n.natAbs).length ≤ max_str_digits
  | .float x => IsDouble x
  | .list items => WritableItems items
  | .dict fields => WritableFields fields
  | _ => True

def WritableItems : List PyJson → Prop
  | [] => True
  | v :: vs => Writable v ∧ WritableItems vs

def WritableFields : List (PyStr × PyJson) → Prop
  | [] => True
  | (_, v) :: fields => Writable v ∧ WritableFields fields

end

mutual

/-- The value with the surrogates of its strings rejoined. -/
def join : PyJson → PyJson
  | .str s => .str (rejoined s)
  | .list items => .list (join_items items)
  | .dict fields => .dict (join_fields fields)
  | v => v

def join_items : List PyJson → List PyJson
  | [] => []
  | v :: vs => join v :: join_items vs

def join_fields : List (PyStr × PyJson) → List (PyStr × PyJson)
  | [] => []
  | (key, v) :: fields => (rejoined key, join v) :: join_fields fields

end

/-- A value, an item and a field begin with such a character. -/
def Starts (text : List Char) : Prop :=
  ∃ c cs, text = c :: cs ∧ (c = ' ' || c = '\t' || c = '\n' || c = '\r') = false ∧ c ≠ ']' ∧
    c ≠ '}' ∧ c ≠ '\ufeff'

theorem Starts.skip {text : List Char} (h : Starts text) (rest : List Char) :
    skip (text ++ rest) = text ++ rest := by
  obtain ⟨c, cs, rfl, hc, -⟩ := h
  exact skip_cons hc _

/-- The text is the one of a value: the value is read, and nothing behind it. -/
structure TextOf (v : PyJson) (text : List Char) : Prop where
  starts : Starts text
  scan : ∀ n rest, 2 * text.length ≤ n → EndsNumber rest → scan_once n (text ++ rest) = .ok (v, rest)

/-- The text is the one of items, up to the bracket behind them. -/
structure TextOfItems (items : List PyJson) (text : List Char) : Prop where
  starts : Starts text
  scan : ∀ n rest, 2 * text.length + 1 ≤ n →
    scan_items n (text ++ ']' :: rest) = .ok (items, rest)

/-- The text is the one of fields, up to the brace behind them. -/
structure TextOfFields (fields : List (PyStr × PyJson)) (text : List Char) : Prop where
  starts : Starts text
  scan : ∀ n rest, 2 * text.length + 1 ≤ n →
    scan_fields n (text ++ '}' :: rest) = .ok (fields, rest)

theorem ends_number_of {c : Char} (h : c ∈ [']', '}', ',']) (rest : List Char) :
    EndsNumber (c :: rest) := by
  intro d hd
  cases hd
  simp only [List.mem_cons, List.not_mem_nil, or_false] at h
  rcases h with rfl | rfl | rfl
  · decide
  · decide
  · decide

theorem starts_of_digit {c : Char} (h : c.isDigit = true ∨ c = '-') (cs : List Char) :
    Starts (c :: cs) := by
  refine ⟨c, cs, rfl, ?_, ?_, ?_, ?_⟩
  · simp only [Bool.or_eq_false_iff, decide_eq_false_iff_not]
    refine ⟨⟨⟨?_, ?_⟩, ?_⟩, ?_⟩
    all_goals
      rintro rfl
      exact absurd h (by decide)
  all_goals
    rintro rfl
    exact absurd h (by decide)

/-- A text that is read by `scan_literal`. -/
theorem text_of_literal {v : PyJson} {text : List Char} (hstarts : Starts text)
    (hhead : ∀ c ∈ text.head?, c ≠ '"' ∧ c ≠ '{' ∧ c ≠ '[')
    (hscan : ∀ rest, EndsNumber rest → scan_literal (text ++ rest) = .ok (v, rest)) :
    TextOf v text where
  starts := hstarts
  scan n rest hn hrest := by
    obtain ⟨c, cs, rfl, -⟩ := hstarts
    obtain ⟨hquote, hbrace, hbracket⟩ := hhead c rfl
    obtain ⟨m, rfl⟩ : ∃ m, n = m + 1 := ⟨n - 1, by simp only [List.length_cons] at hn; omega⟩
    rw [← hscan rest hrest, List.cons_append, scan_once]
    · exact fun text h => hquote (List.cons.inj h).1
    · exact fun text h => hbrace (List.cons.inj h).1
    · exact fun text h => hbracket (List.cons.inj h).1

/-- A word that stands for a value. -/
theorem text_of_word {v : PyJson} {text cs : List Char} {c : Char} (htext : text = c :: cs)
    (hc : c ∈ ['n', 't', 'f', 'N', 'I', '-'])
    (hscan : ∀ rest, EndsNumber rest → scan_literal (text ++ rest) = .ok (v, rest)) :
    TextOf v text := by
  have hall : ∀ c ∈ ['n', 't', 'f', 'N', 'I', '-'], ((c = ' ' || c = '\t' || c = '\n' || c = '\r') =
      false ∧ c ≠ ']' ∧ c ≠ '}' ∧ c ≠ '\ufeff') ∧ c ≠ '"' ∧ c ≠ '{' ∧ c ≠ '[' := by
    simp
  apply text_of_literal ⟨c, cs, htext, (hall c hc).1⟩ _ hscan
  intro d hd
  rw [htext] at hd
  cases hd
  exact (hall c hc).2

theorem text_of_int {n : Int} (h : (Nat.toDigits 10 n.natAbs).length ≤ max_str_digits) :
    TextOf (.int n) (dumps_int n) := by
  obtain ⟨c, cs, heq, hc⟩ := dumps_int_cons n
  apply text_of_literal
  · rw [heq]
    exact starts_of_digit hc cs
  · intro d hd
    rw [heq] at hd
    cases hd
    refine ⟨?_, ?_, ?_⟩
    all_goals
      rintro rfl
      exact absurd hc (by decide)
  · exact fun rest hrest => scan_dumps_int h hrest

theorem text_of_float {x : PyFloat} (h : IsDouble x) : TextOf (.float x) (dumps_float x) := by
  have hscan := fun rest (hrest : EndsNumber rest) => scan_dumps_float h hrest
  cases x with
  | fin q =>
    obtain ⟨n, hnumber, -⟩ := scan_float (shortest_reads_back h)
    obtain ⟨c, cs, heq, hc⟩ := head_of_scan_number hnumber
    have hhead : c.isDigit = true ∨ c = '-' := hc.imp_right And.left
    apply text_of_literal _ _ hscan
    · rw [dumps_float, heq]
      exact starts_of_digit hhead cs
    · intro d hd
      rw [dumps_float, heq] at hd
      cases hd
      refine ⟨?_, ?_, ?_⟩
      all_goals
        rintro rfl
        exact absurd hhead (by decide)
  | inf negative =>
    cases negative with
    | true => exact text_of_word rfl (by decide) hscan
    | false => exact text_of_word rfl (by decide) hscan
  | nan => exact text_of_word rfl (by decide) hscan

theorem dumps_py_str_append (s : PyStr) (rest : List Char) :
    dumps_py_str s ++ rest = '"' :: (s.flatMap escape_point ++ '"' :: rest) := by
  simp [dumps_py_str]

theorem starts_py_str (s : PyStr) (rest : List Char) : Starts (dumps_py_str s ++ rest) :=
  ⟨'"', _, dumps_py_str_append s rest, by decide⟩

theorem text_of_str (s : PyStr) : TextOf (.str (rejoined s)) (dumps_py_str s) where
  starts := ⟨'"', _, rfl, by decide⟩
  scan n rest hn hrest := by
    obtain ⟨m, rfl⟩ : ∃ m, n = m + 1 := ⟨n - 1, by
      simp only [dumps_py_str, List.length_cons] at hn; omega⟩
    rw [dumps_py_str_append, scan_once, scan_dumps_py_str]
    rfl

theorem text_of_empty_list : TextOf (.list []) ['[', ']'] where
  starts := ⟨'[', _, rfl, by decide⟩
  scan n rest hn hrest := by
    obtain ⟨m, rfl⟩ : ∃ m, n = m + 1 := ⟨n - 1, by simp only [List.length_cons] at hn; omega⟩
    rfl

theorem text_of_empty_dict : TextOf (.dict []) ['{', '}'] where
  starts := ⟨'{', _, rfl, by decide⟩
  scan n rest hn hrest := by
    obtain ⟨m, rfl⟩ : ∃ m, n = m + 1 := ⟨n - 1, by simp only [List.length_cons] at hn; omega⟩
    rfl

theorem text_of_list {items : List PyJson} {text : List Char} (h : TextOfItems items text) :
    TextOf (.list items) ('[' :: (text ++ [']'])) where
  starts := ⟨'[', _, rfl, by decide⟩
  scan n rest hn hrest := by
    simp only [List.length_cons, List.length_append, List.length_nil] at hn
    obtain ⟨m, rfl⟩ : ∃ m, n = m + 1 := ⟨n - 1, by omega⟩
    have hscan := h.scan m rest (by omega)
    have hskip := h.starts.skip (']' :: rest)
    obtain ⟨c, cs, rfl, -, hc, -⟩ := h.starts
    rw [List.cons_append, List.append_assoc, List.singleton_append, scan_once, hskip]
    simp only [List.cons_append] at hscan ⊢
    split
    · rename_i behind heq
      exact absurd (List.cons.inj heq).1 hc
    · rw [hscan]
      rfl

theorem text_of_dict {fields : List (PyStr × PyJson)} {text : List Char}
    (h : TextOfFields fields text) : TextOf (.dict fields) ('{' :: (text ++ ['}'])) where
  starts := ⟨'{', _, rfl, by decide⟩
  scan n rest hn hrest := by
    simp only [List.length_cons, List.length_append, List.length_nil] at hn
    obtain ⟨m, rfl⟩ : ∃ m, n = m + 1 := ⟨n - 1, by omega⟩
    have hscan := h.scan m rest (by omega)
    have hskip := h.starts.skip ('}' :: rest)
    obtain ⟨c, cs, rfl, -, -, hc, -⟩ := h.starts
    rw [List.cons_append, List.append_assoc, List.singleton_append, scan_once, hskip]
    simp only [List.cons_append] at hscan ⊢
    split
    · rename_i behind heq
      exact absurd (List.cons.inj heq).1 hc
    · rw [hscan]
      rfl

theorem text_of_item {v : PyJson} {text : List Char} (h : TextOf v text) :
    TextOfItems [v] text where
  starts := h.starts
  scan n rest hn := by
    obtain ⟨m, rfl⟩ : ∃ m, n = m + 1 := ⟨n - 1, by omega⟩
    rw [scan_items, h.scan m _ (by omega) (ends_number_of (by decide) rest)]
    rfl

theorem text_of_items {v : PyJson} {text more : List Char} {vs : List PyJson} (h : TextOf v text)
    (hmore : TextOfItems vs more) : TextOfItems (v :: vs) (text ++ ',' :: ' ' :: more) where
  starts := by
    obtain ⟨c, cs, rfl, hc⟩ := h.starts
    exact ⟨c, _, rfl, hc⟩
  scan n rest hn := by
    simp only [List.length_cons, List.length_append] at hn
    obtain ⟨m, rfl⟩ : ∃ m, n = m + 1 := ⟨n - 1, by omega⟩
    rw [List.append_assoc, List.cons_append, List.cons_append, scan_items,
      h.scan m _ (by omega) (ends_number_of (by decide) _)]
    simp only [bind, Except.bind]
    have hspace : skip (' ' :: (more ++ ']' :: rest)) = more ++ ']' :: rest :=
      hmore.starts.skip _
    rw [skip_cons (by decide)]
    simp only [hspace, hmore.scan m rest (by omega)]
    rfl

theorem text_of_field (key : PyStr) {v : PyJson} {text : List Char} (h : TextOf v text) :
    TextOfFields [(rejoined key, v)] (dumps_py_str key ++ ':' :: ' ' :: text) where
  starts := starts_py_str key _
  scan n rest hn := by
    simp only [List.length_cons, List.length_append] at hn
    obtain ⟨m, rfl⟩ : ∃ m, n = m + 1 := ⟨n - 1, by omega⟩
    have hspace : skip (' ' :: (text ++ '}' :: rest)) = text ++ '}' :: rest := h.starts.skip _
    rw [List.append_assoc, dumps_py_str_append, scan_fields, scan_dumps_py_str]
    simp only [bind, Except.bind, List.cons_append]
    rw [skip_cons (by decide)]
    have hread := h.scan m ('}' :: rest) (by omega) (ends_number_of (by decide) rest)
    simp only [hspace, hread]
    rw [skip_cons (by decide)]
    rfl

theorem text_of_fields (key : PyStr) {v : PyJson} {text more : List Char}
    {fields : List (PyStr × PyJson)} (h : TextOf v text) (hmore : TextOfFields fields more) :
    TextOfFields ((rejoined key, v) :: fields)
      (dumps_py_str key ++ ':' :: ' ' :: (text ++ ',' :: ' ' :: more)) where
  starts := starts_py_str key _
  scan n rest hn := by
    simp only [List.length_cons, List.length_append] at hn
    obtain ⟨m, rfl⟩ : ∃ m, n = m + 1 := ⟨n - 1, by omega⟩
    have hspace : skip (' ' :: (text ++ ',' :: ' ' :: (more ++ '}' :: rest))) =
        text ++ ',' :: ' ' :: (more ++ '}' :: rest) := h.starts.skip _
    have hbehind : skip (' ' :: (more ++ '}' :: rest)) = more ++ '}' :: rest := hmore.starts.skip _
    rw [List.append_assoc, dumps_py_str_append, scan_fields, scan_dumps_py_str]
    simp only [bind, Except.bind, List.cons_append, List.append_assoc]
    rw [skip_cons (by decide)]
    have hread := h.scan m (',' :: ' ' :: (more ++ '}' :: rest)) (by omega)
      (ends_number_of (by decide) _)
    simp only [hspace, hread]
    rw [skip_cons (by decide)]
    simp only [hbehind, hmore.scan m rest (by omega)]
    rfl

mutual

/-- The text of a value is read as the value, with its surrogates rejoined. -/
theorem dumps_writable (v : PyJson) (h : Writable v) :
    ∃ text, dumps v = .ok text ∧ TextOf (join v) text := by
  cases v with
  | null =>
    exact ⟨_, rfl, text_of_word rfl (by decide) fun _ _ => rfl⟩
  | bool b =>
    cases b with
    | true => exact ⟨_, rfl, text_of_word rfl (by decide) fun _ _ => rfl⟩
    | false => exact ⟨_, rfl, text_of_word rfl (by decide) fun _ _ => rfl⟩
  | int n =>
    have hint : int_repr n = .ok (dumps_int n) := if_neg (Nat.not_lt.mpr h)
    exact ⟨_, hint, text_of_int h⟩
  | float x => exact ⟨_, rfl, text_of_float h⟩
  | str s => exact ⟨_, rfl, text_of_str s⟩
  | list items =>
    cases items with
    | nil => exact ⟨_, rfl, text_of_empty_list⟩
    | cons v vs =>
      obtain ⟨text, htext, hitems⟩ := dumps_writable_items (v :: vs) h (List.cons_ne_nil v vs)
      refine ⟨_, ?_, text_of_list hitems⟩
      rw [dumps, htext]
      rfl
  | dict fields =>
    cases fields with
    | nil => exact ⟨_, rfl, text_of_empty_dict⟩
    | cons f fields =>
      obtain ⟨text, htext, hfields⟩ :=
        dumps_writable_fields (f :: fields) h (List.cons_ne_nil f fields)
      refine ⟨_, ?_, text_of_dict hfields⟩
      rw [dumps, htext]
      rfl

theorem dumps_writable_items (items : List PyJson) (h : WritableItems items) (hne : items ≠ []) :
    ∃ text, dumps_items items = .ok text ∧ TextOfItems (join_items items) text := by
  cases items with
  | nil => exact absurd rfl hne
  | cons v vs =>
    obtain ⟨text, htext, hv⟩ := dumps_writable v h.1
    cases vs with
    | nil => exact ⟨text, htext, text_of_item hv⟩
    | cons w ws =>
      obtain ⟨more, hmore, hws⟩ := dumps_writable_items (w :: ws) h.2 (List.cons_ne_nil w ws)
      refine ⟨_, ?_, text_of_items hv hws⟩
      rw [dumps_items, htext, hmore]
      · rfl
      · exact List.cons_ne_nil w ws

theorem dumps_writable_fields (fields : List (PyStr × PyJson)) (h : WritableFields fields)
    (hne : fields ≠ []) : ∃ text, dumps_entries fields = .ok text ∧ TextOfFields (join_fields fields) text := by
  cases fields with
  | nil => exact absurd rfl hne
  | cons f fields =>
    obtain ⟨key, v⟩ := f
    obtain ⟨hv, hfields⟩ := h
    obtain ⟨text, htext, hv⟩ := dumps_writable v hv
    cases fields with
    | nil =>
      refine ⟨_, ?_, text_of_field key hv⟩
      rw [dumps_entries, htext]
      rfl
    | cons g fields =>
      obtain ⟨more, hmore, hg⟩ := dumps_writable_fields (g :: fields) hfields (List.cons_ne_nil g fields)
      refine ⟨_, ?_, text_of_fields key hv hg⟩
      rw [dumps_entries, htext, hmore]
      · rfl
      · exact List.cons_ne_nil g fields

end

/-- A value is written and read back, with its surrogates rejoined. -/
theorem loads_dumps {v : PyJson} (h : Writable v) :
    ∃ text, dumps v = .ok text ∧ loads text = .ok (join v) := by
  obtain ⟨text, htext, hv⟩ := dumps_writable v h
  refine ⟨text, htext, ?_⟩
  have hskip := hv.starts.skip []
  have hscan := hv.scan (2 * text.length + 1) [] (by omega) (by intro c hc; cases hc)
  rw [List.append_nil] at hskip hscan
  obtain ⟨c, cs, rfl, -, -, -, hc⟩ := hv.starts
  unfold loads
  rw [if_neg (by simpa using hc), hskip, hscan]
  rfl

/-! ## What is read -/

theorem hex_value_lt {c : Char} {n : Nat} (h : hex_value c = some n) : n < 16 := by
  have hle : ∀ {a b : Char}, a ≤ b → a.toNat ≤ b.toNat := fun h => h
  unfold hex_value at h
  split at h
  · rename_i hc
    have hhigh : c.toNat ≤ 57 := hle hc.2
    cases h
    omega
  split at h
  · rename_i hc
    have hhigh : c.toNat ≤ 70 := hle hc.2
    cases h
    omega
  split at h
  · rename_i hc
    have hhigh : c.toNat ≤ 102 := hle hc.2
    cases h
    omega
  · cases h

theorem unit_of_lt {a b c d : Char} {n : Nat} (h : unit_of a b c d = some n) : n < 0x10000 := by
  unfold unit_of at h
  split at h
  · rename_i w x y z hw hx hy hz
    have hw := hex_value_lt hw
    have hx := hex_value_lt hx
    have hy := hex_value_lt hy
    have hz := hex_value_lt hz
    cases h
    omega
  · cases h

theorem of_push {n : Nat} {read : Except PyErr (List Nat × List Char)} {s : List Nat}
    {rest : List Char} (h : push n read = .ok (s, rest)) :
    ∃ s', s = n :: s' ∧ read = .ok (s', rest) := by
  cases read with
  | error e => cases h
  | ok value =>
    obtain ⟨rfl, rfl⟩ := Prod.mk.inj (Except.ok.inj h)
    exact ⟨value.1, rfl, rfl⟩

theorem scan_string_lt {text rest : List Char} {s : List Nat}
    (h : scan_string text = .ok (s, rest)) : ∀ n ∈ s, n < 0x110000 := by
  have hpush : ∀ {n : Nat} {read : Except PyErr (List Nat × List Char)} {s : List Nat}
      {rest : List Char}, n < 0x110000 → push n read = .ok (s, rest) →
      (∀ {s rest}, read = .ok (s, rest) → ∀ n ∈ s, n < 0x110000) → ∀ n ∈ s, n < 0x110000 := by
    intro n read s rest hn h ih m hm
    obtain ⟨s', rfl, hread⟩ := of_push h
    rcases List.mem_cons.mp hm with rfl | hm
    · exact hn
    · exact ih hread m hm
  fun_induction scan_string text generalizing s rest with
  | case1 => cases h
  | case2 text =>
    cases h
    intro n hn
    cases hn
  | case3 => cases h
  | case4 a b c d text n hn ih => exact hpush (Nat.lt_trans (unit_of_lt hn) (by decide)) h ih
  | case5 a b c d text hn => cases h
  | case6 e text hne c hc ih => exact hpush (code_point_lt c) h ih
  | case7 e text hne hc => cases h
  | case8 c text h1 h2 h3 h4 hlow => cases h
  | case9 c text h1 h2 h3 h4 hlow ih => exact hpush (code_point_lt c) h ih

/-- The first unit stays the first, or is rejoined with the next one. -/
theorem head_join {n m : Nat} {s : List Nat} (h : m ∈ (join_surrogates (n :: s)).head?) :
    m = n ∨ 0x10000 ≤ m := by
  cases s with
  | nil =>
    cases h
    exact Or.inl rfl
  | cons lo s =>
    rw [join_surrogates] at h
    split at h
    · rw [List.head?_cons, Option.mem_some_iff] at h
      omega
    · rw [List.head?_cons, Option.mem_some_iff] at h
      exact Or.inl h.symm

theorem join_chain (s : List Nat) : (join_surrogates s).IsChain fun a b => ¬ Pair a b := by
  fun_induction join_surrogates s with
  | case1 hi lo s hpair ih =>
    refine List.isChain_cons.mpr ⟨fun m _ h => ?_, ih⟩
    unfold Pair at h
    omega
  | case2 hi lo s hpair ih =>
    refine List.isChain_cons.mpr ⟨fun m hm h => ?_, ih⟩
    rcases head_join hm with rfl | hlarge
    · exact hpair h
    · unfold Pair at h
      omega
  | case3 short hshort =>
    cases short with
    | nil => exact .nil
    | cons n s =>
      cases s with
      | nil => exact .singleton n
      | cons m s => exact absurd rfl (hshort n m s)

theorem joined_lt {hi lo : Nat}
    (h : 0xd800 ≤ hi ∧ hi ≤ 0xdbff ∧ 0xdc00 ≤ lo ∧ lo ≤ 0xdfff) :
    0x10000 + (hi - 0xd800) * 0x400 + (lo - 0xdc00) < 0x110000 := by
  omega

theorem join_lt {s : List Nat} (h : ∀ n ∈ s, n < 0x110000) :
    ∀ n ∈ join_surrogates s, n < 0x110000 := by
  fun_induction join_surrogates s with
  | case1 hi lo s hpair ih =>
    intro n hn
    rcases List.mem_cons.mp hn with heq | hn
    · rw [heq]
      exact joined_lt hpair
    · exact ih (fun m hm => h m (List.mem_cons_of_mem hi (List.mem_cons_of_mem lo hm))) n hn
  | case2 hi lo s hpair ih =>
    intro n hn
    rcases List.mem_cons.mp hn with rfl | hn
    · exact h _ List.mem_cons_self
    · exact ih (fun m hm => h m (List.mem_cons_of_mem hi hm)) n hn
  | case3 short hshort => exact h

/-- A string that was read is rejoined. -/
theorem joined_string_value {s : List Nat} (h : ∀ n ∈ s, n < 0x110000) :
    Joined (string_value s) := by
  have hlt := join_lt h
  have hchain := join_chain s
  unfold Joined string_value
  generalize join_surrogates s = l at hlt hchain
  rw [List.isChain_map]
  refine hchain.imp_of_mem_imp fun a b ha hb hpair h => hpair ?_
  have hval : ∀ n, n < 0x110000 → (Fin.ofNat 0x110000 n).1 = n := fun n hn => Nat.mod_eq_of_lt hn
  rw [hval a (hlt a ha), hval b (hlt b hb)] at h
  exact h

theorem digits_isDigit {text : List Char} {c : Char} (h : c ∈ (digits text).1) :
    c.isDigit = true := by
  unfold digits at h
  rw [List.span_eq_takeWhile_dropWhile] at h
  exact List.mem_takeWhile_imp h

theorem scan_whole_digits {text whole rest : List Char} (h : scan_whole text = some (whole, rest)) :
    whole ≠ [] ∧ ∀ c ∈ whole, c.isDigit = true := by
  fun_cases scan_whole text with
  | case1 text =>
    cases h
    refine ⟨List.cons_ne_nil _ _, fun c hc => ?_⟩
    rw [List.mem_singleton.mp hc]
    rfl
  | case2 text hzero hnone =>
    rw [scan_whole.eq_2 text hzero, if_pos hnone] at h
    cases h
  | case3 text hzero hsome =>
    rw [scan_whole.eq_2 text hzero, if_neg hsome] at h
    rw [Option.some.inj h] at hsome
    refine ⟨hsome, fun c hc => ?_⟩
    have hmem : c ∈ (digits text).1 := by
      rw [Option.some.inj h]
      exact hc
    exact digits_isDigit hmem

theorem ofDigitChars_lt {ds : List Char} (h : ∀ c ∈ ds, c.isDigit = true) (n : Nat) :
    Nat.ofDigitChars 10 ds n < (n + 1) * 10 ^ ds.length := by
  induction ds generalizing n with
  | nil => simp [Nat.ofDigitChars_nil]
  | cons c ds ih =>
    have hc : c.toNat ≤ 57 := (Char.isDigit_iff_toNat.mp (h c List.mem_cons_self)).2
    have hzero : '0'.toNat = 48 := rfl
    rw [Nat.ofDigitChars_cons]
    calc Nat.ofDigitChars 10 ds (10 * n + (c.toNat - '0'.toNat))
        < (10 * n + (c.toNat - '0'.toNat) + 1) * 10 ^ ds.length :=
          ih (fun d hd => h d (List.mem_cons_of_mem c hd)) _
      _ ≤ (10 * (n + 1)) * 10 ^ ds.length := Nat.mul_le_mul_right _ (by omega)
      _ = (n + 1) * 10 ^ (c :: ds).length := by
          rw [List.length_cons, pow_succ]
          ring

theorem natAbs_signed (negative : Bool) (n : Nat) : (signed negative n).natAbs = n := by
  unfold signed
  split
  · exact Int.natAbs_neg n
  · rfl

mutual

/-- What `json.loads` gives: no integer has more digits than `int` reads, the finite floats are
doubles, and the surrogates are rejoined. -/
def Loaded : PyJson → Prop
  | .int n => (Nat.toDigits 10 n.natAbs).length ≤ max_str_digits
  | .float x => IsDouble x
  | .str s => Joined s
  | .list items => LoadedItems items
  | .dict fields => LoadedFields fields
  | _ => True

def LoadedItems : List PyJson → Prop
  | [] => True
  | v :: vs => Loaded v ∧ LoadedItems vs

def LoadedFields : List (PyStr × PyJson) → Prop
  | [] => True
  | (key, v) :: fields => Joined key ∧ Loaded v ∧ LoadedFields fields

end

mutual

/-- What was loaded can be written, and has nothing to join. -/
theorem writable_of_loaded (v : PyJson) (h : Loaded v) : Writable v ∧ join v = v := by
  cases v with
  | int n => exact ⟨h, rfl⟩
  | float x => exact ⟨h, rfl⟩
  | str s => exact ⟨trivial, congrArg PyJson.str (joined_of_joined h)⟩
  | list items =>
    obtain ⟨hitems, hjoin⟩ := writable_of_loaded_items items h
    exact ⟨hitems, congrArg PyJson.list hjoin⟩
  | dict fields =>
    obtain ⟨hfields, hjoin⟩ := writable_of_loaded_fields fields h
    exact ⟨hfields, congrArg PyJson.dict hjoin⟩
  | null => exact ⟨trivial, rfl⟩
  | bool b => exact ⟨trivial, rfl⟩

theorem writable_of_loaded_items (items : List PyJson) (h : LoadedItems items) :
    WritableItems items ∧ join_items items = items := by
  cases items with
  | nil => exact ⟨trivial, rfl⟩
  | cons v vs =>
    obtain ⟨hv, hjoin⟩ := writable_of_loaded v h.1
    obtain ⟨hvs, hjoins⟩ := writable_of_loaded_items vs h.2
    exact ⟨⟨hv, hvs⟩, congrArg₂ List.cons hjoin hjoins⟩

theorem writable_of_loaded_fields (fields : List (PyStr × PyJson)) (h : LoadedFields fields) :
    WritableFields fields ∧ join_fields fields = fields := by
  cases fields with
  | nil => exact ⟨trivial, rfl⟩
  | cons f fields =>
    obtain ⟨key, v⟩ := f
    obtain ⟨hv, hjoin⟩ := writable_of_loaded v h.2.1
    obtain ⟨hfields, hjoins⟩ := writable_of_loaded_fields fields h.2.2
    refine ⟨⟨hv, hfields⟩, ?_⟩
    rw [join_fields, joined_of_joined h.1, hjoin, hjoins]

end

/-- The value of a number that was read. -/
theorem loaded_value {text rest : List Char} {n : NumberText} {v : PyJson}
    (h : scan_number text = some (n, rest)) (hv : n.value = .ok v) : Loaded v := by
  obtain ⟨whole, behind, hwhole, rfl, -⟩ := scan_number_eq_some.mp h
  obtain ⟨hne, hdigits⟩ := scan_whole_digits hwhole
  unfold NumberText.value at hv
  dsimp only at hv
  split at hv
  · split at hv
    · cases hv
    · rename_i hlength
      cases hv
      have hpos := List.length_pos_iff.mpr hne
      have hlt := ofDigitChars_lt hdigits 0
      unfold Loaded
      rw [natAbs_signed]
      calc (Nat.toDigits 10 (Nat.ofDigitChars 10 whole 0)).length ≤ whole.length :=
            (Nat.length_toDigits_le_iff (by norm_num) hpos).mpr (by simpa using hlt)
        _ ≤ max_str_digits := Nat.not_lt.mp hlength
  · cases hv
    exact is_double_of_decimal _

theorem loaded_literal {text rest : List Char} {v : PyJson}
    (h : scan_literal text = .ok (v, rest)) : Loaded v := by
  unfold scan_literal at h
  split at h
  all_goals try exact (Prod.mk.inj (Except.ok.inj h)).1 ▸ trivial
  split at h
  · rename_i n behind hread
    cases hvalue : n.value with
    | error e =>
      rw [hvalue] at h
      cases h
    | ok value =>
      rw [hvalue] at h
      obtain ⟨rfl, -⟩ := Prod.mk.inj (Except.ok.inj h)
      exact loaded_value hread hvalue
  · cases h

theorem of_bind_ok {α β : Type} {x : Except PyErr α} {f : α → Except PyErr β} {b : β}
    (h : x >>= f = .ok b) : ∃ a, x = .ok a ∧ f a = .ok b := by
  cases x with
  | error e => cases h
  | ok a => exact ⟨a, rfl, h⟩

/-- What is read of a text by `scan_once`, `scan_fields` and `scan_items`. -/
theorem scan_loaded (n : Nat) :
    (∀ {text rest v}, scan_once n text = .ok (v, rest) → Loaded v) ∧
      (∀ {text rest fields}, scan_fields n text = .ok (fields, rest) → LoadedFields fields) ∧
      ∀ {text rest items}, scan_items n text = .ok (items, rest) → LoadedItems items := by
  induction n with
  | zero => exact ⟨fun h => (nomatch h), fun h => (nomatch h), fun h => nomatch h⟩
  | succ n ih =>
    obtain ⟨hvalue, hfields, hitems⟩ := ih
    refine ⟨?_, ?_, ?_⟩
    · intro text rest v h
      rw [scan_once.eq_def] at h
      dsimp only at h
      split at h
      · rename_i text
        cases hs : scan_string text with
        | error e =>
          rw [hs] at h
          cases h
        | ok read =>
          rw [hs] at h
          cases h
          exact joined_string_value (scan_string_lt hs)
      · rename_i text
        split at h
        · cases h
          trivial
        · cases hread : scan_fields n (skip text) with
          | error e =>
            rw [hread] at h
            cases h
          | ok read =>
            rw [hread] at h
            cases h
            exact hfields hread
      · rename_i text
        split at h
        · cases h
          trivial
        · cases hread : scan_items n (skip text) with
          | error e =>
            rw [hread] at h
            cases h
          | ok read =>
            rw [hread] at h
            cases h
            exact hitems hread
      · exact loaded_literal h
    · intro text rest fields h
      rw [scan_fields.eq_def] at h
      dsimp only at h
      split at h
      · rename_i text
        obtain ⟨⟨key, behind⟩, hkey, h⟩ := of_bind_ok h
        have hkey := joined_string_value (scan_string_lt hkey)
        dsimp only at h
        split at h
        · rename_i body hbody
          obtain ⟨⟨value, behind⟩, hread, h⟩ := of_bind_ok h
          have hvalue := hvalue hread
          dsimp only at h
          split at h
          · cases h
            exact ⟨hkey, hvalue, trivial⟩
          · rename_i more hmore
            obtain ⟨⟨fields', behind⟩, hread, h⟩ := of_bind_ok h
            cases h
            exact ⟨hkey, hvalue, hfields hread⟩
          · cases h
        · cases h
      · cases h
    · intro text rest items h
      rw [scan_items.eq_def] at h
      dsimp only at h
      obtain ⟨⟨value, behind⟩, hread, h⟩ := of_bind_ok h
      have hvalue := hvalue hread
      dsimp only at h
      split at h
      · cases h
        exact ⟨hvalue, trivial⟩
      · rename_i more hmore
        obtain ⟨⟨items', behind⟩, hread, h⟩ := of_bind_ok h
        cases h
        exact ⟨hvalue, hitems hread⟩
      · cases h

theorem loaded_of_loads {text : List Char} {v : PyJson} (h : loads text = .ok v) : Loaded v := by
  unfold loads at h
  split at h
  · cases h
  · obtain ⟨⟨value, rest⟩, hread, h⟩ := of_bind_ok h
    dsimp only at h
    split at h
    · cases h
      exact (scan_loaded _).1 hread
    · cases h

/-! ## Dicts -/

/-- `d[key] = v`: a key keeps its place. -/
def set_field (key : PyStr) (v : PyJson) : List (PyStr × PyJson) → List (PyStr × PyJson)
  | [] => [(key, v)]
  | (k, w) :: fields => if k = key then (k, v) :: fields else (k, w) :: set_field key v fields

mutual

/-- The value with its dicts built: of the fields with one key, the last one counts. -/
def build : PyJson → PyJson
  | .list items => .list (build_items items)
  | .dict fields => .dict (build_fields [] fields)
  | v => v

def build_items : List PyJson → List PyJson
  | [] => []
  | v :: vs => build v :: build_items vs

/-- The fields are set in a dict, one after the other. -/
def build_fields (built : List (PyStr × PyJson)) :
    List (PyStr × PyJson) → List (PyStr × PyJson)
  | [] => built
  | (key, v) :: fields => build_fields (set_field key (build v) built) fields

end

/-- `json.loads`, with the dicts of Python. -/
def json_loads (text : List Char) : Except PyErr PyJson := (loads text).map build

mutual

/-- No dict has a key twice. -/
def Distinct : PyJson → Prop
  | .list items => DistinctItems items
  | .dict fields => (fields.map (·.1)).Nodup ∧ DistinctFields fields
  | _ => True

def DistinctItems : List PyJson → Prop
  | [] => True
  | v :: vs => Distinct v ∧ DistinctItems vs

def DistinctFields : List (PyStr × PyJson) → Prop
  | [] => True
  | (_, v) :: fields => Distinct v ∧ DistinctFields fields

end

theorem keys_set_field (key : PyStr) (v : PyJson) (fields : List (PyStr × PyJson)) :
    (set_field key v fields).map (·.1) =
      if key ∈ fields.map (·.1) then fields.map (·.1) else fields.map (·.1) ++ [key] := by
  induction fields with
  | nil => rfl
  | cons f fields ih =>
    obtain ⟨k, w⟩ := f
    by_cases hk : k = key
    · simp [set_field, hk]
    · have hne : key ≠ k := fun h => hk h.symm
      simp only [set_field, if_neg hk, List.map_cons, ih, List.mem_cons, hne, false_or]
      split <;> rfl

theorem nodup_set_field {key : PyStr} {v : PyJson} {fields : List (PyStr × PyJson)}
    (h : (fields.map (·.1)).Nodup) : ((set_field key v fields).map (·.1)).Nodup := by
  rw [keys_set_field]
  split
  · exact h
  · rename_i hkey
    exact h.append (List.nodup_singleton key) (by simpa using hkey)

/-- A new key is put at the end. -/
theorem set_field_new {key : PyStr} {v : PyJson} {fields : List (PyStr × PyJson)}
    (h : key ∉ fields.map (·.1)) : set_field key v fields = fields ++ [(key, v)] := by
  induction fields with
  | nil => rfl
  | cons f fields ih =>
    obtain ⟨k, w⟩ := f
    simp only [List.map_cons, List.mem_cons, not_or] at h
    rw [set_field, if_neg fun hk => h.1 hk.symm, ih h.2]
    rfl

theorem distinct_set_field {key : PyStr} {v : PyJson} {fields : List (PyStr × PyJson)}
    (hv : Distinct v) (h : DistinctFields fields) : DistinctFields (set_field key v fields) := by
  induction fields with
  | nil => exact ⟨hv, trivial⟩
  | cons f fields ih =>
    obtain ⟨k, w⟩ := f
    rw [set_field]
    split
    · exact ⟨hv, h.2⟩
    · exact ⟨h.1, ih h.2⟩

theorem loaded_set_field {key : PyStr} {v : PyJson} {fields : List (PyStr × PyJson)}
    (hkey : Joined key) (hv : Loaded v) (h : LoadedFields fields) :
    LoadedFields (set_field key v fields) := by
  induction fields with
  | nil => exact ⟨hkey, hv, trivial⟩
  | cons f fields ih =>
    obtain ⟨k, w⟩ := f
    rw [set_field]
    split
    · exact ⟨h.1, hv, h.2.2⟩
    · exact ⟨h.1, h.2.1, ih h.2.2⟩

mutual

theorem distinct_build (v : PyJson) : Distinct (build v) := by
  cases v with
  | list items => exact distinct_build_items items
  | dict fields => exact distinct_build_fields fields [] List.nodup_nil trivial
  | _ => trivial

theorem distinct_build_items (items : List PyJson) : DistinctItems (build_items items) := by
  cases items with
  | nil => trivial
  | cons v vs => exact ⟨distinct_build v, distinct_build_items vs⟩

theorem distinct_build_fields (fields built : List (PyStr × PyJson))
    (hkeys : (built.map (·.1)).Nodup) (h : DistinctFields built) :
    ((build_fields built fields).map (·.1)).Nodup ∧ DistinctFields (build_fields built fields) := by
  cases fields with
  | nil => exact ⟨hkeys, h⟩
  | cons f fields =>
    exact distinct_build_fields fields _ (nodup_set_field hkeys)
      (distinct_set_field (distinct_build f.2) h)

end

mutual

theorem loaded_build (v : PyJson) (h : Loaded v) : Loaded (build v) := by
  cases v with
  | list items => exact loaded_build_items items h
  | dict fields => exact loaded_build_fields fields [] h trivial
  | _ => exact h

theorem loaded_build_items (items : List PyJson) (h : LoadedItems items) :
    LoadedItems (build_items items) := by
  cases items with
  | nil => trivial
  | cons v vs => exact ⟨loaded_build v h.1, loaded_build_items vs h.2⟩

theorem loaded_build_fields (fields built : List (PyStr × PyJson)) (h : LoadedFields fields)
    (hbuilt : LoadedFields built) : LoadedFields (build_fields built fields) := by
  cases fields with
  | nil => exact hbuilt
  | cons f fields =>
    exact loaded_build_fields fields _ h.2.2 (loaded_set_field h.1 (loaded_build f.2 h.2.1) hbuilt)

end

/-- Fields with keys of their own are put behind the ones that are there. -/
theorem build_fields_of_new {fields built : List (PyStr × PyJson)}
    (hkeys : (fields.map (·.1)).Nodup) (hnew : ∀ key ∈ fields.map (·.1), key ∉ built.map (·.1)) :
    build_fields built fields = built ++ fields.map fun f => (f.1, build f.2) := by
  induction fields generalizing built with
  | nil => rw [build_fields, List.map_nil, List.append_nil]
  | cons f fields ih =>
    obtain ⟨key, v⟩ := f
    rw [List.map_cons, List.nodup_cons] at hkeys
    rw [build_fields, set_field_new (hnew key List.mem_cons_self), ih hkeys.2, List.append_assoc]
    · rfl
    · intro k hk hmem
      rw [List.map_append, List.map_cons, List.map_nil, List.mem_append, List.mem_singleton] at hmem
      rcases hmem with hmem | rfl
      · exact hnew k (List.mem_cons_of_mem key hk) hmem
      · exact hkeys.1 hk

theorem build_dict {fields : List (PyStr × PyJson)} (hkeys : (fields.map (·.1)).Nodup) :
    build (.dict fields) = .dict (fields.map fun f => (f.1, build f.2)) := by
  rw [build, build_fields_of_new hkeys (by simp), List.nil_append]

mutual

/-- A value whose dicts are built stays as it is. -/
theorem build_of_distinct (v : PyJson) (h : Distinct v) : build v = v := by
  cases v with
  | list items => rw [build, build_items_of_distinct items h]
  | dict fields => rw [build_dict h.1, build_fields_of_distinct fields h.2]
  | _ => rfl

theorem build_items_of_distinct (items : List PyJson) (h : DistinctItems items) :
    build_items items = items := by
  cases items with
  | nil => rfl
  | cons v vs => rw [build_items, build_of_distinct v h.1, build_items_of_distinct vs h.2]

theorem build_fields_of_distinct (fields : List (PyStr × PyJson)) (h : DistinctFields fields) :
    (fields.map fun f => (f.1, build f.2)) = fields := by
  cases fields with
  | nil => rfl
  | cons f fields =>
    rw [List.map_cons, build_of_distinct f.2 h.1, build_fields_of_distinct fields h.2]

end

/-- What `json.loads` reads of a text. -/
theorem of_json_loads {text : List Char} {v : PyJson} (h : json_loads text = .ok v) :
    Loaded v ∧ Distinct v := by
  unfold json_loads at h
  cases hread : loads text with
  | error e =>
    rw [hread] at h
    cases h
  | ok read =>
    rw [hread] at h
    cases h
    exact ⟨loaded_build read (loaded_of_loads hread), distinct_build read⟩

/-- A value is written and read back, with its surrogates rejoined and its dicts built. -/
theorem json_loads_dumps {v : PyJson} (h : Writable v) :
    ∃ text, dumps v = .ok text ∧ json_loads text = .ok (build (join v)) := by
  obtain ⟨text, htext, hread⟩ := loads_dumps h
  refine ⟨text, htext, ?_⟩
  rw [json_loads, hread]
  rfl

/-- What `json.loads` gives comes back as it was. -/
theorem json_loads_dumps_loaded {v : PyJson} (h : Loaded v) (hdistinct : Distinct v) :
    ∃ text, dumps v = .ok text ∧ json_loads text = .ok v := by
  obtain ⟨hwritable, hjoin⟩ := writable_of_loaded v h
  have hread := json_loads_dumps hwritable
  rwa [hjoin, build_of_distinct v hdistinct] at hread

/-- What `json.loads` reads of any text, `json.dumps` writes, and `json.loads` reads it back. -/
theorem dumps_of_json_loads {text : List Char} {v : PyJson} (h : json_loads text = .ok v) :
    ∃ text', dumps v = .ok text' ∧ json_loads text' = .ok v :=
  json_loads_dumps_loaded (of_json_loads h).1 (of_json_loads h).2

/-! ## What is written is ASCII -/

/-- Only the characters from the blank to the tilde. -/
def Printable (text : List Char) : Prop := ∀ c ∈ text, ' ' ≤ c ∧ c ≤ '~'

@[simp] theorem printable_nil : Printable [] := fun _ h => nomatch h

@[simp] theorem printable_cons {c : Char} {text : List Char} :
    Printable (c :: text) ↔ (' ' ≤ c ∧ c ≤ '~') ∧ Printable text := List.forall_mem_cons

@[simp] theorem printable_append {text more : List Char} :
    Printable (text ++ more) ↔ Printable text ∧ Printable more := List.forall_mem_append

theorem Printable.sublist {text more : List Char} (h : Printable text) (hsub : List.Sublist more text) :
    Printable more := fun c hc => h c (hsub.subset hc)

theorem printable_of_digits {ds : List Char} (h : ∀ c ∈ ds, c.isDigit = true) : Printable ds := by
  intro c hc
  obtain ⟨hlow, hhigh⟩ : 48 ≤ c.toNat ∧ c.toNat ≤ 57 := Char.isDigit_iff_toNat.mp (h c hc)
  refine ⟨?_, ?_⟩
  · show 32 ≤ c.toNat
    omega
  · show c.toNat ≤ 126
    omega

theorem printable_toDigits (n : Nat) : Printable (Nat.toDigits 10 n) :=
  printable_of_digits fun _ => toDigits_isDigit

theorem printable_dumps_int (n : Int) : Printable (dumps_int n) := by
  unfold dumps_int
  split
  · simp [printable_toDigits]
  · exact printable_toDigits _

theorem printable_exponent (e : Int) : Printable (exponent_text e) := by
  unfold exponent_text
  dsimp only
  split <;> split <;> simp [printable_toDigits]

theorem printable_format_float (m : Nat) (k : Int) : Printable (format_float m k) := by
  have hds : Printable ((Nat.toDigits 10 m).reverse.dropWhile (· = '0')).reverse := by
    intro c hc
    rw [List.mem_reverse] at hc
    exact printable_toDigits m c (List.mem_reverse.mp ((List.dropWhile_suffix _).subset hc))
  have hzeros : ∀ n, Printable (List.replicate n '0') := by
    intro n c hc
    rw [List.eq_of_mem_replicate hc]
    decide
  unfold format_float
  dsimp only
  generalize ((Nat.toDigits 10 m).reverse.dropWhile (· = '0')).reverse = ds at hds
  split
  · split
    · simp [hds, hzeros]
    split
    · simp [hds, hzeros]
    · simp [hds.sublist (List.take_sublist _ _), hds.sublist (List.drop_sublist _ _)]
  · rw [printable_append, printable_cons]
    refine ⟨?_, by decide, printable_exponent _⟩
    split
    · simpa using hds
    · exact hds

theorem printable_dumps_float (x : PyFloat) : Printable (dumps_float x) := by
  cases x with
  | fin q =>
    unfold dumps_float shortest_text
    dsimp only
    split
    · simp [Printable]
    · cases hfind : List.find? (reads_back q) _ with
      | none => simp [exact_text, printable_dumps_int, printable_toDigits]
      | some text =>
        obtain ⟨d, -, rfl⟩ := List.mem_map.mp (List.mem_of_find?_eq_some hfind)
        simp only [Option.getD_some, printable_append]
        refine ⟨?_, printable_format_float _ _⟩
        unfold sign_text
        split <;> simp
  | inf negative => cases negative <;> simp [dumps_float, Printable]
  | nan => simp [dumps_float, Printable]

theorem printable_unit_escape {n : Nat} (h : n < 0x10000) : Printable (unit_escape n) := by
  have hdigit : ∀ i : Fin 16, ' ' ≤ Nat.digitChar i.1 ∧ Nat.digitChar i.1 ≤ '~' := by decide
  have h1 := hdigit ⟨n / 4096, by omega⟩
  have h2 := hdigit ⟨n / 256 % 16, by omega⟩
  have h3 := hdigit ⟨n / 16 % 16, by omega⟩
  have h4 := hdigit ⟨n % 16, by omega⟩
  simp [unit_escape, h1, h2, h3, h4]

theorem printable_escape_char (c : Char) : Printable (escape_char c) := by
  unfold escape_char
  split
  · simp
  split
  · simp
  split
  · simp
  split
  · simp
  split
  · simp
  split
  · simp
  split
  · simp
  split
  · rename_i hplain
    simp [hplain]
  · intro d hd
    obtain ⟨n, hn, hd⟩ := List.mem_flatMap.mp hd
    exact printable_unit_escape (units_lt hn) d hd

theorem printable_dumps_py_str (s : PyStr) : Printable (dumps_py_str s) := by
  have hpoint : ∀ p : CodePoint, Printable (escape_point p) := by
    intro p
    unfold escape_point
    cases hchar : char_of p with
    | some c => exact printable_escape_char c
    | none =>
      have hsurrogate := surrogate_of_no_char hchar
      exact printable_unit_escape (by omega)
  have hpoints : Printable (s.flatMap escape_point) := by
    intro c hc
    obtain ⟨p, -, hc⟩ := List.mem_flatMap.mp hc
    exact hpoint p c hc
  simp [dumps_py_str, hpoints]

mutual

/-- `json.dumps` writes printable ASCII only. -/
theorem printable_dumps (v : PyJson) {text : List Char} (h : dumps v = .ok text) :
    Printable text := by
  cases v with
  | null =>
    cases h
    simp [Printable]
  | bool b =>
    cases b
    all_goals
      cases h
      simp [Printable]
  | int n =>
    rw [dumps, int_repr] at h
    split at h
    · cases h
    · cases h
      exact printable_dumps_int n
  | float x =>
    cases h
    exact printable_dumps_float x
  | str s =>
    cases h
    exact printable_dumps_py_str s
  | list items =>
    rw [dumps] at h
    obtain ⟨inner, hinner, h⟩ := of_bind_ok h
    cases h
    simp [printable_dumps_items items hinner]
  | dict fields =>
    rw [dumps] at h
    obtain ⟨inner, hinner, h⟩ := of_bind_ok h
    cases h
    simp [printable_dumps_entries fields hinner]

theorem printable_dumps_items (items : List PyJson) {text : List Char}
    (h : dumps_items items = .ok text) : Printable text := by
  cases items with
  | nil =>
    cases h
    exact printable_nil
  | cons v vs =>
    cases vs with
    | nil => exact printable_dumps v h
    | cons w ws =>
      rw [dumps_items] at h
      · obtain ⟨first, hfirst, h⟩ := of_bind_ok h
        obtain ⟨more, hmore, h⟩ := of_bind_ok h
        cases h
        simp [printable_dumps v hfirst, printable_dumps_items (w :: ws) hmore]
      · exact List.cons_ne_nil w ws

theorem printable_dumps_entries (fields : List (PyStr × PyJson)) {text : List Char}
    (h : dumps_entries fields = .ok text) : Printable text := by
  cases fields with
  | nil =>
    cases h
    exact printable_nil
  | cons f fields =>
    obtain ⟨key, v⟩ := f
    cases fields with
    | nil =>
      rw [dumps_entries] at h
      obtain ⟨value, hvalue, h⟩ := of_bind_ok h
      cases h
      simp [printable_dumps_py_str, printable_dumps v hvalue]
    | cons g fields =>
      rw [dumps_entries] at h
      · obtain ⟨value, hvalue, h⟩ := of_bind_ok h
        obtain ⟨more, hmore, h⟩ := of_bind_ok h
        cases h
        simp [printable_dumps_py_str, printable_dumps v hvalue,
          printable_dumps_entries (g :: fields) hmore]
      · exact List.cons_ne_nil g fields

end

end trading_platform.shared
