-- Decimals as the services compute with them. A finite `Decimal` is its
-- rational value: sums, differences, products and quotients are exact, and
-- only `quantize` rounds. The texts that come from JSON are parsed here.
import Mathlib.Algebra.Order.Floor.Ring
import Mathlib.Data.Rat.Floor
import Mathlib.Tactic.Positivity
import Mathlib.Tactic.Linarith
import Mathlib.Tactic.Ring

namespace trading_platform.shared

/-- A Python exception: its class and `str(exc)`. -/
structure PyErr where
  kind : String
  msg : String
  deriving DecidableEq, Repr, Inhabited

namespace Decimal

/-! ## Rounding -/

/-- `ROUND_HALF_EVEN` to an integer. -/
def round_half_even (q : ℚ) : ℤ :=
  let r := q - ⌊q⌋
  if r < 1 / 2 then ⌊q⌋
  else if 1 / 2 < r then ⌊q⌋ + 1
  else if ⌊q⌋ % 2 = 0 then ⌊q⌋ else ⌊q⌋ + 1

def invalid_operation : PyErr := ⟨"InvalidOperation", "[<class 'decimal.InvalidOperation'>]"⟩

/-- `q.quantize(Decimal(10) ** -places)`. The result must fit the 28 digits of
the default context. -/
def quantize (places : Nat) (q : ℚ) : Except PyErr ℚ :=
  let n := round_half_even (q * 10 ^ places)
  if 10 ^ 28 ≤ |n| then .error invalid_operation else .ok (n / 10 ^ places)

theorem round_half_even_near (q : ℚ) : |(round_half_even q : ℚ) - q| ≤ 1 / 2 := by
  have h1 := Int.floor_le q
  have h2 := Int.lt_floor_add_one q
  unfold round_half_even
  dsimp only
  rw [abs_le]
  split_ifs
  all_goals
    push_cast
    constructor <;> linarith

/-- A quantized decimal is at most half a unit of its last place away. -/
theorem quantize_near {places : Nat} {q r : ℚ} (h : quantize places q = .ok r) :
    |r - q| ≤ 1 / 2 / 10 ^ places := by
  unfold quantize at h
  dsimp only at h
  split at h
  · cases h
  · simp only [Except.ok.injEq] at h
    have hp : (0 : ℚ) < 10 ^ places := by positivity
    have hn := round_half_even_near (q * 10 ^ places)
    have he : r - q = ((round_half_even (q * 10 ^ places) : ℚ) - q * 10 ^ places) / 10 ^ places := by
      rw [← h, sub_div, mul_div_cancel_right₀ _ (ne_of_gt hp)]
    rw [he, abs_div, abs_of_pos hp]
    exact div_le_div_of_nonneg_right hn hp.le

/-- Rounding to an integer gives a positive number above one half, and there only. -/
theorem round_half_even_pos_iff (q : ℚ) : 0 < round_half_even q ↔ 1 / 2 < q := by
  have hq : q = ⌊q⌋ + (q - ⌊q⌋) := by ring
  have hfloor (n : ℤ) (h : n ≤ ⌊q⌋) : (n : ℚ) ≤ ⌊q⌋ := by exact_mod_cast h
  have hceil (n : ℤ) (h : ⌊q⌋ ≤ n) : (⌊q⌋ : ℚ) ≤ n := by exact_mod_cast h
  unfold round_half_even
  dsimp only
  by_cases hlow : q - ⌊q⌋ < 1 / 2
  · rw [if_pos hlow]
    constructor
    · intro h
      have h1 := hfloor 1 (by omega)
      have h2 := Int.floor_le q
      push_cast at h1
      linarith
    · intro h
      by_contra hneg
      have h0 := hceil 0 (by omega)
      push_cast at h0
      linarith
  · rw [if_neg hlow]
    by_cases hhigh : 1 / 2 < q - ⌊q⌋
    · rw [if_pos hhigh]
      constructor
      · intro h
        have h0 := hfloor 0 (by omega)
        push_cast at h0
        linarith
      · intro h
        by_contra hneg
        have h1 := hceil (-1) (by omega)
        have h2 := Int.lt_floor_add_one q
        push_cast at h1
        linarith
    · rw [if_neg hhigh]
      -- the tie goes to the even neighbour
      have htie : q - ⌊q⌋ = 1 / 2 := le_antisymm (not_lt.mp hhigh) (not_lt.mp hlow)
      have hiff : 1 / 2 < q ↔ 0 < ⌊q⌋ := by
        rw [show q = ⌊q⌋ + 1 / 2 by linarith, ← Int.cast_pos (R := ℚ)]
        have hsame : (⌊(⌊q⌋ : ℚ) + 1 / 2⌋ : ℤ) = ⌊q⌋ := by
          rw [show (⌊q⌋ : ℚ) + 1 / 2 = q by linarith]
        rw [hsame]
        constructor <;> intro h <;> linarith
      rw [hiff]
      split <;> omega

/-- A quantized decimal is positive above half a unit of its last place. -/
theorem quantize_pos_iff {places : Nat} {q r : ℚ} (h : quantize places q = .ok r) :
    0 < r ↔ 1 / 2 < q * 10 ^ places := by
  unfold quantize at h
  dsimp only at h
  split at h
  · cases h
  · cases h
    have hp : (0 : ℚ) < 10 ^ places := by positivity
    rw [lt_div_iff₀ hp, zero_mul, Int.cast_pos, round_half_even_pos_iff]

/-! ## Texts -/

/-- What `Decimal(text)` can be. -/
inductive Number where
  | finite (q : ℚ)
  | infinity (negative : Bool)
  | nan
  deriving DecidableEq, Repr

/-- The value of a list of ASCII digits. -/
def natOfDigits (cs : List Char) : Nat :=
  cs.foldl (fun n c => 10 * n + (c.toNat - '0'.toNat)) 0

/-- The exponent part of a number, `none` when the text is no exponent. -/
def exponentOf : List Char → Option Int
  | [] => some 0
  | e :: cs =>
    if e = 'e' ∨ e = 'E' then
      match cs with
      | '-' :: ds => if ds ≠ [] ∧ ds.all Char.isDigit then some (-(natOfDigits ds : Int)) else none
      | '+' :: ds => if ds ≠ [] ∧ ds.all Char.isDigit then some (natOfDigits ds) else none
      | ds => if ds ≠ [] ∧ ds.all Char.isDigit then some (natOfDigits ds) else none
    else none

def scale (n : Nat) (e : Int) : ℚ :=
  if 0 ≤ e then (n : ℚ) * 10 ^ e.toNat else (n : ℚ) / 10 ^ (-e).toNat

/-- A number without its sign. -/
def unsigned (cs : List Char) : Option Number :=
  let int := cs.takeWhile Char.isDigit
  let rest := cs.dropWhile Char.isDigit
  let frac := match rest with
    | '.' :: ds => ds.takeWhile Char.isDigit
    | _ => []
  let tail := match rest with
    | '.' :: ds => ds.dropWhile Char.isDigit
    | ds => ds
  let word := cs.map Char.toLower
  if int = [] ∧ frac = [] then
    if word = ['i', 'n', 'f'] ∨ word = ['i', 'n', 'f', 'i', 'n', 'i', 't', 'y'] then
      some (.infinity false)
    else if word.take 3 = ['n', 'a', 'n'] ∧ (word.drop 3).all Char.isDigit then some .nan
    else if word.take 4 = ['s', 'n', 'a', 'n'] ∧ (word.drop 4).all Char.isDigit then some .nan
    else none
  else (exponentOf tail).map fun e => .finite (scale (natOfDigits (int ++ frac)) (e - frac.length))

/-- `Decimal(text)`; `none` stands for `InvalidOperation`. -/
def parse (text : String) : Option Number :=
  let cs := ((text.toList.dropWhile Char.isWhitespace).reverse.dropWhile
    Char.isWhitespace).reverse.filter (· ≠ '_')
  match cs with
  | '-' :: ds => (unsigned ds).map fun
    | .finite q => .finite (-q)
    | .infinity _ => .infinity true
    | .nan => .nan
  | '+' :: ds => unsigned ds
  | ds => unsigned ds

/-- A decimal that arithmetic can use: a text that is no number raises, and so
does the arithmetic on NaN and on the infinities. -/
def ofText (text : String) : Except PyErr ℚ :=
  match parse text with
  | some (.finite q) => .ok q
  | _ => .error invalid_operation

def fracDigits : Nat → ℚ → List Char
  | 0, _ => []
  | fuel + 1, r =>
    if r = 0 then []
    else Char.ofNat ('0'.toNat + ⌊r * 10⌋.toNat) :: fracDigits fuel (r * 10 - ⌊r * 10⌋)

/-- `str(q)`, without the zeros that Python keeps at the end. -/
def str (q : ℚ) : String :=
  let a := |q|
  let ds := fracDigits 28 (a - ⌊a⌋)
  (if q < 0 then "-" else "") ++ toString ⌊a⌋.toNat ++
    (if ds = [] then "" else "." ++ String.ofList ds)

example : parse " -1_2.50e1 " = some (.finite (-125)) := by decide +kernel

example : str (5 / 4) = "1.25" := by decide +kernel

theorem decimal_zero : ofText "0" = .ok 0 := by decide +kernel

theorem decimal_one : ofText "1" = .ok 1 := by decide +kernel

end Decimal

end trading_platform.shared
