-- Python's floats, over exact rationals: the rounding of the arithmetic is left
-- out, and so is the sign of zero. The infinities and NaN are kept, since `float`
-- reads them from texts.
import TradingPlatform.Shared.Decimal

namespace trading_platform.shared

inductive PyFloat where
  | fin (q : ℚ)
  | inf (negative : Bool)
  | nan
  deriving DecidableEq, Repr

namespace PyFloat

/-! ## Arithmetic -/

def isFinite : PyFloat → Bool
  | fin _ => true
  | _ => false

protected def neg : PyFloat → PyFloat
  | fin a => fin (-a)
  | inf s => inf !s
  | nan => nan

protected def add : PyFloat → PyFloat → PyFloat
  | fin a, fin b => fin (a + b)
  | fin _, inf s => inf s
  | inf s, fin _ => inf s
  | inf s, inf t => if s = t then inf s else nan
  | _, _ => nan

/-- The product of an infinity and a finite number. -/
def infMul (s : Bool) (a : ℚ) : PyFloat :=
  if a = 0 then nan else inf (s != decide (a < 0))

protected def mul : PyFloat → PyFloat → PyFloat
  | fin a, fin b => fin (a * b)
  | fin a, inf s => infMul s a
  | inf s, fin a => infMul s a
  | inf s, inf t => inf (s != t)
  | _, _ => nan

instance : Neg PyFloat := ⟨PyFloat.neg⟩
instance : Add PyFloat := ⟨PyFloat.add⟩
instance : Sub PyFloat := ⟨fun x y => x + -y⟩
instance : Mul PyFloat := ⟨PyFloat.mul⟩

def zero_division : PyErr := ⟨"ZeroDivisionError", "float division by zero"⟩

/-- `x / y`, which raises when `y` is zero. -/
def div : PyFloat → PyFloat → Except PyErr PyFloat
  | x, fin b =>
    if b = 0 then .error zero_division
    else match x with
      | fin a => .ok (fin (a / b))
      | inf s => .ok (inf (s != decide (b < 0)))
      | nan => .ok nan
  | fin _, inf _ => .ok (fin 0)
  | _, _ => .ok nan

/-- `x / n` for a positive integer `n`. -/
def divNat (x : PyFloat) (n : Nat) : PyFloat :=
  match x with
  | fin a => fin (a / n)
  | x => x

/-- `x < y`; a comparison with NaN is false. -/
def lt : PyFloat → PyFloat → Bool
  | fin a, fin b => a < b
  | fin _, inf s => !s
  | inf s, fin _ => s
  | inf s, inf t => s && !t
  | _, _ => false

/-- `x <= y`. -/
def le (x y : PyFloat) : Bool := x.lt y || (x = y && x ≠ nan)

/-- `max(x, y)`: the first one, unless the second one is greater. -/
def max (x y : PyFloat) : PyFloat := if x.lt y then y else x

def abs : PyFloat → PyFloat
  | fin a => fin |a|
  | inf _ => inf false
  | nan => nan

def sum (xs : List PyFloat) : PyFloat := xs.foldl (· + ·) (fin 0)

/-- `math.sqrt(x)`, where `sqrt` is the root of the floats that are not negative. -/
def math_sqrt (sqrt : ℚ → ℚ) : PyFloat → Except PyErr PyFloat
  | fin a => if a < 0 then .error ⟨"ValueError", "math domain error"⟩ else .ok (fin (sqrt a))
  | inf true => .error ⟨"ValueError", "math domain error"⟩
  | x => .ok x

@[simp] theorem fin_neg (a : ℚ) : -fin a = fin (-a) := rfl

@[simp] theorem fin_add (a b : ℚ) : fin a + fin b = fin (a + b) := rfl

@[simp] theorem fin_sub (a b : ℚ) : fin a - fin b = fin (a - b) :=
  congrArg fin (sub_eq_add_neg a b).symm

@[simp] theorem fin_mul (a b : ℚ) : fin a * fin b = fin (a * b) := rfl

@[simp] theorem divNat_fin (a : ℚ) (n : Nat) : (fin a).divNat n = fin (a / n) := rfl

@[simp] theorem abs_fin (a : ℚ) : (fin a).abs = fin |a| := rfl

@[simp] theorem lt_fin (a b : ℚ) : (fin a).lt (fin b) = decide (a < b) := rfl

theorem le_fin (a b : ℚ) : (fin a).le (fin b) = decide (a ≤ b) := by
  unfold PyFloat.le
  rcases lt_trichotomy a b with h | rfl | h
  · simp [h, h.le]
  · simp
  · simp [not_lt.mpr h.le, ne_of_gt h, h]

theorem div_fin {b : ℚ} (hb : b ≠ 0) (a : ℚ) : div (fin a) (fin b) = .ok (fin (a / b)) := by
  simp [div, hb]

@[simp] theorem max_fin (a b : ℚ) : (fin a).max (fin b) = fin (Max.max a b) := by
  unfold max
  by_cases h : a < b
  · simp [h, max_eq_right h.le]
  · simp [h, max_eq_left (not_lt.mp h)]

theorem math_sqrt_fin (sqrt : ℚ → ℚ) {a : ℚ} (ha : 0 ≤ a) :
    math_sqrt sqrt (fin a) = .ok (fin (sqrt a)) := by
  simp [math_sqrt, not_lt.mpr ha]

@[simp] theorem sum_fin (xs : List ℚ) : sum (xs.map fin) = fin xs.sum := by
  have h : ∀ (ys : List ℚ) (a : ℚ), (ys.map fin).foldl (· + ·) (fin a) = fin (a + ys.sum) := by
    intro ys
    induction ys with
    | nil =>
      intro a
      simp
    | cons y ys ih =>
      intro a
      rw [List.map_cons, List.foldl_cons, fin_add, ih, List.sum_cons, add_assoc]
  rw [sum, h, zero_add]

/-! ## Powers -/

/-- The largest float. -/
def largest : ℚ := (2 ^ 53 - 1) * 2 ^ 971

/-- `x ** n` of a finite float and an integer that is not negative. -/
def pow (x : ℚ) (n : Nat) : Except PyErr ℚ :=
  if largest < |x ^ n| then .error ⟨"OverflowError", "(34, 'Numerical result out of range')"⟩
  else .ok (x ^ n)

theorem pow_ok_iff {x : ℚ} {n : Nat} : (∃ y, pow x n = .ok y) ↔ |x ^ n| ≤ largest := by
  unfold pow
  by_cases h : largest < |x ^ n|
  · rw [if_pos h]
    constructor
    · rintro ⟨y, hy⟩
      cases hy
    · intro hle
      exact absurd h (not_lt.mpr hle)
  · rw [if_neg h]
    exact ⟨fun _ => not_lt.mp h, fun _ => ⟨_, rfl⟩⟩

theorem pow_eq_of_ok {x y : ℚ} {n : Nat} (h : pow x n = .ok y) : y = x ^ n := by
  unfold pow at h
  split at h
  · cases h
  · exact (Except.ok.inj h).symm

/-- `2.0 ** 1023` is the last power of two that is a float. -/
theorem two_pow_le_largest_iff {n : Nat} : |(2 : ℚ) ^ n| ≤ largest ↔ n ≤ 1023 := by
  have hpow : |(2 : ℚ) ^ n| = 2 ^ n := abs_of_pos (pow_pos two_pos n)
  have hpos : (0 : ℚ) < 2 ^ 971 := pow_pos two_pos 971
  have hlow : (2 : ℚ) ^ 1023 ≤ largest := by
    rw [show 1023 = 52 + 971 from rfl, pow_add]
    exact mul_le_mul_of_nonneg_right (by norm_num) hpos.le
  have hhigh : largest < (2 : ℚ) ^ 1024 := by
    rw [show 1024 = 53 + 971 from rfl, pow_add]
    exact mul_lt_mul_of_pos_right (by norm_num) hpos
  rw [hpow]
  constructor
  · intro h
    by_contra hn
    have hle : (2 : ℚ) ^ 1024 ≤ 2 ^ n := pow_le_pow_right₀ one_le_two (by omega)
    exact absurd (hhigh.trans_le hle) (not_lt.mpr h)
  · intro h
    exact (pow_le_pow_right₀ one_le_two h).trans hlow

/-! ## Texts -/

def could_not_convert (text : String) : PyErr :=
  ⟨"ValueError", s!"could not convert string to float: '{text}'"⟩

/-- What `str.isspace` takes for a blank. -/
def isSpace (c : Char) : Bool :=
  let n := c.toNat
  (9 ≤ n && n ≤ 13) || (28 ≤ n && n ≤ 32) || n = 0x85 || n = 0xa0 || n = 0x1680 ||
    (0x2000 ≤ n && n ≤ 0x200a) || n = 0x2028 || n = 0x2029 || n = 0x202f || n = 0x205f ||
    n = 0x3000

/-- Drops the underscores, each of which stands between two digits. -/
def dropUnderscores : List Char → Option (List Char)
  | c :: '_' :: d :: cs =>
    if c.isDigit && d.isDigit then (dropUnderscores (d :: cs)).map (c :: ·) else none
  | c :: cs => if c = '_' ∨ cs = ['_'] then none else (dropUnderscores cs).map (c :: ·)
  | [] => some []

/-- A float without its sign. -/
def unsigned (cs : List Char) : Option PyFloat :=
  let int := cs.takeWhile Char.isDigit
  let rest := cs.dropWhile Char.isDigit
  let frac := match rest with
    | '.' :: ds => ds.takeWhile Char.isDigit
    | _ => []
  let tail := match rest with
    | '.' :: ds => ds.dropWhile Char.isDigit
    | ds => ds
  let word := cs.map Char.toLower
  if int = [] ∧ frac = [] then
    if word = "inf".toList ∨ word = "infinity".toList then some (inf false)
    else if word = "nan".toList then some nan
    else none
  else (Decimal.exponentOf tail).map fun e =>
    fin (Decimal.scale (Decimal.natOfDigits (int ++ frac)) (e - frac.length))

/-- `float(text)`. The digits are the ASCII ones. -/
def ofText (text : String) : Except PyErr PyFloat :=
  let cs := ((text.toList.dropWhile isSpace).reverse.dropWhile isSpace).reverse
  let value := (dropUnderscores cs).bind fun cs => match cs with
    | '-' :: ds => (unsigned ds).map PyFloat.neg
    | '+' :: ds => unsigned ds
    | ds => unsigned ds
  match value with
  | some x => .ok x
  | none => .error (could_not_convert text)

example : ofText " -1_2.50e1 " = .ok (fin (-125)) := by decide +kernel

example : ofText "1__2" = .error (could_not_convert "1__2") := by decide +kernel

theorem float_one : ofText "1" = .ok (fin 1) := by decide +kernel

theorem float_hundred : ofText "100" = .ok (fin 100) := by decide +kernel

end PyFloat

end trading_platform.shared
