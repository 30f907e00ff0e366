-- Base64: the encoder with padding, and a decoder that skips every character
-- outside of the alphabet and stops where the padding is complete.
import Mathlib.Data.List.Basic
import Mathlib.Tactic.Common

namespace base64

/-! ## The alphabet -/

def alphabet : List Char :=
  "ABCDEFGHIJKLMNOPQRSTUVWXYZabcdefghijklmnopqrstuvwxyz0123456789+/".toList

/-- The character of six bits. -/
def digit (n : Nat) : Char := alphabet.getD n 'A'

/-- The six bits of a character of the alphabet. -/
def sextet (c : Char) : Option Nat := alphabet.idxOf? c

/-- The text of the alphabet, read once. -/
theorem alphabet_eq : alphabet =
    ['A', 'B', 'C', 'D', 'E', 'F', 'G', 'H', 'I', 'J', 'K', 'L', 'M', 'N', 'O', 'P', 'Q', 'R',
      'S', 'T', 'U', 'V', 'W', 'X', 'Y', 'Z', 'a', 'b', 'c', 'd', 'e', 'f', 'g', 'h', 'i', 'j',
      'k', 'l', 'm', 'n', 'o', 'p', 'q', 'r', 's', 't', 'u', 'v', 'w', 'x', 'y', 'z', '0', '1',
      '2', '3', '4', '5', '6', '7', '8', '9', '+', '/'] := by
  decide

theorem sextet_digit {n : Nat} (h : n < 64) : sextet (digit n) = some n := by
  have hall : ∀ i : Fin 64, sextet (digit i) = some i.1 := by
    simp only [sextet, digit, alphabet_eq]
    decide
  exact hall ⟨n, h⟩

theorem digit_mem {n : Nat} (h : n < 64) : digit n ∈ alphabet := by
  have hlength : n < alphabet.length := by
    rw [alphabet_eq]
    exact h
  unfold digit
  rw [List.getD_eq_getElem?_getD, List.getElem?_eq_getElem hlength]
  exact List.getElem_mem hlength

theorem digit_ne_pad {n : Nat} (h : n < 64) : digit n ≠ '=' := by
  intro hpad
  have hmem := digit_mem h
  rw [hpad, alphabet_eq] at hmem
  exact absurd hmem (by decide)

/-! ## The encoder -/

def encode : List UInt8 → List Char
  | [] => []
  | [a] => [digit (a.toNat / 4), digit (a.toNat % 4 * 16), '=', '=']
  | [a, b] =>
    [digit (a.toNat / 4), digit (a.toNat % 4 * 16 + b.toNat / 16), digit (b.toNat % 16 * 4), '=']
  | a :: b :: c :: rest =>
    digit (a.toNat / 4) :: digit (a.toNat % 4 * 16 + b.toNat / 16) ::
      digit (b.toNat % 16 * 4 + c.toNat / 64) :: digit (c.toNat % 64) :: encode rest

/-! ## The decoder -/

inductive DecodeErr where
  /-- One character behind the last full group. -/
  | one_more
  /-- A group that is neither full nor padded. -/
  | padding

/-- How much of a group of four is read, with the bits that are left over. -/
inductive Quad where
  | q0
  | q1 (left : Nat)
  | q2 (left : Nat) (padded : Bool)
  | q3 (left : Nat)

def finish : Quad → Except DecodeErr (List UInt8)
  | .q0 => .ok []
  | .q1 _ => .error .one_more
  | .q2 .. | .q3 _ => .error .padding

/-- A byte, and what is decoded behind it. -/
def emit (n : Nat) (rest : Except DecodeErr (List UInt8)) : Except DecodeErr (List UInt8) :=
  rest.map (UInt8.ofNat n :: ·)

def feed : Quad → List Char → Except DecodeErr (List UInt8)
  | q, [] => finish q
  | q, c :: cs =>
    if c = '=' then
      match q with
      | .q2 _ true | .q3 _ => .ok []
      | .q2 left false => feed (.q2 left true) cs
      | .q0 => feed .q0 cs
      | .q1 left => feed (.q1 left) cs
    else
      match sextet c, q with
      | none, q => feed q cs
      | some n, .q0 => feed (.q1 n) cs
      | some n, .q1 left => emit (left * 4 + n / 16) (feed (.q2 (n % 16) false) cs)
      | some n, .q2 left _ => emit (left * 16 + n / 4) (feed (.q3 (n % 4)) cs)
      | some n, .q3 left => emit (left * 64 + n) (feed .q0 cs)

def decode (text : List Char) : Except DecodeErr (List UInt8) := feed .q0 text

/-! ## What the decoder does with a character -/

theorem feed_cons {c : Char} (hpad : c ≠ '=') (q : Quad) (cs : List Char) :
    feed q (c :: cs) =
      match sextet c, q with
      | none, q => feed q cs
      | some n, .q0 => feed (.q1 n) cs
      | some n, .q1 left => emit (left * 4 + n / 16) (feed (.q2 (n % 16) false) cs)
      | some n, .q2 left _ => emit (left * 16 + n / 4) (feed (.q3 (n % 4)) cs)
      | some n, .q3 left => emit (left * 64 + n) (feed .q0 cs) := if_neg hpad

theorem feed_q0 {n : Nat} (h : n < 64) (cs : List Char) :
    feed .q0 (digit n :: cs) = feed (.q1 n) cs := by
  rw [feed_cons (digit_ne_pad h), sextet_digit h]

theorem feed_q1 {n : Nat} (h : n < 64) (left : Nat) (cs : List Char) :
    feed (.q1 left) (digit n :: cs) = emit (left * 4 + n / 16) (feed (.q2 (n % 16) false) cs) := by
  rw [feed_cons (digit_ne_pad h), sextet_digit h]

theorem feed_q2 {n : Nat} (h : n < 64) (left : Nat) (cs : List Char) :
    feed (.q2 left false) (digit n :: cs) = emit (left * 16 + n / 4) (feed (.q3 (n % 4)) cs) := by
  rw [feed_cons (digit_ne_pad h), sextet_digit h]

theorem feed_q3 {n : Nat} (h : n < 64) (left : Nat) (cs : List Char) :
    feed (.q3 left) (digit n :: cs) = emit (left * 64 + n) (feed .q0 cs) := by
  rw [feed_cons (digit_ne_pad h), sextet_digit h]

/-- A character outside of the alphabet is skipped. -/
theorem feed_skip {c : Char} (h : sextet c = none) (hpad : c ≠ '=') (q : Quad) (cs : List Char) :
    feed q (c :: cs) = feed q cs := by
  rw [feed_cons hpad, h]

theorem emit_toNat {n : Nat} {a : UInt8} (h : n = a.toNat) (rest : Except DecodeErr (List UInt8)) :
    emit n rest = rest.map (a :: ·) := by
  unfold emit
  rw [h, UInt8.ofNat_toNat]

/-! ## Round trips -/

/-- A full group is decoded to its three bytes. -/
theorem feed_group (a b c : UInt8) (cs : List Char) :
    feed .q0 (digit (a.toNat / 4) :: digit (a.toNat % 4 * 16 + b.toNat / 16) ::
        digit (b.toNat % 16 * 4 + c.toNat / 64) :: digit (c.toNat % 64) :: cs) =
      (feed .q0 cs).map fun rest => a :: b :: c :: rest := by
  have ha := a.toNat_lt
  have hb := b.toNat_lt
  have hc := c.toNat_lt
  rw [feed_q0 (by omega), feed_q1 (by omega), feed_q2 (by omega), feed_q3 (by omega),
    emit_toNat (a := a) (by omega), emit_toNat (a := b) (by omega), emit_toNat (a := c) (by omega)]
  cases feed .q0 cs <;> rfl

/-- Full groups are decoded whatever comes behind them. -/
theorem feed_encode_append (bytes : List UInt8) (h : bytes.length % 3 = 0) (cs : List Char) :
    feed .q0 (encode bytes ++ cs) = (feed .q0 cs).map (bytes ++ ·) := by
  fun_induction encode bytes with
  | case1 =>
    rw [List.nil_append]
    cases feed .q0 cs <;> rfl
  | case2 a => simp at h
  | case3 a b => simp at h
  | case4 a b c rest ih =>
    have hrest : rest.length % 3 = 0 := by
      simp only [List.length_cons] at h
      omega
    rw [List.cons_append, List.cons_append, List.cons_append, List.cons_append, feed_group,
      ih hrest]
    cases feed .q0 cs <;> rfl

theorem decode_encode (bytes : List UInt8) : decode (encode bytes) = .ok bytes := by
  unfold decode
  fun_induction encode bytes with
  | case1 => rfl
  | case2 a =>
    have ha := a.toNat_lt
    rw [feed_q0 (by omega), feed_q1 (by omega), emit_toNat (a := a) (by omega)]
    rfl
  | case3 a b =>
    have ha := a.toNat_lt
    have hb := b.toNat_lt
    rw [feed_q0 (by omega), feed_q1 (by omega), feed_q2 (by omega), emit_toNat (a := a) (by omega),
      emit_toNat (a := b) (by omega)]
    rfl
  | case4 a b c rest ih =>
    rw [feed_group, ih]
    rfl

/-- What is encoded is made of the alphabet and the padding. -/
theorem mem_encode {bytes : List UInt8} {c : Char} (h : c ∈ encode bytes) :
    c ∈ alphabet ∨ c = '=' := by
  fun_induction encode bytes with
  | case1 => cases h
  | case2 a =>
    have ha := a.toNat_lt
    simp only [List.mem_cons, List.not_mem_nil, or_false] at h
    rcases h with h | h | h | h
    · exact Or.inl (h ▸ digit_mem (by omega))
    · exact Or.inl (h ▸ digit_mem (by omega))
    · exact Or.inr h
    · exact Or.inr h
  | case3 a b =>
    have ha := a.toNat_lt
    have hb := b.toNat_lt
    simp only [List.mem_cons, List.not_mem_nil, or_false] at h
    rcases h with h | h | h | h
    · exact Or.inl (h ▸ digit_mem (by omega))
    · exact Or.inl (h ▸ digit_mem (by omega))
    · exact Or.inl (h ▸ digit_mem (by omega))
    · exact Or.inr h
  | case4 a b d rest ih =>
    have ha := a.toNat_lt
    have hb := b.toNat_lt
    have hd := d.toNat_lt
    rcases List.mem_cons.mp h with heq | h
    · exact Or.inl (heq ▸ digit_mem (by omega))
    rcases List.mem_cons.mp h with heq | h
    · exact Or.inl (heq ▸ digit_mem (by omega))
    rcases List.mem_cons.mp h with heq | h
    · exact Or.inl (heq ▸ digit_mem (by omega))
    rcases List.mem_cons.mp h with heq | h
    · exact Or.inl (heq ▸ digit_mem (by omega))
    exact ih h

end base64
