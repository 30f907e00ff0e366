-- How a browser resolves a reference against a URL whose scheme has a host (the URL standard):
-- the scheme, the host and the port of what it goes to.
import TradingPlatform.Lib.Url

namespace browser

open url

/-! ## Reading -/

structure Origin (Host : Type) where
  scheme : List Char
  host : Host
  port : Nat
  deriving DecidableEq

/-- What is stripped at both ends. -/
def control (c : Char) : Bool := c.toNat ≤ 0x20

/-- What is dropped everywhere. -/
def dropped (c : Char) : Bool := c = '\t' || c = '\n' || c = '\r'

def rstrip (text : List Char) : List Char := (text.reverse.dropWhile control).reverse

def clean (text : List Char) : List Char := (rstrip (text.dropWhile control)).filter (!dropped ·)

/-- Backslashes are read as slashes. -/
def slash (c : Char) : Bool := c = '/' || c = '\\'

/-- The port of a scheme whose URLs have a host. -/
def default_port (scheme : List Char) : Option Nat :=
  if scheme = "http".toList ∨ scheme = "ws".toList then some 80
  else if scheme = "https".toList ∨ scheme = "wss".toList then some 443
  else if scheme = "ftp".toList then some 21
  else none

/-- The text between the slashes and the path, the query or the fragment. -/
def authority_text (text : List Char) : List Char :=
  (text.dropWhile slash).takeWhile fun c => !(slash c || c = '?' || c = '#')

section Resolve

-- the host and the port of an authority, if it is one
variable {Host : Type} (authority : List Char → Option (Host × Option Nat))

/-- The origin of a URL with a host of its own. -/
def absolute (scheme text : List Char) : Option (Origin Host) :=
  match default_port scheme, authority (authority_text text) with
  | some port, some (host, given) => some ⟨scheme, host, given.getD port⟩
  | _, _ => none

def two_slashes : List Char → Bool
  | a :: b :: _ => slash a && slash b
  | _ => false

def relative (base : Origin Host) (text : List Char) : Option (Origin Host) :=
  if two_slashes text then absolute authority base.scheme text else some base

/-- The origin of a reference that is resolved against a URL with the origin `base`. -/
def resolve (base : Origin Host) (text : List Char) : Option (Origin Host) :=
  match split_scheme (clean text) with
  | (some name, rest) =>
    let scheme := name.map Char.toLower
    if scheme = base.scheme then relative authority base rest else absolute authority scheme rest
  | (none, text) => relative authority base text

end Resolve

/-! ## Lemmas -/

/-- A text is what is kept of it and the controls behind that. -/
theorem rstrip_append (text : List Char) :
    ∃ behind, text = rstrip text ++ behind ∧ ∀ c ∈ behind, control c = true := by
  refine ⟨(text.reverse.takeWhile control).reverse, ?_, ?_⟩
  · unfold rstrip
    rw [← List.reverse_append, List.takeWhile_append_dropWhile, List.reverse_reverse]
  · intro c hc
    exact List.mem_takeWhile_imp (List.mem_reverse.mp hc)

theorem slash_of_control {c : Char} (h : control c = true) : slash c = false := by
  have hcontrol : c.toNat ≤ 0x20 := of_decide_eq_true h
  unfold slash
  rw [Bool.or_eq_false_iff]
  constructor
  · refine decide_eq_false ?_
    rintro rfl
    exact absurd hcontrol (by decide)
  · refine decide_eq_false ?_
    rintro rfl
    exact absurd hcontrol (by decide)

/-- Controls at the end make no slashes at the beginning. -/
theorem two_slashes_append (text : List Char) {behind : List Char}
    (h : ∀ c ∈ behind, control c = true) : two_slashes (text ++ behind) = two_slashes text := by
  match text, behind with
  | [], [] => rfl
  | [], [a] => rfl
  | [], a :: b :: rest =>
    have ha := slash_of_control (h a List.mem_cons_self)
    rw [List.nil_append, two_slashes, ha]
    rfl
  | [a], [] => rfl
  | [a], b :: rest =>
    have hb := slash_of_control (h b List.mem_cons_self)
    rw [List.singleton_append, two_slashes, hb, Bool.and_false]
    rfl
  | a :: b :: text, behind => rfl

/-- A scheme is made of its characters, and a colon is behind it. -/
theorem split_scheme_cases (text : List Char) :
    split_scheme text = (none, text) ∨
      ∃ name rest, text = name ++ ':' :: rest ∧ name.head?.any Char.isAlpha = true ∧
        name.all scheme_char = true := by
  by_cases h : ((text.takeWhile scheme_char).head?.any Char.isAlpha = true ∧
      (text.dropWhile scheme_char).head? = some ':')
  · right
    obtain ⟨rest, hrest⟩ := List.head?_eq_some_iff.mp h.2
    refine ⟨text.takeWhile scheme_char, rest, ?_, h.1, ?_⟩
    · rw [← hrest, List.takeWhile_append_dropWhile]
    · rw [List.all_eq_true]
      exact fun c hc => List.mem_takeWhile_imp hc
  · left
    exact if_neg h

section Resolve

variable {Host : Type} (authority : List Char → Option (Host × Option Nat)) (base : Origin Host)

/-- Without a scheme and without two slashes, the origin is the one of the base. -/
theorem resolve_relative {text : List Char} (h : split_scheme (clean text) = (none, clean text)) :
    resolve authority base text =
      if two_slashes (clean text) then absolute authority base.scheme (clean text) else some base := by
  unfold resolve
  rw [h]
  rfl

end Resolve

end browser
