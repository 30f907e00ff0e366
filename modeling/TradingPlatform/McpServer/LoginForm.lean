-- The sign-in form as a browser reads it. The target of the redirect is put into the value of a
-- hidden input as it is.
import TradingPlatform.Lib.Html
import TradingPlatform.McpServer.OpenRedirect

open trading_platform.shared
open html

namespace trading_platform.mcp_server

/-! ## The template -/

/-- The hidden input up to its value. -/
def hidden_input : Tag :=
  { closing := false, name := "input".toList,
    attributes := [("type".toList, "hidden".toList), ("name".toList, "next".toList)] }

/-- The hidden input, with its value. -/
def next_input (value : List Char) : Tag :=
  { closing := false, name := "input".toList,
    attributes := [("type".toList, "hidden".toList), ("name".toList, "next".toList),
      ("value".toList, value)] }

def is_hidden_input (tag : Tag) : Bool :=
  tag.name = "input".toList && tag.attributes.contains ("type".toList, "hidden".toList)

/-- The tag, with another value if it is the hidden input. -/
def set_value (value : List Char) (tag : Tag) : Tag :=
  if is_hidden_input tag then
    { tag with attributes := tag.attributes.map fun (name, old) =>
        (name, if name = "value".toList then value else old) }
  else tag

/-- A tag without references that is not the hidden input. -/
def still (tag : Tag) : Bool :=
  tag.attributes.all (fun (_, raw) => !raw.contains '&') && !is_hidden_input tag

/-- What `error` is replaced by. -/
def error_html (error : String) : List Char :=
  (if error ≠ "" then "<p class=\"err\">" ++ error ++ "</p>" else "").toList

def form_front (error : String) : List Char := form_head ++ error_html error ++ form_middle

/-- The errors that the endpoints give. -/
def errors : List String := ["", "Invalid username or password."]

/-- The characters of lines, one line after the other. A literal is not decoded for that. -/
theorem lines_cons {text : String} {texts : List String} {chars last rest : List Char}
    (htext : text = String.ofList chars) (hrest : lines texts ++ last = rest) :
    lines (text :: texts) ++ last = chars ++ '\n' :: rest := by
  rw [← hrest, htext, lines, List.flatMap_cons, String.toList_ofList]
  simp [lines]

theorem lines_nil {text : String} {chars : List Char} (h : text = String.ofList chars) :
    lines [] ++ text.toList = chars := by
  rw [h, String.toList_ofList]
  rfl

/-- A part of the form is read from a state to another one, with tags that stay as they are. -/
def ReadsTo (state : State) (text : List Char) (last : State) : Prop :=
  ∃ tags, go state text = (last, tags) ∧ tags.all still = true ∧ '\r' ∉ text

theorem reads_to_of {state last : State} {text : List Char}
    (h : (go state text).1 = last ∧ (go state text).2.all still = true ∧ '\r' ∉ text) :
    ReadsTo state text last := ⟨_, Prod.ext h.1 rfl, h.2⟩

theorem ReadsTo.append {first middle last : State} {a b : List Char} (ha : ReadsTo first a middle)
    (hb : ReadsTo middle b last) : ReadsTo first (a ++ b) last := by
  obtain ⟨front, hfront, hfrontstill, hfrontno⟩ := ha
  obtain ⟨back, hback, hbackstill, hbackno⟩ := hb
  refine ⟨front ++ back, ?_, ?_, ?_⟩
  · rw [go_append, hfront, hback]
  · rw [List.all_append, hfrontstill, hbackstill, Bool.and_self]
  · rw [List.mem_append, not_or]
    exact ⟨hfrontno, hbackno⟩

theorem form_head_read : ReadsTo .data form_head .data := by
  obtain ⟨chars, hchars, hread⟩ : ∃ chars, form_head = chars ∧ (go .data chars).1 = .data ∧
      (go .data chars).2.all still = true ∧ '\r' ∉ chars := by
    apply Exists.intro
    apply And.intro
    · unfold form_head
      repeat apply lines_cons rfl
      exact lines_nil rfl
    · decide +kernel
  rw [hchars]
  exact reads_to_of hread

theorem error_read : ∀ error ∈ errors, ReadsTo .data (error_html error) .data := by
  have hread : ∀ error ∈ errors, (go .data (error_html error)).1 = .data ∧
      (go .data (error_html error)).2.all still = true ∧ '\r' ∉ error_html error := by
    decide
  exact fun error herror => reads_to_of (hread error herror)

/-- The state behind the quote in front of the value. -/
def next_value : State := .attribute_value .double hidden_input "value".toList []

theorem form_middle_read : ReadsTo .data form_middle next_value :=
  reads_to_of (by decide)

/-- The template behind the hidden input ends it, and has no other one. -/
theorem form_tail_read : ∃ rest last, form_tail = '"' :: '>' :: rest ∧ ReadsTo .data rest last := by
  obtain ⟨chars, hchars, hcut, hread⟩ : ∃ chars, form_tail = chars ∧
      chars = '"' :: '>' :: chars.drop 2 ∧ (go .data (chars.drop 2)).2.all still = true ∧
        '\r' ∉ chars.drop 2 := by
    apply Exists.intro
    apply And.intro
    · unfold form_tail
      repeat apply lines_cons rfl
      exact lines_nil rfl
    · decide +kernel
  exact ⟨_, _, hchars.trans hcut, reads_to_of ⟨rfl, hread⟩⟩

/-! ## Tags that stay as they are -/

section Still

variable {named : List Char → Option (List Char)}

theorem no_reference_of_no_ampersand {raw : List Char} (h : '&' ∉ raw) :
    has_reference named raw = false := by
  induction raw with
  | nil => rfl
  | cons c raw ih =>
    have hc : c ≠ '&' := by
      rintro rfl
      exact h List.mem_cons_self
    rw [has_reference, ih fun hraw => h (List.mem_cons_of_mem c hraw), decide_eq_false hc]
    rfl

theorem decode_of_no_ampersand {raw : List Char} (h : '&' ∉ raw) : decode named raw = raw :=
  decode_of_no_reference (no_reference_of_no_ampersand h)

/-- Such a tag has no references, and is not the one that gets a value. -/
theorem still_fixed {tag : Tag} (h : still tag = true) (value : List Char) :
    tag.decode named = tag ∧ set_value value tag = tag := by
  unfold still at h
  obtain ⟨hall, hhidden⟩ := Bool.and_eq_true_iff.mp h
  constructor
  · have hself : ∀ a ∈ tag.attributes, (a.1, decode named a.2) = a := by
      intro a ha
      have hno := List.all_eq_true.mp hall a ha
      rw [decode_of_no_ampersand (by simpa using hno)]
    unfold Tag.decode
    rw [List.map_congr_left (g := id) hself, List.map_id]
  · unfold set_value
    rw [if_neg (by simpa using hhidden)]

theorem still_all {tags : List Tag} (h : tags.all still = true) (value : List Char) :
    tags.map (Tag.decode named) = tags ∧ tags.map (set_value value) = tags := by
  have hfixed : ∀ tag ∈ tags, tag.decode named = tag ∧ set_value value tag = tag :=
    fun tag htag => still_fixed (List.all_eq_true.mp h tag htag) value
  constructor
  · rw [List.map_congr_left (g := id) fun tag htag => (hfixed tag htag).1, List.map_id]
  · rw [List.map_congr_left (g := id) fun tag htag => (hfixed tag htag).2, List.map_id]

theorem decode_next_input (raw : List Char) :
    (next_input raw).decode named = next_input (decode named raw) := by
  have htype : decode named "hidden".toList = "hidden".toList :=
    decode_of_no_ampersand (by decide)
  have hname : decode named "next".toList = "next".toList :=
    decode_of_no_ampersand (by decide)
  unfold Tag.decode next_input
  simp only [List.map_cons, List.map_nil, htype, hname]

theorem set_value_next_input (value old : List Char) :
    set_value value (next_input old) = next_input value := by
  have hhidden : is_hidden_input (next_input old) = true := by
    simp [is_hidden_input, next_input]
  unfold set_value
  rw [if_pos hhidden]
  simp [next_input]

end Still

/-! ## The tags of the form -/

/-- The hidden input gets its value last. -/
theorem add_value (value : List Char) :
    hidden_input.add "value".toList value = next_input value := by
  have hno : "value".toList ∉ ["type".toList, "name".toList] := by decide
  exact if_neg hno

theorem step_next_input (value : List Char) :
    step (.after_attribute_value (next_input value)) '>' = (.data, some (next_input value)) := by
  have htext : "input".toList ∉ text_elements := by decide
  have hplain : "input".toList ≠ "plaintext".toList := by decide
  have hbehind : html.behind (next_input value) = .data := by
    have hname : (next_input value).name = "input".toList := rfl
    have hopen : ¬ (next_input value).closing = true := Bool.false_ne_true
    unfold html.behind
    rw [hname, if_neg hopen, if_neg htext, if_neg hplain]
  have hstep : step (.after_attribute_value (next_input value)) '>' = emit (next_input value) := rfl
  rw [hstep, emit, hbehind]
  rfl

/-- The form up to the value of the hidden input. -/
theorem form_front_read {error : String} (herror : error ∈ errors) :
    ReadsTo .data (form_front error) next_value :=
  (form_head_read.append (error_read error herror)).append form_middle_read

/-- The tags in front of the hidden input and behind it stay, whatever its value is; and what is
read behind the value is the template, if there is no quote in the value. -/
theorem form_read {error : String} (herror : error ∈ errors) :
    ∃ front back, front.all still = true ∧ back.all still = true ∧ ∀ next, ∃ rest,
      (go .data (normalize_newlines (form_template (error_html error) next))).2 =
        front ++ (go (.after_attribute_value (next_input (raw_value next))) rest).2 ∧
      ('"' ∉ next →
        (go (.after_attribute_value (next_input (raw_value next))) rest).2 =
          next_input (raw_value next) :: back) := by
  obtain ⟨front, hfront, hfrontstill, hfrontno⟩ := form_front_read herror
  obtain ⟨behind, last, htail, back, hback, hbackstill, hbackno⟩ := form_tail_read
  refine ⟨front, back, hfrontstill, hbackstill, ?_⟩
  intro next
  obtain ⟨rest, hgo, hrest⟩ := go_quoted hidden_input "value".toList next ('>' :: behind)
  rw [add_value] at hgo
  have hreturn : '\r' ∉ form_tail := by
    rw [htail]
    simp [hbackno]
  have hhead : form_tail.head? ≠ some '\n' := by
    rw [htail]
    exact fun h => absurd (Option.some.inj h) (by decide)
  have happend : form_template (error_html error) next = form_front error ++ (next ++ form_tail) := by
    simp only [form_template, form_front, List.append_assoc]
  refine ⟨rest, ?_, ?_⟩
  · rw [happend, normalize_of_prefix hfrontno, normalize_append next hhead,
      normalize_of_no_return hreturn, htail, go_append, hfront]
    dsimp only
    rw [next_value, hgo]
  · intro hno
    rw [hrest hno, go_cons, step_next_input]
    dsimp only
    rw [hback]
    rfl

/-! ## The value -/

section Value

variable {named : List Char → Option (List Char)}

/-- The form has the tags of the other one, but for the value of the hidden input. -/
def Harmless (named : List Char → Option (List Char)) (page empty : List Char) (value : List Char) :
    Prop := tags named page = (tags named empty).map (set_value value)

/-- An attribute that is kept has the value that it had. -/
theorem value_of_extends {raw value : List Char} {longer : Tag}
    (h : Extends (next_input raw) longer)
    (heq : longer.decode named = next_input value) : decode named raw = value := by
  obtain ⟨more, hmore⟩ := h.attributes
  have hattributes : (longer.decode named).attributes = (next_input value).attributes :=
    congrArg Tag.attributes heq
  rw [Tag.decode] at hattributes
  dsimp only at hattributes
  rw [← hmore] at hattributes
  simp only [next_input, List.map_append, List.map_cons, List.cons_append] at hattributes
  simp only [List.cons.injEq, Prod.mk.injEq] at hattributes
  exact hattributes.2.2.1.2

/-- The form is harmless exactly when the value that is read is the one that was put in. -/
theorem harmless_iff (hnamed : ∀ name chars, named name = some chars → chars.length ≤ name.length)
    {error : String} (herror : error ∈ errors) {default next : List Char}
    (hdefault : Plain named default) :
    Harmless named (form_template (error_html error) next)
        (form_template (error_html error) default) next ↔ Plain named next := by
  obtain ⟨front, back, hfront, hback, hread⟩ := form_read herror
  have hfixed : ∀ l : List Tag, l.all still = true →
      l.map (Tag.decode named) = l ∧ l.map (set_value next) = l := fun l hl => still_all hl next
  obtain ⟨hfrontdecode, hfrontset⟩ := hfixed front hfront
  obtain ⟨hbackdecode, hbackset⟩ := hfixed back hback
  -- the tags of the form with the default
  have hempty : (tags named (form_template (error_html error) default)).map (set_value next) =
      front ++ next_input next :: back := by
    obtain ⟨rest, htags, hplain⟩ := hread default
    rw [tags, htags, hplain hdefault.no_quote, List.map_append, List.map_append, List.map_cons,
      List.map_cons, hfrontdecode, hfrontset, hbackdecode, hbackset, decode_next_input,
      set_value_next_input]
  obtain ⟨rest, htags, hplain⟩ := hread next
  unfold Harmless
  rw [hempty, tags, htags, List.map_append, hfrontdecode, List.append_cancel_left_eq,
    ← decode_raw_value_iff hnamed]
  constructor
  · intro h
    have hstart : tag_of (.after_attribute_value (next_input (raw_value next))) =
        some (next_input (raw_value next)) := rfl
    rcases go_reads hstart rest with hnil | ⟨longer, more, hlonger, hextends⟩
    · rw [hnil] at h
      cases h
    · have hemitted : longer.emitted = longer := if_neg (by rw [hextends.closing]; exact Bool.false_ne_true)
      rw [hlonger, hemitted, List.map_cons] at h
      exact value_of_extends hextends (List.cons.inj h).1
  · intro h
    have hquote := ((decode_raw_value_iff hnamed next).mp h).no_quote
    rw [hplain hquote, List.map_cons, hbackdecode, decode_next_input, h]

end Value

/-! ## The endpoints -/

/-- The parameter gives a form, with the tags of the form for an empty one but for the value of
the hidden input, which is the target of the redirect. -/
def Uninjected (named : List Char → Option (List Char))
    (check_netloc : List Char → Except PyErr Unit)
    (respond : String → Except PyErr LoginResponse) (next : String) : Prop :=
  ∃ page page_status empty empty_status target,
    respond next = .ok (.html page page_status) ∧ respond "" = .ok (.html empty empty_status) ∧
      safe_next check_netloc next = .ok target ∧ Harmless named page empty target.toList

/-- `urlparse` does not raise, and it sees a scheme or a netloc, or the text stands for itself. -/
def PlainParameter (named : List Char → Option (List Char))
    (check_netloc : List Char → Except PyErr Unit) (next : String) : Prop :=
  ∃ parsed, urlparse check_netloc next = .ok parsed ∧
    (parsed.scheme ≠ [] ∨ parsed.netloc ≠ [] ∨ Plain named next.toList)

section Endpoints

variable {named : List Char → Option (List Char)} {check_netloc : List Char → Except PyErr Unit}

theorem safe_next_empty : safe_next check_netloc "" = .ok DEFAULT_NEXT := rfl

theorem plain_default : Plain named DEFAULT_NEXT.toList := by
  constructor
  · decide
  · decide
  · decide
  · exact no_reference_of_no_ampersand (by decide)

theorem plain_nil : Plain named [] :=
  ⟨List.not_mem_nil, List.not_mem_nil, List.not_mem_nil, rfl⟩

theorem safe_next_eq {next : String} (h : next ≠ "") :
    safe_next check_netloc next = (urlparse check_netloc next).map fun parsed =>
      if parsed.scheme ≠ [] ∨ parsed.netloc ≠ [] then DEFAULT_NEXT else next := by
  unfold safe_next
  rw [if_neg h]
  cases urlparse check_netloc next with
  | error e => rfl
  | ok parsed =>
    simp only [bind, Except.bind, Except.map]
    split
    · rfl
    · rfl

theorem render_form_eq (next error : String) :
    render_form check_netloc next error =
      (safe_next check_netloc next).map fun target =>
        .html (form_template (error_html error) target.toList) 200 := by
  unfold render_form
  cases safe_next check_netloc next with
  | error e => rfl
  | ok target => rfl

/-- The target of the redirect stands for itself exactly when the parameter is refused for its
scheme or its netloc, or stands for itself. -/
theorem plain_target_iff (next : String) :
    (∃ target, safe_next check_netloc next = .ok target ∧ Plain named target.toList) ↔
      PlainParameter named check_netloc next := by
  by_cases hnext : next = ""
  · subst hnext
    have hparse : urlparse check_netloc "" = .ok ⟨[], []⟩ :=
      urlparse_plain (by decide) (by decide)
    exact iff_of_true ⟨_, safe_next_empty, plain_default⟩
      ⟨_, hparse, Or.inr (Or.inr plain_nil)⟩
  · rw [safe_next_eq hnext]
    unfold PlainParameter
    cases urlparse check_netloc next with
    | error e =>
      constructor
      · rintro ⟨target, htarget, -⟩
        cases htarget
      · rintro ⟨parsed, hparsed, -⟩
        cases hparsed
    | ok parsed =>
      simp only [Except.map, Except.ok.injEq, exists_eq_left']
      by_cases hseen : parsed.scheme ≠ [] ∨ parsed.netloc ≠ []
      · rw [if_pos hseen]
        exact iff_of_true plain_default (or_assoc.mp (Or.inl hseen))
      · rw [if_neg hseen, ← or_assoc]
        exact (or_iff_right hseen).symm

/-- A form is harmless exactly when its parameter is. -/
theorem uninjected_iff (hnamed : ∀ name chars, named name = some chars → chars.length ≤ name.length)
    {error : String} (herror : error ∈ errors) {respond : String → Except PyErr LoginResponse}
    (hrespond : ∀ next, respond next = render_form check_netloc next error) (next : String) :
    Uninjected named check_netloc respond next ↔ PlainParameter named check_netloc next := by
  rw [← plain_target_iff]
  unfold Uninjected
  constructor
  · rintro ⟨page, _, empty, _, target, hpage, hempty, htarget, hharmless⟩
    refine ⟨target, htarget, ?_⟩
    rw [hrespond, render_form_eq, htarget] at hpage
    rw [hrespond, render_form_eq, safe_next_empty] at hempty
    cases hpage
    cases hempty
    exact (harmless_iff hnamed herror plain_default).mp hharmless
  · rintro ⟨target, htarget, hplain⟩
    refine ⟨_, 200, _, 200, target, ?_, ?_, htarget,
      (harmless_iff hnamed herror plain_default).mpr hplain⟩
    · rw [hrespond, render_form_eq, htarget]
      rfl
    · rw [hrespond, render_form_eq, safe_next_empty]
      rfl

end Endpoints

/-- Neither GET /login nor a POST /login that fails gives a form with other tags, exactly when
`urlparse` does not raise for the parameter and sees a scheme or a netloc in it, or it stands for
itself between two quotes. -/
theorem login_form_iff {named : List Char → Option (List Char)}
    (hnamed : ∀ name chars, named name = some chars → chars.length ≤ name.length)
    (check_netloc : List Char → Except PyErr Unit) (settings : LoginSettings)
    (mac : List UInt8 → List UInt8 → List UInt8) (now : session_cookie.Time)
    (username password next : String)
    (hinvalid : credentials_valid settings username password = false) :
    (Uninjected named check_netloc (login_get check_netloc) next ↔
        PlainParameter named check_netloc next) ∧
      (Uninjected named check_netloc (login_post check_netloc settings mac now username password) next ↔
        PlainParameter named check_netloc next) := by
  have hnone : "" ∈ errors := List.mem_cons_self
  have hinvalid_error : "Invalid username or password." ∈ errors :=
    List.mem_cons_of_mem _ List.mem_cons_self
  have hpost : ∀ next, login_post check_netloc settings mac now username password next =
      render_form check_netloc next "Invalid username or password." := by
    intro next
    unfold login_post
    rw [hinvalid]
    rfl
  exact ⟨uninjected_iff hnamed hnone (fun _ => rfl) next,
    uninjected_iff hnamed hinvalid_error hpost next⟩

/-- One of the names. -/
def quot_name (name : List Char) : Option (List Char) :=
  if name = "quot;".toList then some ['"'] else none

theorem quot_name_le (name chars : List Char) (h : quot_name name = some chars) :
    chars.length ≤ name.length := by
  unfold quot_name at h
  split at h
  · rename_i hname
    cases h
    rw [hname]
    decide
  · cases h

theorem a_path_is_put_into_the_form :
    Uninjected quot_name (fun _ => .ok ()) (login_get fun _ => .ok ()) "/oauth/authorize?a=1&b=2" ∧
      Uninjected quot_name (fun _ => .ok ())
        (login_post (fun _ => .ok ()) login_settings (fun _ _ => [1])
          ⟨1000, session_cookie.in_range⟩ "mcp-admin" "wrong") "/oauth/authorize?a=1&b=2" := by
  have hiff := login_form_iff quot_name_le (fun _ => .ok ()) login_settings (fun _ _ => [1])
    ⟨1000, session_cookie.in_range⟩ "mcp-admin" "wrong" "/oauth/authorize?a=1&b=2"
    (by decide +kernel)
  have hparse : urlparse (fun _ => .ok ()) "/oauth/authorize?a=1&b=2" = .ok ⟨[], []⟩ :=
    urlparse_plain (by decide) (by decide)
  have hplain : Plain quot_name "/oauth/authorize?a=1&b=2".toList := by
    constructor
    all_goals decide
  have hparameter : PlainParameter quot_name (fun _ => .ok ()) "/oauth/authorize?a=1&b=2" :=
    ⟨_, hparse, Or.inr (Or.inr hplain)⟩
  exact ⟨hiff.1.mpr hparameter, hiff.2.mpr hparameter⟩

/-- A quote and a greater sign end the hidden input. -/
theorem a_quote_ends_the_hidden_input :
    ¬ ∀ named : List Char → Option (List Char),
      (∀ name chars, named name = some chars → chars.length ≤ name.length) →
      ∀ check_netloc settings mac now username password next,
        credentials_valid settings username password = false →
        Uninjected named check_netloc (login_get check_netloc) next ∧
          Uninjected named check_netloc
            (login_post check_netloc settings mac now username password) next := by
  intro h
  have hget := (h quot_name quot_name_le (fun _ => .ok ()) login_settings (fun _ _ => [1])
    ⟨1000, session_cookie.in_range⟩ "mcp-admin" "wrong" "\"><script>alert(1)</script>"
    (by decide)).1
  have hnone : "" ∈ errors := List.mem_cons_self
  obtain ⟨parsed, hparsed, hplain⟩ := (uninjected_iff quot_name_le hnone (fun _ => rfl) _).mp hget
  have hseen : urlparse (fun _ => .ok ()) "\"><script>alert(1)</script>" = .ok ⟨[], []⟩ :=
    urlparse_plain (by decide) (by decide)
  rw [hseen] at hparsed
  rw [← Except.ok.inj hparsed] at hplain
  rcases hplain with hscheme | hnetloc | hplain
  · exact hscheme rfl
  · exact hnetloc rfl
  · exact hplain.no_quote (by decide)

end trading_platform.mcp_server
