-- The signed session cookie: the payload in base64url without padding, a dot, and the MAC of
-- what is before the dot. HMAC-SHA256 is a parameter.
import TradingPlatform.McpServer.OAuth
import TradingPlatform.Shared.JsonText

open trading_platform.shared
open url

namespace trading_platform.mcp_server.session_cookie

/-! ## Signing -/

/-- `int(time.time())`. The clock is a float, so its seconds are below `2 ^ 1024`. -/
structure Time where
  seconds : Int
  bounded : seconds.natAbs < 2 ^ 1024

theorem in_range : (1000 : Int).natAbs < 2 ^ 1024 := by decide +kernel

theorem in_range_later : (1060 : Int).natAbs < 2 ^ 1024 := by decide +kernel

def dot : CodePoint := code_point '.'

/-- `digest.hex()`. -/
def hexdigest (digest : List UInt8) : List Char :=
  digest.flatMap fun b => [Nat.digitChar (b.toNat / 16), Nat.digitChar (b.toNat % 16)]

section Cookie

-- `hmac.new(key, message, hashlib.sha256).digest()`
variable (mac : List UInt8 → List UInt8 → List UInt8)

def b64 (data : List Char) : PyStr := py_str (base64url (utf8 data)).toList

def sign (b64_payload : PyStr) (secret : String) : Except PyErr PyStr := do
  let message ← py_encode b64_payload
  return py_str (hexdigest (mac (utf8 secret.toList) message))

/-- The payload of a cookie. -/
def payload (user_id : String) (now : Time) : List (List Char × Flat) :=
  [("user_id".toList, .str user_id.toList), ("ts".toList, .int now.seconds)]

def create_session_cookie (user_id secret : String) (now : Time) : Except PyErr PyStr := do
  let b64 := b64 (dumps_dict (payload user_id now))
  let sig ← sign mac b64 secret
  return b64 ++ dot :: sig

/-! ## Verifying -/

/-- What `urlsafe_b64decode` makes of the characters of the URL-safe alphabet. -/
def unurlsafe (c : Char) : Char := if c = '-' then '+' else if c = '_' then '/' else c

def encode_ascii (data : PyStr) : Except PyErr (List Char) :=
  match text_of data with
  | some text =>
    if text.all (·.toNat < 128) then .ok text
    else .error ⟨"ValueError", "string argument should contain only ASCII characters"⟩
  | none => .error ⟨"ValueError", "string argument should contain only ASCII characters"⟩

def unb64 (data : PyStr) : Except PyErr (List Char) := do
  let padding := (4 - data.length % 4) % 4
  let text ← encode_ascii (data ++ List.replicate padding (code_point '='))
  match base64.decode (text.map unurlsafe) with
  | .ok bytes => py_decode bytes
  | .error .one_more => .error ⟨"binascii.Error", "Invalid base64-encoded string"⟩
  | .error .padding => .error ⟨"binascii.Error", "Incorrect padding"⟩

/-- `cookie_value.rsplit(".", 1)`, if there is a dot. -/
def rsplit_dot : PyStr → Option (PyStr × PyStr)
  | [] => none
  | c :: s =>
    match rsplit_dot s with
    | some (front, back) => some (c :: front, back)
    | none => if c = dot then some ([], s) else none

/-- `secrets.compare_digest` of two strings. -/
def compare_digest (a b : PyStr) : Except PyErr Bool :=
  if (a ++ b).all (·.1 < 128) then .ok (a = b)
  else .error ⟨"TypeError", "comparing strings with non-ASCII characters is not supported"⟩

/-- `now - x` of an integer and a float, which is rounded twice. -/
def float_age (now : Int) (x : PyFloat) : Except PyErr PyFloat :=
  match PyFloat.of_decimal now with
  | .fin t =>
    match .fin t - x with
    | .fin age => .ok (.of_decimal age)
    | age => .ok age
  | _ => .error ⟨"OverflowError", "int too large to convert to float"⟩

/-- `now - ts > max_age_s`. -/
def is_older (now : Int) (ts : PyJson) (max_age_s : Int) : Except PyErr Bool :=
  match ts with
  | .int n => .ok (max_age_s < now - n)
  | .bool b => .ok (max_age_s < now - b.toNat)
  | .float x => do
    let age ← float_age now x
    return (PyFloat.fin max_age_s).lt age
  | _ => .error ⟨"TypeError", "unsupported operand type(s) for -"⟩

/-- `uid if uid else None`. -/
def user_of (uid : PyJson) : Option PyJson := if uid.truthy then some uid else none

/-- The user of a payload that is not too old. -/
def read_payload (now : Time) (payload : PyJson) (max_age_s : Int) : Except PyErr (Option PyJson) := do
  if ← is_older now.seconds (← payload.get "ts" (.int 0)) max_age_s then return none
  return user_of (← payload.get "user_id" (.str []))

/-- The body of `verify_session_cookie`. -/
def read_cookie (now : Time) (cookie_value : PyStr) (secret : String) (max_age_s : Int) :
    Except PyErr (Option PyJson) := do
  match rsplit_dot cookie_value with
  | none => .error ⟨"ValueError", "not enough values to unpack (expected 2, got 1)"⟩
  | some (b64, sig) =>
    let expected ← sign mac b64 secret
    if !(← compare_digest sig expected) then return none
    read_payload now (← loads (← unb64 b64)) max_age_s

def verify_session_cookie (now : Time) (cookie_value : PyStr) (secret : String) (max_age_s : Int) :
    Except PyErr (Option PyJson) :=
  tryCatch (read_cookie mac now cookie_value secret max_age_s) fun _ => return none

end Cookie

/-! ## The texts of a cookie -/

theorem rsplit_dot_of_not_mem {s : PyStr} (h : dot ∉ s) : rsplit_dot s = none := by
  induction s with
  | nil => rfl
  | cons c s ih =>
    have hc : c ≠ dot := fun hc => h (List.mem_cons.mpr (Or.inl hc.symm))
    rw [rsplit_dot, ih fun hs => h (List.mem_cons_of_mem c hs)]
    exact if_neg hc

/-- The last dot is the one that the text is cut at. -/
theorem rsplit_dot_append (front : PyStr) {back : PyStr} (h : dot ∉ back) :
    rsplit_dot (front ++ dot :: back) = some (front, back) := by
  induction front with
  | nil =>
    rw [List.nil_append, rsplit_dot, rsplit_dot_of_not_mem h]
    exact if_pos rfl
  | cons c front ih => rw [List.cons_append, rsplit_dot, ih]

theorem rsplit_dot_some {s front back : PyStr} (h : rsplit_dot s = some (front, back)) :
    s = front ++ dot :: back ∧ dot ∉ back := by
  by_cases hmem : dot ∈ s
  · -- cut at the last dot
    have hreverse : dot ∈ s.reverse := List.mem_reverse.mpr hmem
    obtain ⟨a, b, hs, ha⟩ := List.eq_append_cons_of_mem hreverse
    have hcut : s = b.reverse ++ dot :: a.reverse := by
      rw [← List.reverse_reverse s, hs]
      simp
    have hback : dot ∉ a.reverse := fun hin => ha (List.mem_reverse.mp hin)
    rw [hcut, rsplit_dot_append _ hback] at h
    cases h
    exact ⟨hcut, hback⟩
  · rw [rsplit_dot_of_not_mem hmem] at h
    cases h

/-! ## base64url -/

/-- What is encoded, with its padding apart: the length without it says how much it is. -/
theorem encode_padding (bytes : List UInt8) : ∃ core k, base64.encode bytes = core ++ List.replicate k '=' ∧
    (∀ c ∈ core, c ∈ base64.alphabet) ∧ k = (4 - core.length % 4) % 4 := by
  fun_induction base64.encode bytes with
  | case1 => exact ⟨[], 0, rfl, fun c hc => absurd hc List.not_mem_nil, rfl⟩
  | case2 a =>
    have ha := a.toNat_lt
    refine ⟨[base64.digit (a.toNat / 4), base64.digit (a.toNat % 4 * 16)], 2, rfl, ?_, rfl⟩
    intro c hc
    simp only [List.mem_cons, List.not_mem_nil, or_false] at hc
    rcases hc with rfl | rfl
    · exact base64.digit_mem (by omega)
    · exact base64.digit_mem (by omega)
  | case3 a b =>
    have ha := a.toNat_lt
    have hb := b.toNat_lt
    refine ⟨[base64.digit (a.toNat / 4), base64.digit (a.toNat % 4 * 16 + b.toNat / 16),
      base64.digit (b.toNat % 16 * 4)], 1, rfl, ?_, rfl⟩
    intro c hc
    simp only [List.mem_cons, List.not_mem_nil, or_false] at hc
    rcases hc with rfl | rfl | rfl
    · exact base64.digit_mem (by omega)
    · exact base64.digit_mem (by omega)
    · exact base64.digit_mem (by omega)
  | case4 a b d rest ih =>
    have ha := a.toNat_lt
    have hb := b.toNat_lt
    have hd := d.toNat_lt
    obtain ⟨core, k, heq, hcore, hk⟩ := ih
    refine ⟨base64.digit (a.toNat / 4) :: base64.digit (a.toNat % 4 * 16 + b.toNat / 16) ::
      base64.digit (b.toNat % 16 * 4 + d.toNat / 64) :: base64.digit (d.toNat % 64) :: core, k,
      by rw [heq]; rfl, ?_, ?_⟩
    · intro c hc
      simp only [List.mem_cons] at hc
      rcases hc with rfl | rfl | rfl | rfl | hc
      · exact base64.digit_mem (by omega)
      · exact base64.digit_mem (by omega)
      · exact base64.digit_mem (by omega)
      · exact base64.digit_mem (by omega)
      · exact hcore c hc
    · simp only [List.length_cons]
      omega

theorem urlsafe_ne_pad {c : Char} (h : c ∈ base64.alphabet) : urlsafe c ≠ '=' := by
  have hall : (base64.alphabet.all fun c => urlsafe c ≠ '=') = true := by
    rw [base64.alphabet_eq]
    decide
  exact of_decide_eq_true (List.all_eq_true.mp hall c h)

/-- The URL-safe characters are ASCII, and are translated back. -/
theorem unurlsafe_urlsafe {c : Char} (h : c ∈ base64.alphabet) :
    unurlsafe (urlsafe c) = c ∧ (urlsafe c).toNat < 128 := by
  have hall : (base64.alphabet.all fun c =>
      unurlsafe (urlsafe c) = c ∧ (urlsafe c).toNat < 128) = true := by
    rw [base64.alphabet_eq]
    decide
  exact of_decide_eq_true (List.all_eq_true.mp hall c h)

theorem base64url_eq {bytes : List UInt8} {core : List Char} {k : Nat}
    (h : base64.encode bytes = core ++ List.replicate k '=')
    (hcore : ∀ c ∈ core, c ∈ base64.alphabet) : (base64url bytes).toList = core.map urlsafe := by
  have hpads : ∀ c ∈ List.replicate k '=', decide (c = '=') = true := by
    intro c hc
    exact decide_eq_true (List.eq_of_mem_replicate hc)
  have hkept : (core.map urlsafe).reverse.dropWhile (· = '=') = (core.map urlsafe).reverse := by
    rw [List.dropWhile_eq_self_iff]
    intro hlength hpad
    obtain ⟨c, hc, heq⟩ := List.mem_map.mp (List.mem_reverse.mp (List.getElem_mem hlength))
    exact urlsafe_ne_pad (hcore c hc) (heq.trans (of_decide_eq_true hpad))
  have hpad : urlsafe '=' = '=' := by decide
  unfold base64url
  rw [String.toList_ofList, h, List.map_append, List.map_replicate, hpad, List.reverse_append,
    List.reverse_replicate, List.dropWhile_append_of_pos hpads, hkept, List.reverse_reverse]

/-- What is encoded is decoded, whatever padding was taken from it. -/
theorem unb64_b64 (data : List Char) : unb64 (b64 data) = .ok data := by
  obtain ⟨core, k, hencode, hcore, hk⟩ := encode_padding (utf8 data)
  have hascii : encode_ascii (py_str (core.map urlsafe) ++ List.replicate k (code_point '=')) =
      .ok (core.map urlsafe ++ List.replicate k '=') := by
    have happend : py_str (core.map urlsafe) ++ List.replicate k (code_point '=') =
        py_str (core.map urlsafe ++ List.replicate k '=') := by
      simp [py_str]
    have hall : (core.map urlsafe ++ List.replicate k '=').all (·.toNat < 128) = true := by
      rw [List.all_eq_true]
      intro c hc
      rcases List.mem_append.mp hc with hc | hc
      · obtain ⟨d, hd, rfl⟩ := List.mem_map.mp hc
        exact decide_eq_true (unurlsafe_urlsafe (hcore d hd)).2
      · rw [List.eq_of_mem_replicate hc]
        rfl
    unfold encode_ascii
    rw [happend, text_of_py_str]
    exact if_pos hall
  have htranslate : (core.map urlsafe ++ List.replicate k '=').map unurlsafe = base64.encode (utf8 data) := by
    have hcore' : (core.map urlsafe).map unurlsafe = core := by
      rw [List.map_map]
      exact (List.map_congr_left fun c hc => (unurlsafe_urlsafe (hcore c hc)).1).trans (List.map_id core)
    have hpad : unurlsafe '=' = '=' := by decide
    rw [List.map_append, hcore', List.map_replicate, hpad, hencode]
  have hlength : (py_str (core.map urlsafe)).length = core.length := by simp [py_str]
  unfold unb64 b64
  rw [base64url_eq hencode hcore, hlength, ← hk]
  simp only [hascii, bind, Except.bind]
  rw [htranslate, base64.decode_encode]
  exact py_decode_utf8 data

/-! ## What is signed -/

theorem mem_hexdigest {digest : List UInt8} {c : Char} (h : c ∈ hexdigest digest) :
    c.toNat < 128 ∧ c ≠ '.' := by
  obtain ⟨b, -, hc⟩ := List.mem_flatMap.mp h
  have hb := b.toNat_lt
  have hdigit : ∀ n : Fin 16, (Nat.digitChar n.1).toNat < 128 ∧ Nat.digitChar n.1 ≠ '.' := by
    decide
  simp only [List.mem_cons, List.not_mem_nil, or_false] at hc
  rcases hc with rfl | rfl
  · exact hdigit ⟨_, by omega⟩
  · exact hdigit ⟨_, by omega⟩

section Signed

variable {mac : List UInt8 → List UInt8 → List UInt8} {secret : String}

/-- A signature is ASCII and has no dot. -/
theorem of_sign {b64_payload sig : PyStr} (h : sign mac b64_payload secret = .ok sig) :
    (∀ p ∈ sig, p.1 < 128) ∧ dot ∉ sig := by
  unfold sign at h
  cases hmessage : py_encode b64_payload with
  | error e =>
    rw [hmessage] at h
    cases h
  | ok message =>
    rw [hmessage] at h
    cases h
    constructor
    · intro p hp
      obtain ⟨c, hc, rfl⟩ := List.mem_map.mp hp
      exact (mem_hexdigest hc).1
    · intro hdot
      obtain ⟨c, hc, heq⟩ := List.mem_map.mp hdot
      have hchar : some c = some '.' := by
        rw [← char_of_code_point c, ← char_of_code_point '.', heq, dot]
      exact (mem_hexdigest hc).2 (Option.some.inj hchar)

theorem sign_b64 (mac : List UInt8 → List UInt8 → List UInt8) (secret : String) (data : List Char) :
    ∃ sig, sign mac (b64 data) secret = .ok sig := by
  refine ⟨py_str (hexdigest (mac (utf8 secret.toList) (utf8 (base64url (utf8 data)).toList))), ?_⟩
  unfold sign b64 py_encode
  rw [text_of_py_str]
  rfl

theorem eq_of_compare_digest {a b : PyStr} (h : compare_digest a b = .ok true) : a = b := by
  unfold compare_digest at h
  split at h
  · exact of_decide_eq_true (Except.ok.inj h)
  · cases h

theorem compare_digest_self {sig : PyStr} (h : ∀ p ∈ sig, p.1 < 128) :
    compare_digest sig sig = .ok true := by
  have hall : (sig ++ sig).all (·.1 < 128) = true := by
    rw [List.all_eq_true]
    intro p hp
    exact decide_eq_true (h p ((List.mem_append.mp hp).elim id id))
  unfold compare_digest
  rw [if_pos hall, decide_eq_true rfl]

theorem read_payload_dict (now : Time) (fields : List (PyStr × PyJson)) (max_age_s : Int) :
    read_payload now (.dict fields) max_age_s =
      (is_older now.seconds ((PyJson.lookup "ts" fields).getD (.int 0)) max_age_s).map fun older =>
        if older then none else user_of ((PyJson.lookup "user_id" fields).getD (.str [])) := by
  unfold read_payload
  simp only [PyJson.get, bind, Except.bind]
  cases is_older now.seconds ((PyJson.lookup "ts" fields).getD (.int 0)) max_age_s with
  | error e => rfl
  | ok older =>
    cases older with
    | true => rfl
    | false => rfl

/-- A cookie with a signature of its own is read up to its payload. -/
theorem read_cookie_signed {now : Time} {data : List Char} {sig : PyStr} {max_age_s : Int}
    {payload : PyJson} (hsign : sign mac (b64 data) secret = .ok sig) (hloads : loads data = .ok payload) :
    read_cookie mac now (b64 data ++ dot :: sig) secret max_age_s =
      read_payload now payload max_age_s := by
  obtain ⟨hascii, hdot⟩ := of_sign hsign
  unfold read_cookie
  rw [rsplit_dot_append _ hdot]
  simp only [hsign, compare_digest_self hascii, unb64_b64, hloads, bind, Except.bind]
  rfl

end Signed

theorem lookup_payload (user_id : String) (now : Time) :
    PyJson.lookup "ts" (read_fields (payload user_id now)) = some (.int now.seconds) ∧
      PyJson.lookup "user_id" (read_fields (payload user_id now)) =
        some (.str (py_str user_id.toList)) := by
  have hts : py_str "ts".toList ≠ py_str "user_id".toList := by decide
  have hfields : (read_fields (payload user_id now)).reverse =
      [(py_str "ts".toList, .int now.seconds),
        (py_str "user_id".toList, .str (py_str user_id.toList))] := rfl
  unfold PyJson.lookup
  rw [hfields]
  constructor
  · rw [List.find?_cons_of_pos (by simp)]
    rfl
  · rw [List.find?_cons_of_neg (by simpa only [decide_eq_true_eq] using hts),
      List.find?_cons_of_pos (by simp)]
    rfl

theorem readable_payload (user_id : String) (now : Time) :
    ∀ f ∈ payload user_id now, f.2.Readable := by
  intro f hf
  simp only [payload, List.mem_cons, List.not_mem_nil, or_false] at hf
  rcases hf with rfl | rfl
  · trivial
  · have hbound := now.bounded
    have hlength : (Nat.toDigits 10 now.seconds.natAbs).length ≤ 400 := by
      rw [Nat.length_toDigits_le_iff (by decide) (by decide)]
      exact Nat.lt_trans hbound (by decide +kernel)
    exact Nat.le_trans hlength (by decide)

/-! ## Round trip -/

theorem read_cookie_created {mac : List UInt8 → List UInt8 → List UInt8} {secret : String}
    {user_id : String} {created now : Time} {cookie : PyStr} {max_age_s : Int}
    (h : create_session_cookie mac user_id secret created = .ok cookie) :
    read_cookie mac now cookie secret max_age_s =
      read_payload now (.dict (read_fields (payload user_id created))) max_age_s := by
  obtain ⟨sig, hsign⟩ := sign_b64 mac secret (dumps_dict (payload user_id created))
  have hloads := loads_dumps_dict (List.cons_ne_nil _ _) (readable_payload user_id created)
  unfold create_session_cookie at h
  dsimp only at h
  rw [hsign] at h
  rw [← Except.ok.inj h]
  exact read_cookie_signed hsign hloads

/-- The user of a payload of the server's own, while it is fresh. -/
theorem read_payload_created {user_id : String} (hne : user_id ≠ "") (created now : Time)
    (max_age_s : Int) :
    read_payload now (.dict (read_fields (payload user_id created))) max_age_s =
      .ok (if now.seconds - created.seconds ≤ max_age_s then some (.str (py_str user_id.toList))
        else none) := by
  obtain ⟨hts, huser⟩ := lookup_payload user_id created
  have huid : user_of (.str (py_str user_id.toList)) = some (.str (py_str user_id.toList)) := by
    have hlist : user_id.toList ≠ [] := by simpa using hne
    simp [user_of, PyJson.truthy, py_str, hlist]
  rw [read_payload_dict, hts, huser, Option.getD_some, Option.getD_some, huid, is_older,
    Except.map]
  by_cases h : now.seconds - created.seconds ≤ max_age_s
  · rw [decide_eq_false (Int.not_lt.mpr h), if_pos h]
    rfl
  · rw [decide_eq_true (Int.not_le.mp h), if_neg h]
    rfl

/-! ## What is accepted -/

section Accepted

variable (mac : List UInt8 → List UInt8 → List UInt8) (secret : String)

/-- A cookie that the secret has signed, and the fields of its payload. -/
structure Signed (cookie b64 sig : PyStr) (fields : List (PyStr × PyJson)) : Prop where
  cut : cookie = b64 ++ dot :: sig
  last_dot : dot ∉ sig
  signed : sign mac b64 secret = .ok sig
  decoded : ∃ text, unb64 b64 = .ok text ∧ loads text = .ok (.dict fields)

/-- A number that is no older time than `max_age_s` before the other one. The age of a float is
rounded, and one that is no number is not more than anything. -/
def NotOlder (now max_age_s : Int) : PyJson → Prop
  | .int n => now - n ≤ max_age_s
  | .bool b => now - b.toNat ≤ max_age_s
  | .float x => ∃ age, float_age now x = .ok age ∧ (PyFloat.fin max_age_s).lt age = false
  | _ => False

end Accepted

theorem not_older_of_is_older {now max_age_s : Int} {ts : PyJson}
    (h : is_older now ts max_age_s = .ok false) : NotOlder now max_age_s ts := by
  unfold is_older at h
  split at h
  · exact Int.not_lt.mp (of_decide_eq_false (Except.ok.inj h))
  · exact Int.not_lt.mp (of_decide_eq_false (Except.ok.inj h))
  · rename_i x
    cases hage : float_age now x with
    | error e =>
      rw [hage] at h
      cases h
    | ok age =>
      rw [hage] at h
      exact ⟨age, hage, Except.ok.inj h⟩
  · cases h

/-- A user of a payload is the one of a fresh dict. -/
theorem of_read_payload {now : Time} {payload uid : PyJson} {max_age_s : Int}
    (h : read_payload now payload max_age_s = .ok (some uid)) :
    ∃ fields, payload = .dict fields ∧ PyJson.lookup "user_id" fields = some uid ∧
      NotOlder now.seconds max_age_s ((PyJson.lookup "ts" fields).getD (.int 0)) := by
  cases payload with
  | dict fields =>
    refine ⟨fields, rfl, ?_⟩
    rw [read_payload_dict] at h
    cases holder : is_older now.seconds ((PyJson.lookup "ts" fields).getD (.int 0)) max_age_s with
    | error e =>
      rw [holder] at h
      cases h
    | ok older =>
      rw [holder] at h
      cases older with
      | true => cases h
      | false =>
        refine ⟨?_, not_older_of_is_older holder⟩
        have huid : user_of ((PyJson.lookup "user_id" fields).getD (.str [])) = some uid :=
          Except.ok.inj h
        cases huser : PyJson.lookup "user_id" fields with
        | none =>
          rw [huser] at huid
          cases huid
        | some user =>
          rw [huser, Option.getD_some, user_of] at huid
          split at huid
          · exact huid
          · cases huid
  | _ => cases h

/-! ## The session cookie -/

theorem verify_of_read {mac : List UInt8 → List UInt8 → List UInt8} {now : Time} {cookie : PyStr}
    {secret : String} {max_age_s : Int} {user : Option PyJson}
    (h : read_cookie mac now cookie secret max_age_s = .ok user) :
    verify_session_cookie mac now cookie secret max_age_s = .ok user := by
  unfold verify_session_cookie
  rw [h]
  rfl

/-- Whatever is raised, the answer is `None`. -/
theorem verify_ok (mac : List UInt8 → List UInt8 → List UInt8) (now : Time) (cookie : PyStr)
    (secret : String) (max_age_s : Int) :
    ∃ user, verify_session_cookie mac now cookie secret max_age_s = .ok user ∧
      ∀ uid, user = some uid → read_cookie mac now cookie secret max_age_s = .ok (some uid) := by
  unfold verify_session_cookie
  cases read_cookie mac now cookie secret max_age_s with
  | error e => exact ⟨none, rfl, fun uid h => nomatch h⟩
  | ok user => exact ⟨user, rfl, fun uid h => congrArg Except.ok h⟩

/-- A user is read only from a cookie that the secret has signed. -/
theorem of_read_cookie {mac : List UInt8 → List UInt8 → List UInt8} {now : Time} {cookie : PyStr}
    {secret : String} {max_age_s : Int} {uid : PyJson}
    (h : read_cookie mac now cookie secret max_age_s = .ok (some uid)) :
    ∃ b64 sig fields, Signed mac secret cookie b64 sig fields ∧
      PyJson.lookup "user_id" fields = some uid ∧
      NotOlder now.seconds max_age_s ((PyJson.lookup "ts" fields).getD (.int 0)) := by
  unfold read_cookie at h
  cases hcut : rsplit_dot cookie with
  | none =>
    rw [hcut] at h
    cases h
  | some parts =>
    obtain ⟨b64, sig⟩ := parts
    obtain ⟨heq, hdot⟩ := rsplit_dot_some hcut
    rw [hcut] at h
    dsimp only at h
    cases hsign : sign mac b64 secret with
    | error e =>
      rw [hsign] at h
      cases h
    | ok expected =>
      rw [hsign] at h
      simp only [bind, Except.bind] at h
      cases hdigest : compare_digest sig expected with
      | error e =>
        rw [hdigest] at h
        cases h
      | ok same =>
        rw [hdigest] at h
        cases same with
        | false => cases h
        | true =>
          have hsame := eq_of_compare_digest hdigest
          subst hsame
          dsimp only at h
          cases htext : unb64 b64 with
          | error e =>
            rw [htext] at h
            cases h
          | ok text =>
            rw [htext] at h
            dsimp only at h
            cases hloads : loads text with
            | error e =>
              rw [hloads] at h
              cases h
            | ok payload =>
              rw [hloads] at h
              obtain ⟨fields, rfl, huser, hfresh⟩ := of_read_payload h
              exact ⟨b64, sig, fields, ⟨heq, hdot, hsign, text, htext, hloads⟩, huser, hfresh⟩

/-- A cookie gives its user while it is fresh and `None` afterwards; and whatever the cookie is,
nothing is raised, and a user is given only if the secret has signed what is before the last
dot, and that is a dict with this user and with a time that is not too old. Without a time, it is
of time 0. -/
theorem session_cookies_round_trip (mac : List UInt8 → List UInt8 → List UInt8) (secret : String) :
    (∀ (user_id : String) (created now : Time) (max_age_s : Int), user_id ≠ "" →
      ∃ cookie, create_session_cookie mac user_id secret created = .ok cookie ∧
        verify_session_cookie mac now cookie secret max_age_s =
          .ok (if now.seconds - created.seconds ≤ max_age_s then
            some (.str (py_str user_id.toList)) else none)) ∧
    ∀ (cookie : PyStr) (now : Time) (max_age_s : Int),
      ∃ user, verify_session_cookie mac now cookie secret max_age_s = .ok user ∧
        ∀ uid, user = some uid → ∃ b64 sig fields, Signed mac secret cookie b64 sig fields ∧
          PyJson.lookup "user_id" fields = some uid ∧
          NotOlder now.seconds max_age_s ((PyJson.lookup "ts" fields).getD (.int 0)) := by
  constructor
  · intro user_id created now max_age_s hne
    obtain ⟨sig, hsign⟩ := sign_b64 mac secret (dumps_dict (payload user_id created))
    have hcreate : create_session_cookie mac user_id secret created =
        .ok (b64 (dumps_dict (payload user_id created)) ++ dot :: sig) := by
      unfold create_session_cookie
      dsimp only
      rw [hsign]
      rfl
    refine ⟨_, hcreate, verify_of_read ?_⟩
    rw [read_cookie_created hcreate, read_payload_created hne]
  · intro cookie now max_age_s
    obtain ⟨user, hverify, hread⟩ := verify_ok mac now cookie secret max_age_s
    exact ⟨user, hverify, fun uid huser => of_read_cookie (hread uid huser)⟩

theorem the_cookie_of_alice_is_read :
    ∃ cookie, create_session_cookie (fun _ _ => [1]) "alice" "secret" ⟨1000, in_range⟩ =
        .ok cookie ∧
      verify_session_cookie (fun _ _ => [1]) ⟨1060, in_range_later⟩ cookie "secret" 86400 =
        .ok (some (.str (py_str "alice".toList))) := by
  have hcookie := (session_cookies_round_trip (fun _ _ => [1]) "secret").1 "alice"
    ⟨1000, in_range⟩ ⟨1060, in_range_later⟩ 86400 (by decide +kernel)
  rwa [if_pos (by decide)] at hcookie

/-- The payload `{"user_id":"alice"}` has no time. -/
theorem a_payload_without_a_time_is_accepted :
    ¬ ∀ mac secret cookie (now : Time) (max_age_s : Int),
      ∃ user, verify_session_cookie mac now cookie secret max_age_s = .ok user ∧
        ∀ uid, user = some uid → ∃ b64 sig fields ts, Signed mac secret cookie b64 sig fields ∧
          PyJson.lookup "user_id" fields = some uid ∧
          PyJson.lookup "ts" fields = some ts ∧ NotOlder now.seconds max_age_s ts := by
  intro h
  let fields : List (List Char × Flat) := [("user_id".toList, .str "alice".toList)]
  let now : Time := ⟨1000, in_range⟩
  have hsign : sign (fun _ _ => [1]) (b64 (dumps_dict fields)) "secret" = .ok (py_str ['0', '1']) := by
    unfold sign b64 py_encode
    rw [text_of_py_str]
    rfl
  have hloads : loads (dumps_dict fields) = .ok (.dict (read_fields fields)) := by
    apply loads_dumps_dict (List.cons_ne_nil _ _)
    intro f hf
    rw [List.mem_singleton.mp hf]
    trivial
  have hlist : (read_fields fields).reverse =
      [(py_str "user_id".toList, .str (py_str "alice".toList))] := rfl
  have hno : PyJson.lookup "ts" (read_fields fields) = none := by
    have hne : py_str "user_id".toList ≠ py_str "ts".toList := by decide
    rw [PyJson.lookup, hlist,
      List.find?_cons_of_neg (by simpa only [decide_eq_true_eq] using hne)]
    rfl
  have halice : PyJson.lookup "user_id" (read_fields fields) =
      some (.str (py_str "alice".toList)) := by
    rw [PyJson.lookup, hlist, List.find?_cons_of_pos (by simp)]
    rfl
  have hread : read_cookie (fun _ _ => [1]) now (b64 (dumps_dict fields) ++ dot :: py_str ['0', '1'])
      "secret" 2000 = .ok (some (.str (py_str "alice".toList))) := by
    rw [read_cookie_signed hsign hloads, read_payload_dict, hno, halice]
    rfl
  obtain ⟨user, hverify, hsigned⟩ := h (fun _ _ => [1]) "secret"
    (b64 (dumps_dict fields) ++ dot :: py_str ['0', '1']) now 2000
  rw [verify_of_read hread] at hverify
  obtain ⟨b, sig, found, ts, ⟨hcut, hdot, -, text, htext, hfound⟩, -, hts, -⟩ :=
    hsigned _ (Except.ok.inj hverify).symm
  have hparts := rsplit_dot_append (b64 (dumps_dict fields)) (of_sign hsign).2
  rw [hcut, rsplit_dot_append b hdot] at hparts
  obtain ⟨rfl, -⟩ := Prod.mk.inj (Option.some.inj hparts)
  rw [unb64_b64] at htext
  rw [← Except.ok.inj htext, hloads] at hfound
  rw [← PyJson.dict.inj (Except.ok.inj hfound), hno] at hts
  cases hts

end trading_platform.mcp_server.session_cookie
