-- The API credentials of an exchange account: how `CredentialStore` encrypts and
-- stores them, how it reads them, and how `AccountContextLoader` reads them.
import TradingPlatform.Lib.Base64
import TradingPlatform.Lib.Table
import TradingPlatform.Execution.Database

open keyed
open trading_platform.shared

namespace trading_platform.execution

abbrev Bytes : Type := List UInt8

/-! ## Texts and bytes -/

/-- `text.encode("utf-8")`. A lone surrogate raises here; it is no character of
these texts. -/
def utf8 (text : String) : Bytes := text.toUTF8.data.toList

/-- `data.decode("utf-8")`. -/
def ofUtf8 (data : Bytes) : Except PyErr String :=
  match String.fromUTF8? ⟨data.toArray⟩ with
  | some text => .ok text
  | none => .error ⟨"UnicodeDecodeError", "'utf-8' codec can't decode"⟩

theorem ofUtf8_utf8 (text : String) : ofUtf8 (utf8 text) = .ok text := by
  unfold ofUtf8 utf8
  rw [Array.toArray_toList]
  have hdecoded : String.fromUTF8? text.toUTF8 = some text := dif_pos text.isValidUTF8
  rw [show (⟨text.toUTF8.data⟩ : ByteArray) = text.toUTF8 from rfl, hdecoded]

/-- `base64.b64encode(data).decode("ascii")`. -/
def b64encode (data : Bytes) : String := String.ofList (base64.encode data)

/-- `base64.b64decode(text)`, which does not validate. -/
def b64decode (text : String) : Except PyErr Bytes :=
  if text.toList.any (128 ≤ ·.toNat) then
    .error ⟨"ValueError", "string argument should contain only ASCII characters"⟩
  else match base64.decode text.toList with
    | .ok data => .ok data
    | .error .one_more => .error ⟨"binascii.Error", "Invalid base64-encoded string"⟩
    | .error .padding => .error ⟨"binascii.Error", "Incorrect padding"⟩

/-- `base64.urlsafe_b64decode(text)`. -/
def urlsafe_b64decode (text : String) : Except PyErr Bytes :=
  b64decode (text.map fun c => if c = '-' then '+' else if c = '_' then '/' else c)

/-- What is encoded is ASCII, and it has no separator in it. -/
theorem encode_ascii {data : Bytes} {c : Char} (h : c ∈ base64.encode data) :
    c.toNat < 128 ∧ c ≠ '|' := by
  have hall : base64.alphabet.all (fun c => c.toNat < 128 && c != '|') = true := by
    decide +kernel
  rcases base64.mem_encode h with h | rfl
  · simpa using List.all_eq_true.mp hall c h
  · decide

theorem b64decode_of_ascii {text : List Char} (h : ∀ c ∈ text, c.toNat < 128) {data : Bytes}
    (hdecode : base64.decode text = .ok data) : b64decode (String.ofList text) = .ok data := by
  unfold b64decode
  rw [String.toList_ofList, if_neg, hdecode]
  intro hany
  obtain ⟨c, hc, hle⟩ := List.any_eq_true.mp hany
  exact absurd (h c hc) (not_lt.mpr (of_decide_eq_true hle))

theorem b64decode_b64encode (data : Bytes) : b64decode (b64encode data) = .ok data :=
  b64decode_of_ascii (fun _ hc => (encode_ascii hc).1) (base64.decode_encode data)

/-! ## The encryption -/

/-- What the library gives: AES-GCM, and SHA-256. -/
structure Crypto where
  sha256 : Bytes → Bytes
  encrypt : (key nonce plaintext : Bytes) → Bytes
  /-- `none` is `InvalidTag`. -/
  decrypt : (key nonce ciphertext : Bytes) → Option Bytes

/-- AES-GCM decrypts what it encrypted under the same key and nonce, and rejects
it under any other ones. -/
structure Crypto.Sound (crypto : Crypto) : Prop where
  opens : ∀ key nonce plaintext,
    crypto.decrypt key nonce (crypto.encrypt key nonce plaintext) = some plaintext
  rejects : ∀ key nonce plaintext key' nonce', (key', nonce') ≠ (key, nonce) →
    crypto.decrypt key' nonce' (crypto.encrypt key nonce plaintext) = none

/-- A value of `os.urandom(12)`. -/
abbrev Nonce : Type := {bytes : Bytes // bytes.length = 12}

variable (crypto : Crypto)

/-- `get_encryption_key`. -/
def get_encryption_key (key_b64 : String) : Except PyErr Bytes := do
  let padding := if key_b64.length % 4 = 0 then "" else
    String.ofList (List.replicate (4 - key_b64.length % 4) '=')
  let raw ← urlsafe_b64decode (key_b64 ++ padding)
  if raw.length < 32 then
    throw ⟨"ValueError", s!"Encryption key must be at least 32 bytes, got {raw.length}"⟩
  else return raw.take 32

/-- `encrypt`: the texts of the ciphertext and of the nonce. -/
def encrypt (nonce : Nonce) (plaintext : String) (key : Bytes) : String × String :=
  (b64encode (crypto.encrypt key nonce.1 (utf8 plaintext)), b64encode nonce.1)

def invalid_tag : PyErr := ⟨"InvalidTag", ""⟩

/-- `AESGCM(key).decrypt(nonce, ciphertext, None).decode("utf-8")`. -/
def opened (key nonce ciphertext : Bytes) : Except PyErr String :=
  match crypto.decrypt key nonce ciphertext with
  | none => .error invalid_tag
  | some plaintext => ofUtf8 plaintext

/-- `decrypt`. -/
def decrypt (ciphertext_b64 nonce_b64 : String) (key : Bytes) : Except PyErr String := do
  let ciphertext ← b64decode ciphertext_b64
  let nonce ← b64decode nonce_b64
  opened crypto key nonce ciphertext

/-- `decrypt_credential` of the execution service, with its own key. -/
def decrypt_credential (ciphertext_b64 iv_b64 secret_key : String) : Except PyErr String :=
  let key := crypto.sha256 (utf8 secret_key)
  let plaintext := do
    let iv ← b64decode iv_b64
    let ct ← b64decode ciphertext_b64
    opened crypto key iv ct
  match plaintext with
  | .ok text => .ok text
  | .error exc => .error ⟨"ValueError", s!"Credential decryption failed: {exc.msg}"⟩

/-! ## The store -/

/-- A row of `api_credentials_ref`, with its columns. -/
structure CredentialRow extends ApiCredentialRef where
  credential_type : String
  encrypted_key : String
  encrypted_secret : String
  iv : String

/-- The row with other texts. -/
def CredentialRow.rewrite (enc_k enc_s iv : String) (ref : CredentialRow) : CredentialRow :=
  { ref with encrypted_key := enc_k, encrypted_secret := enc_s, iv }

def CredentialRow.key (row : CredentialRow) : Uuid := row.account_id

/-- The ids of the exchange accounts, and the credential rows. The column
`account_id` of a row is unique. -/
structure CredentialDb where
  accounts : List Uuid
  refs : Table CredentialRow CredentialRow.key

def CredentialDb.empty (accounts : List Uuid) : CredentialDb := ⟨accounts, Table.empty⟩

/-- `ref.iv.split("|", 1)`: the first part, and the second one or else the first. -/
def iv_parts (iv : String) : String × String :=
  let iv_k := iv.toList.takeWhile (· ≠ '|')
  match iv.toList.dropWhile (· ≠ '|') with
  | [] => (String.ofList iv_k, String.ofList iv_k)
  | _ :: iv_s => (String.ofList iv_k, String.ofList iv_s)

structure CredentialStore where
  key : Option Bytes

namespace CredentialStore

/-- `CredentialStore(session_factory, encryption_key_b64)`. -/
def init (encryption_key_b64 : String) : CredentialStore where
  key := if encryption_key_b64 = "" then none else (get_encryption_key encryption_key_b64).toOption

variable (self : CredentialStore)

def require_key : Except PyErr Bytes :=
  match self.key with
  | some key => .ok key
  | none => .error ⟨"RuntimeError", "CREDENTIAL_ENCRYPTION_KEY is not configured — " ++
      "set it to a base64url-encoded 32-byte value"⟩

/-- `save`, which draws a nonce for the key and one for the secret. -/
def save (nonce_k nonce_s : Nonce) (account_id : Uuid) (api_key api_secret : String)
    (db : CredentialDb) : Except PyErr CredentialDb := do
  let key ← self.require_key
  let (enc_k, iv_k) := encrypt crypto nonce_k api_key key
  let (enc_s, iv_s) := encrypt crypto nonce_s api_secret key
  let combined_iv := iv_k ++ "|" ++ iv_s
  let new : CredentialRow := {
    account_id
    credential_type := "hmac"
    encrypted_key := enc_k
    encrypted_secret := enc_s
    iv := combined_iv }
  if (db.refs.find account_id).isNone ∧ account_id ∉ db.accounts then
    throw (integrity_error "account_id")
  else
    return { db with
      refs := db.refs.upsert new (CredentialRow.rewrite enc_k enc_s combined_iv) fun _ => rfl }

/-- What `get` reads of a row. -/
def readout (key : Bytes) (ref : CredentialRow) : Option (String × String) :=
  let (iv_k, iv_s) := iv_parts ref.iv
  match decrypt crypto ref.encrypted_key iv_k key, decrypt crypto ref.encrypted_secret iv_s key with
  | .ok api_key, .ok api_secret => some (api_key, api_secret)
  | _, _ => none

/-- `get`. -/
def get (account_id : Uuid) (db : CredentialDb) : Except PyErr (Option (String × String)) := do
  let key ← self.require_key
  return (db.refs.find account_id).bind (readout crypto key)

/-- `delete`. -/
def delete (account_id : Uuid) (db : CredentialDb) : CredentialDb :=
  { db with refs := db.refs.erase account_id }

end CredentialStore

namespace AccountContextLoader

/-- What `decrypt_credentials` reads of a row. -/
def readout (secret_key : String) (cred : CredentialRow) : Option (String × String) :=
  match decrypt_credential crypto cred.encrypted_key cred.iv secret_key,
      decrypt_credential crypto cred.encrypted_secret cred.iv secret_key with
  | .ok api_key, .ok api_secret => some (api_key, api_secret)
  | _, _ => none

/-- `decrypt_credentials` of a loader with this secret key. -/
def decrypt_credentials (secret_key account_id : String) (db : CredentialDb) :
    Option (String × String) :=
  if secret_key = "" then none
  else match UUID account_id with
    | .error _ => none
    | .ok account_uuid => (db.refs.find account_uuid).bind (readout crypto secret_key)

end AccountContextLoader

end trading_platform.execution
