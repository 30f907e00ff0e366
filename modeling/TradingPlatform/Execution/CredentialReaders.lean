-- The two readers of the stored credentials. The store reads what it saved. The
-- context loader derives another key, and it reads the two nonces as one.
import TradingPlatform.Execution.Credentials

open keyed
open trading_platform.shared

namespace trading_platform.execution

/-! ## Runs of the store -/

inductive CredentialOp where
  | save (account_id : Uuid) (api_key api_secret : String) (nonce_k nonce_s : Nonce)
  | delete (account_id : Uuid)

/-- The pair last saved for each account. -/
abbrev Pairs : Type := Uuid → Option (String × String)

/-- What an operation does to the pairs. A pair is saved for an account that
exists. -/
def Pairs.after (accounts : List Uuid) (pairs : Pairs) : CredentialOp → Pairs
  | .save account_id api_key api_secret _ _ =>
    if account_id ∈ accounts then Function.update pairs account_id (some (api_key, api_secret))
    else pairs
  | .delete account_id => Function.update pairs account_id none

def lastSaved (accounts : List Uuid) (ops : List CredentialOp) : Pairs :=
  ops.foldl (Pairs.after accounts) fun _ => none

variable (crypto : Crypto) (store : CredentialStore)

/-- The tables after an operation; a `save` that raises leaves them alone. -/
def CredentialDb.after (db : CredentialDb) : CredentialOp → CredentialDb
  | .save account_id api_key api_secret nonce_k nonce_s =>
    ((store.save crypto nonce_k nonce_s account_id api_key api_secret db).toOption).getD db
  | .delete account_id => CredentialStore.delete account_id db

def CredentialDb.run (db : CredentialDb) (ops : List CredentialOp) : CredentialDb :=
  ops.foldl (CredentialDb.after crypto store) db

/-! ## A row that was saved -/

/-- The nonces of a row are read back by the store. -/
theorem iv_parts_of_save (a b : Bytes) :
    iv_parts (b64encode a ++ "|" ++ b64encode b) = (b64encode a, b64encode b) := by
  have hplain : ∀ c ∈ base64.encode a, decide (c ≠ '|') = true := by
    intro c hc
    exact decide_eq_true (encode_ascii hc).2
  have hlist : (b64encode a ++ "|" ++ b64encode b).toList =
      base64.encode a ++ '|' :: base64.encode b := by
    unfold b64encode
    simp
  unfold iv_parts
  rw [hlist]
  have htake : (base64.encode a ++ '|' :: base64.encode b).takeWhile (· ≠ '|') =
      base64.encode a := by
    rw [List.takeWhile_append_of_pos hplain]
    simp
  have hdrop : (base64.encode a ++ '|' :: base64.encode b).dropWhile (· ≠ '|') =
      '|' :: base64.encode b := by
    rw [List.dropWhile_append_of_pos hplain]
    simp
  rw [htake, hdrop]
  rfl

/-- The loader skips the separator, and takes both nonces for one. -/
theorem b64decode_of_both (a b : Nonce) :
    b64decode (b64encode a.1 ++ "|" ++ b64encode b.1) = .ok (a.1 ++ b.1) := by
  have htext : b64encode a.1 ++ "|" ++ b64encode b.1 =
      String.ofList (base64.encode a.1 ++ '|' :: base64.encode b.1) := by
    refine String.toList_inj.mp ?_
    unfold b64encode
    simp
  rw [htext]
  refine b64decode_of_ascii ?_ ?_
  · intro c hc
    rcases List.mem_append.mp hc with hc | hc
    · exact (encode_ascii hc).1
    · rcases List.mem_cons.mp hc with rfl | hc
      · decide
      · exact (encode_ascii hc).1
  · have hlength : a.1.length % 3 = 0 := by rw [a.2]
    have hskip : base64.feed .q0 ('|' :: base64.encode b.1) = .ok b.1 := by
      rw [base64.feed_skip (by decide +kernel) (by decide)]
      exact base64.decode_encode b.1
    unfold base64.decode
    rw [base64.feed_encode_append a.1 hlength, hskip]
    rfl

/-- The texts that `save` writes to a row. -/
structure EncryptedAs (crypto : Crypto) (key : Bytes) (nonce_k nonce_s : Nonce)
    (api_key api_secret : String) (row : CredentialRow) : Prop where
  encrypted_key : row.encrypted_key = (encrypt crypto nonce_k api_key key).1
  encrypted_secret : row.encrypted_secret = (encrypt crypto nonce_s api_secret key).1
  iv : row.iv = (encrypt crypto nonce_k api_key key).2 ++ "|" ++
    (encrypt crypto nonce_s api_secret key).2

section Saved

variable {crypto} (hsound : crypto.Sound) (key : Bytes) (nonce_k nonce_s : Nonce)
  (api_key api_secret : String)

include hsound

theorem decrypt_encrypt (nonce : Nonce) (plaintext : String) :
    decrypt crypto (encrypt crypto nonce plaintext key).1 (encrypt crypto nonce plaintext key).2 key =
      .ok plaintext := by
  unfold decrypt encrypt
  rw [b64decode_b64encode, b64decode_b64encode]
  show opened crypto key nonce.1 (crypto.encrypt key nonce.1 (utf8 plaintext)) = _
  unfold opened
  rw [hsound.opens]
  exact ofUtf8_utf8 plaintext

/-- Under two nonces read as one, nothing is decrypted. -/
theorem decrypt_credential_of_both (nonce : Nonce) (plaintext secret_key : String) :
    ∃ e, decrypt_credential crypto (encrypt crypto nonce plaintext key).1
      (b64encode nonce_k.1 ++ "|" ++ b64encode nonce_s.1) secret_key = .error e := by
  have hnonce : (crypto.sha256 (utf8 secret_key), nonce_k.1 ++ nonce_s.1) ≠ (key, nonce.1) := by
    intro h
    have hlength := congrArg List.length (Prod.mk.inj h).2
    rw [List.length_append, nonce_k.2, nonce_s.2, nonce.2] at hlength
    omega
  have hopened : opened crypto (crypto.sha256 (utf8 secret_key)) (nonce_k.1 ++ nonce_s.1)
      (crypto.encrypt key nonce.1 (utf8 plaintext)) = .error invalid_tag := by
    unfold opened
    rw [hsound.rejects key nonce.1 (utf8 plaintext) _ _ hnonce]
  refine ⟨PyErr.mk "ValueError" s!"Credential decryption failed: {invalid_tag.msg}", ?_⟩
  unfold decrypt_credential encrypt
  rw [b64decode_of_both, b64decode_b64encode]
  simp only [bind, Except.bind]
  rw [hopened]

variable {key nonce_k nonce_s api_key api_secret} {row : CredentialRow}

theorem readout_of_saved (h : EncryptedAs crypto key nonce_k nonce_s api_key api_secret row) :
    CredentialStore.readout crypto key row = some (api_key, api_secret) := by
  have h1 := decrypt_encrypt hsound key nonce_k api_key
  have h2 := decrypt_encrypt hsound key nonce_s api_secret
  have hparts : iv_parts row.iv = ((encrypt crypto nonce_k api_key key).2,
      (encrypt crypto nonce_s api_secret key).2) := by
    rw [h.iv]
    exact iv_parts_of_save nonce_k.1 nonce_s.1
  unfold CredentialStore.readout
  rw [hparts, h.encrypted_key, h.encrypted_secret]
  dsimp only
  rw [h1, h2]

theorem loader_readout_of_saved (h : EncryptedAs crypto key nonce_k nonce_s api_key api_secret row)
    (secret_key : String) : AccountContextLoader.readout crypto secret_key row = none := by
  obtain ⟨e, he⟩ := decrypt_credential_of_both hsound key nonce_k nonce_s nonce_k api_key secret_key
  unfold AccountContextLoader.readout
  rw [h.encrypted_key, h.iv]
  rw [show (encrypt crypto nonce_k api_key key).2 ++ "|" ++ (encrypt crypto nonce_s api_secret key).2 =
    b64encode nonce_k.1 ++ "|" ++ b64encode nonce_s.1 from rfl, he]

end Saved

/-! ## The tables of a run -/

section Run

variable {crypto} {store} {key : Bytes} (hkey : store.key = some key)

include hkey

/-- A `save` for an account that exists writes the row of the account. -/
theorem save_writes {account_id : Uuid} {db : CredentialDb} (haccount : account_id ∈ db.accounts)
    (nonce_k nonce_s : Nonce) (api_key api_secret : String) :
    ∃ db', store.save crypto nonce_k nonce_s account_id api_key api_secret db = .ok db' ∧
      db'.accounts = db.accounts ∧
      ∀ {α : Type} (f : CredentialRow → α) (v : α),
        (∀ row, EncryptedAs crypto key nonce_k nonce_s api_key api_secret row → f row = v) →
        (fun a => (db'.refs.find a).map f) =
          Function.update (fun a => (db.refs.find a).map f) account_id (some v) := by
  unfold CredentialStore.save CredentialStore.require_key
  rw [hkey]
  refine ⟨_, if_neg fun h => h.2 haccount, rfl, ?_⟩
  intro α f v hf
  refine @Table.map_find_upsert Uuid CredentialRow _ _ db.refs _
    (CredentialRow.rewrite _ _ _) (fun _ => rfl) _ f _ _ rfl ?_ ?_
  · exact hf _ ⟨rfl, rfl, rfl⟩
  · intro row
    exact hf _ ⟨rfl, rfl, rfl⟩

/-- A `save` for an unknown account raises. -/
theorem save_raises {account_id : Uuid} {db : CredentialDb} (hfind : db.refs.find account_id = none)
    (haccount : account_id ∉ db.accounts) (nonce_k nonce_s : Nonce) (api_key api_secret : String) :
    store.save crypto nonce_k nonce_s account_id api_key api_secret db =
      .error (integrity_error "account_id") := by
  unfold CredentialStore.save CredentialStore.require_key
  rw [hkey]
  refine if_pos ⟨?_, haccount⟩
  rw [hfind]
  rfl

end Run

/-- What the tables say of each account, for the store and for the loader: the
pair last saved, and nothing. -/
structure Represents (key : Bytes) (secret_key : String) (accounts : List Uuid) (pairs : Pairs)
    (db : CredentialDb) : Prop where
  same : db.accounts = accounts
  known : ∀ a, pairs a ≠ none → a ∈ accounts
  stored : (fun a => (db.refs.find a).map (CredentialStore.readout crypto key)) =
    fun a => (pairs a).map some
  loaded : (fun a => (db.refs.find a).map (AccountContextLoader.readout crypto secret_key)) =
    fun a => (pairs a).map fun _ => none

theorem bind_eq_join_map {α β : Type} (x : Option α) (f : α → Option β) :
    x.bind f = (x.map f).join := by
  cases x <;> rfl

theorem map_update {α β : Type} (pairs : Uuid → Option α) (f : α → β) (a : Uuid) (v : Option α) :
    (fun a' => (Function.update pairs a v a').map f) =
      Function.update (fun a' => (pairs a').map f) a (v.map f) := by
  funext a'
  by_cases h : a' = a
  · subst h
    rw [Function.update_self, Function.update_self]
  · rw [Function.update_of_ne h, Function.update_of_ne h]

theorem map_find_erase {α : Type} (t : Table CredentialRow CredentialRow.key)
    (f : CredentialRow → α) (a : Uuid) :
    (fun a' => ((t.erase a).find a').map f) =
      Function.update (fun a' => (t.find a').map f) a none := by
  funext a'
  rw [Table.find_erase]
  by_cases h : a' = a
  · subst h
    rw [Function.update_self, if_pos rfl]
    rfl
  · rw [Function.update_of_ne h, if_neg h]

section Run

variable {crypto} {store} (hsound : crypto.Sound) {key : Bytes} (hkey : store.key = some key)
  (secret_key : String) {accounts : List Uuid}

include hsound hkey

/-- Every operation keeps the tables in step with the pairs. -/
theorem represents_step {pairs : Pairs} {db : CredentialDb}
    (h : Represents crypto key secret_key accounts pairs db) (op : CredentialOp) :
    Represents crypto key secret_key accounts (pairs.after accounts op)
      (db.after crypto store op) := by
  cases op with
  | save a api_key api_secret nonce_k nonce_s =>
    unfold Pairs.after CredentialDb.after
    dsimp only
    by_cases ha : a ∈ accounts
    · obtain ⟨db', hsave, haccounts, hviews⟩ := save_writes hkey
        (h.same.symm ▸ ha) nonce_k nonce_s api_key api_secret
      rw [if_pos ha, hsave]
      refine ⟨haccounts.trans h.same, ?_, ?_, ?_⟩
      · intro a' ha'
        by_cases heq : a' = a
        · rw [heq]
          exact ha
        · rw [Function.update_of_ne heq] at ha'
          exact h.known a' ha'
      · rw [map_update, ← h.stored]
        exact hviews _ _ fun row hrow => readout_of_saved hsound hrow
      · rw [map_update, ← h.loaded]
        exact hviews _ _ fun row hrow => loader_readout_of_saved hsound hrow secret_key
    · have hfind : db.refs.find a = none := by
        have hstored := congrFun h.stored a
        have hpair : pairs a = none := by
          by_contra hne
          exact ha (h.known a hne)
        rw [hpair] at hstored
        exact Option.map_eq_none_iff.mp hstored
      rw [if_neg ha, save_raises hkey hfind (h.same.symm ▸ ha)]
      exact h
  | delete a =>
    unfold Pairs.after CredentialDb.after CredentialStore.delete
    dsimp only
    refine ⟨h.same, ?_, ?_, ?_⟩
    · intro a' ha'
      by_cases heq : a' = a
      · subst heq
        rw [Function.update_self] at ha'
        exact absurd rfl ha'
      · rw [Function.update_of_ne heq] at ha'
        exact h.known a' ha'
    · rw [map_update, ← h.stored]
      exact map_find_erase db.refs _ a
    · rw [map_update, ← h.loaded]
      exact map_find_erase db.refs _ a

theorem represents_run (accounts : List Uuid) (ops : List CredentialOp) :
    Represents crypto key secret_key accounts (lastSaved accounts ops)
      ((CredentialDb.empty accounts).run crypto store ops) := by
  have hrun : ∀ (ops : List CredentialOp) (pairs : Pairs) (db : CredentialDb),
      Represents crypto key secret_key accounts pairs db →
      Represents crypto key secret_key accounts (ops.foldl (Pairs.after accounts) pairs)
        (db.run crypto store ops) := by
    intro ops
    induction ops with
    | nil => exact fun _ _ h => h
    | cons op ops ih =>
      intro pairs db h
      exact ih _ _ (represents_step hsound hkey secret_key h op)
  refine hrun ops (fun _ => none) _ ⟨rfl, ?_, rfl, rfl⟩
  exact fun a ha => absurd rfl ha

/-- `get` returns the pair last saved. -/
theorem get_after_run (ops : List CredentialOp) (account : Uuid) :
    store.get crypto account ((CredentialDb.empty accounts).run crypto store ops) =
      .ok (lastSaved accounts ops account) := by
  have h := congrFun (represents_run hsound hkey "" accounts ops).stored account
  unfold CredentialStore.get CredentialStore.require_key
  rw [hkey]
  refine congrArg Except.ok ?_
  rw [bind_eq_join_map, h]
  cases lastSaved accounts ops account <;> rfl

/-- `decrypt_credentials` returns nothing, whatever was saved. -/
theorem decrypt_credentials_after_run (ops : List CredentialOp) (account_id : String) :
    AccountContextLoader.decrypt_credentials crypto secret_key account_id
      ((CredentialDb.empty accounts).run crypto store ops) = none := by
  unfold AccountContextLoader.decrypt_credentials
  split
  · rfl
  · split
    · rfl
    · rename_i account _
      have h := congrFun
        (represents_run hsound hkey secret_key accounts ops).loaded account
      rw [bind_eq_join_map, h]
      cases lastSaved accounts ops account <;> rfl

end Run

/-! ## Both readers -/

theorem init_key {key_b64 : String} {key : Bytes} (hkey : get_encryption_key key_b64 = .ok key) :
    (CredentialStore.init key_b64).key = some key := by
  have hnonempty : key_b64 ≠ "" := by
    rintro rfl
    have hshort : (get_encryption_key "").isOk = false := by decide +kernel
    rw [hkey] at hshort
    cases hshort
  unfold CredentialStore.init
  dsimp only
  rw [if_neg hnonempty, hkey]
  rfl

/-- For every run over any accounts: both readers return the pair last saved for an
account exactly when there is none. -/
theorem credentials_round_trip_iff {crypto : Crypto} (hsound : crypto.Sound) {key_b64 : String}
    {key : Bytes} (hkey : get_encryption_key key_b64 = .ok key) (accounts : List Uuid)
    (ops : List CredentialOp) (account : Uuid) :
    let store := CredentialStore.init key_b64
    let db := (CredentialDb.empty accounts).run crypto store ops
    (store.get crypto account db = .ok (lastSaved accounts ops account) ∧
        AccountContextLoader.decrypt_credentials crypto key_b64 account db =
          lastSaved accounts ops account) ↔
      lastSaved accounts ops account = none := by
  dsimp only
  rw [get_after_run hsound (init_key hkey) ops account,
    decrypt_credentials_after_run hsound (init_key hkey)]
  constructor
  · rintro ⟨-, h⟩
    exact h.symm
  · intro h
    exact ⟨rfl, h.symm⟩

/-! ## A cipher -/

/-- Bytes that end where they end, whatever follows. -/
def frame : Bytes → Bytes
  | [] => [0]
  | b :: bs => 1 :: b :: frame bs

theorem frame_inj {a b x y : Bytes} (h : frame a ++ x = frame b ++ y) : a = b ∧ x = y := by
  induction a generalizing b with
  | nil =>
    cases b with
    | nil => exact ⟨rfl, (List.cons.inj h).2⟩
    | cons c b => exact absurd (List.cons.inj h).1 (by decide)
  | cons c a ih =>
    cases b with
    | nil => exact absurd (List.cons.inj h).1 (by decide)
    | cons d b =>
      obtain ⟨-, htail⟩ := List.cons.inj h
      obtain ⟨rfl, hrest⟩ := List.cons.inj htail
      obtain ⟨rfl, hxy⟩ := ih hrest
      exact ⟨rfl, hxy⟩

/-- A cipher that writes down under which key and nonce it encrypts. -/
def demo_crypto : Crypto where
  sha256 data := data
  encrypt key nonce plaintext := frame key ++ (frame nonce ++ plaintext)
  decrypt key nonce ciphertext :=
    if frame key ++ frame nonce <+: ciphertext then
      some (ciphertext.drop (frame key ++ frame nonce).length)
    else none

theorem demo_crypto_sound : demo_crypto.Sound := by
  constructor
  · intro key nonce plaintext
    have htext : demo_crypto.encrypt key nonce plaintext = (frame key ++ frame nonce) ++ plaintext :=
      (List.append_assoc _ _ _).symm
    rw [htext]
    show (if _ <+: _ then some (List.drop _ _) else none) = _
    rw [if_pos (List.prefix_append _ _), List.drop_left]
  · intro key nonce plaintext key' nonce' hother
    refine if_neg ?_
    rintro ⟨rest, hrest⟩
    rw [List.append_assoc] at hrest
    obtain ⟨hkey, hrest⟩ := frame_inj hrest
    obtain ⟨hnonce, -⟩ := frame_inj hrest
    exact hother (Prod.ext hkey hnonce)

def demo_owner : Uuid := "00000000-0000-0000-0000-000000000001"

/-- 32 zero bytes. -/
def demo_key : String := "AAAAAAAAAAAAAAAAAAAAAAAAAAAAAAAAAAAAAAAAAAA="

theorem demo_key_valid : get_encryption_key demo_key = .ok (List.replicate 32 0) := by
  decide +kernel

def demo_nonce : Nonce := ⟨List.replicate 12 0, rfl⟩

def demo_save : CredentialOp := .save demo_owner "key" "secret" demo_nonce demo_nonce

/-- The loader returns nothing of a pair that is stored. -/
theorem loader_loses_the_pair :
    let db := (CredentialDb.empty [demo_owner]).run demo_crypto (.init demo_key) [demo_save]
    (CredentialStore.init demo_key).get demo_crypto demo_owner db = .ok (some ("key", "secret")) ∧
      AccountContextLoader.decrypt_credentials demo_crypto demo_key demo_owner db = none :=
  ⟨get_after_run demo_crypto_sound (init_key demo_key_valid) [demo_save] demo_owner,
    decrypt_credentials_after_run demo_crypto_sound (init_key demo_key_valid) demo_key [demo_save] _⟩

/-- After a `delete` both readers return nothing. -/
theorem nothing_is_read_after_delete :
    let db := (CredentialDb.empty [demo_owner]).run demo_crypto (.init demo_key)
      [demo_save, .delete demo_owner]
    (CredentialStore.init demo_key).get demo_crypto demo_owner db = .ok none ∧
      AccountContextLoader.decrypt_credentials demo_crypto demo_key demo_owner db = none := by
  have hlast : lastSaved [demo_owner] [demo_save, .delete demo_owner] demo_owner = none := by
    unfold lastSaved
    simp [Pairs.after]
  have h := (credentials_round_trip_iff demo_crypto_sound demo_key_valid [demo_owner]
    [demo_save, .delete demo_owner] demo_owner).mpr hlast
  rw [hlast] at h
  exact h

end trading_platform.execution
