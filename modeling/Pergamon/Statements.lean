import Pergamon.Formats
import Pergamon.Push

/-!
What a device signs for the auth plane. The client builds these statements to sign them and the
server builds them again to check the signature; the two crates hold a copy each of the three
encodings.

The copies agree, refusals included; each encoding tells its fields apart, and no bytes are a
statement of two of the three kinds (`statements_agree`). The fields that travel in base64 are told
apart because only canonical base64 is decoded, as the instance `standardBase64` does.
-/
namespace Pergamon
open Fallible

/-- The challenge of a binding as it travels. -/
structure ChallengeRecord where
  server_instance_id : String
  operation_id : String
  challenge_id : String
  nonce_b64 : String
  auth_tenant_id : String
  content_account_id : String
  device_id : String
  ed25519_pub_b64 : String
  binding_version : Int64
  expires_at_ms : Int64
  deriving DecidableEq

/-- The challenge with its nonce and its key decoded. -/
def ChallengeRecord.decoded (challenge : ChallengeRecord) (nonce ed25519_pub : List UInt8) : BindingChallenge :=
  ⟨challenge.server_instance_id,challenge.operation_id,challenge.challenge_id,nonce,challenge.auth_tenant_id,
    challenge.content_account_id,challenge.device_id,ed25519_pub,challenge.binding_version.toInt,challenge.expires_at_ms.toInt⟩

/-- The statement of a binding as the server builds it. -/
def ChallengeRecord.signing_bytes (b64 : Base64) (challenge : ChallengeRecord) : Except ApiError (List UInt8) :=
  match b64.decode challenge.nonce_b64 with
  | none => .error (.bad_request "invalid nonce")
  | some nonce =>
    match b64.decode challenge.ed25519_pub_b64 with
    | none => .error (.bad_request "invalid key")
    | some key => Pergamon.signing_bytes (challenge.decoded nonce key)

/-! ### The copies of the client -/

namespace Client

def lp (bytes out : List UInt8) : Except SyncError (List UInt8) :=
  if bytes.length < 2 ^ 32 then .ok (out ++ u32_be_bytes bytes.length ++ bytes)
  else .error (.Protocol "binding field too long")

/-- The statement of a binding as the client builds it. -/
def binding_signing_bytes (b64 : Base64) (challenge : ChallengeRecord) : Except SyncError (List UInt8) :=
  match b64.decode challenge.nonce_b64,b64.decode challenge.ed25519_pub_b64 with
  | some nonce,some key => do
    if nonce.length ≠ 32 ∨ key.length ≠ 32 ∨ challenge.binding_version < 0 then
      throw (.Protocol "invalid binding statement")
    let bytes ← [utf8 challenge.server_instance_id,utf8 challenge.operation_id,utf8 challenge.challenge_id,nonce,
      utf8 challenge.auth_tenant_id,utf8 challenge.content_account_id,utf8 challenge.device_id].foldlM
        (fun bytes field => lp field bytes) (utf8 "pergamon/v2/auth/content-binding-pop")
    return bytes ++ key ++ i64_be_bytes challenge.binding_version.toInt ++ i64_be_bytes challenge.expires_at_ms.toInt
  | _,_ => .error .Base64

def push_len_prefixed (buf bytes : List UInt8) : List UInt8 := buf ++ u32_be_bytes bytes.length ++ bytes

def mint_pop_message (p : Primitives) (login_id : String) (credential_finalization : List UInt8) (device_id : String)
    (ed25519_pub : Bytes ED25519_PUB_LEN) : List UInt8 :=
  let ke3_hash := p.blake3_hash credential_finalization
  let msg := push_len_prefixed MINT_POP_TAG (utf8 login_id)
  let msg := msg ++ ke3_hash.toList
  let msg := push_len_prefixed msg (utf8 device_id)
  msg ++ ed25519_pub.toList

def refresh_pop_message (refresh_token_id : String) (nonce : List UInt8) (device_id : String)
    (ed25519_pub : Bytes ED25519_PUB_LEN) : List UInt8 :=
  let msg := push_len_prefixed REFRESH_POP_TAG (utf8 refresh_token_id)
  let msg := push_len_prefixed msg nonce
  let msg := push_len_prefixed msg (utf8 device_id)
  msg ++ ed25519_pub.toList

end Client

/-! ### The statement of a binding -/

section
variable {b64 : Base64} {challenge challenge' : ChallengeRecord} {bytes : List UInt8}

/-- The fields of a statement, each behind its length. -/
def BindingChallenge.fields (challenge : BindingChallenge) : List (List UInt8) :=
  [utf8 challenge.server_instance_id,utf8 challenge.operation_id,utf8 challenge.challenge_id,challenge.nonce,
    utf8 challenge.auth_tenant_id,utf8 challenge.content_account_id,utf8 challenge.device_id]

def BindingChallenge.statement (challenge : BindingChallenge) : List UInt8 :=
  utf8 "pergamon/v2/auth/content-binding-pop" ++ challenge.fields.flatMap push_lp ++ challenge.ed25519_pub ++
    i64_be_bytes challenge.binding_version ++ i64_be_bytes challenge.expires_at_ms

/-- A challenge for which there is a statement. -/
structure BindingChallenge.Stated (challenge : BindingChallenge) : Prop where
  nonce : challenge.nonce.length = 32
  key : challenge.ed25519_pub.length = 32
  version : 0 ≤ challenge.binding_version
  short : ∀ field ∈ challenge.fields, field.length < 2 ^ 32

theorem lp_ok {field : List UInt8} : lp field = .ok bytes ↔ field.length < 2 ^ 32 ∧ bytes = push_lp field := by
  unfold lp
  split <;> simp_all [push_lp,eq_comm]

theorem mapM_lp_ok {fields : List (List UInt8)} {framed : List (List UInt8)} :
    fields.mapM lp = .ok framed ↔ (∀ field ∈ fields, field.length < 2 ^ 32) ∧ framed = fields.map push_lp := by
  induction fields generalizing framed with
  | nil => simp [pure,Except.pure,eq_comm]
  | cons field fields ih =>
    rw [List.mapM_cons,bind_ok]
    simp only [bind_ok,lp_ok,ih,List.forall_mem_cons,List.map_cons]
    constructor
    · rintro ⟨_,⟨short,rfl⟩,_,⟨rest,rfl⟩,made⟩
      cases made
      exact ⟨⟨short,rest⟩,rfl⟩
    · rintro ⟨⟨short,rest⟩,rfl⟩
      exact ⟨_,⟨short,rfl⟩,_,⟨rest,rfl⟩,rfl⟩

theorem client_lp_ok {field start : List UInt8} :
    Client.lp field start = .ok bytes ↔ field.length < 2 ^ 32 ∧ bytes = start ++ push_lp field := by
  unfold Client.lp
  split <;> simp_all [push_lp,eq_comm]

theorem foldlM_lp_ok {fields : List (List UInt8)} {start : List UInt8} :
    fields.foldlM (fun bytes field => Client.lp field bytes) start = .ok bytes ↔
      (∀ field ∈ fields, field.length < 2 ^ 32) ∧ bytes = start ++ fields.flatMap push_lp := by
  induction fields generalizing start with
  | nil =>
    rw [foldlM_nil_ok]
    simp [eq_comm]
  | cons field fields ih =>
    rw [foldlM_cons_ok]
    simp only [client_lp_ok,ih,List.forall_mem_cons,List.flatMap_cons]
    constructor
    · rintro ⟨_,⟨short,rfl⟩,rest,rfl⟩
      exact ⟨⟨short,rest⟩,List.append_assoc ..⟩
    · rintro ⟨⟨short,rest⟩,rfl⟩
      exact ⟨_,⟨short,rfl⟩,rest,(List.append_assoc ..).symm⟩

theorem signing_bytes_ok {challenge : BindingChallenge} :
    Pergamon.signing_bytes challenge = .ok bytes ↔ challenge.Stated ∧ bytes = challenge.statement := by
  unfold Pergamon.signing_bytes
  by_cases bad : challenge.nonce.length ≠ 32 ∨ challenge.ed25519_pub.length ≠ 32 ∨ challenge.binding_version < 0
  · rw [if_pos bad]
    refine ⟨nofun,fun ⟨stated,_⟩ => ?_⟩
    have := stated.version
    rcases bad with bad | bad | bad
    · exact absurd stated.nonce bad
    · exact absurd stated.key bad
    · omega
  · rw [if_neg bad]
    simp only [bind_ok,mapM_lp_ok]
    constructor
    · rintro ⟨_,⟨short,rfl⟩,made⟩
      cases made
      push Not at bad
      exact ⟨⟨bad.1,bad.2.1,bad.2.2,short⟩,rfl⟩
    · rintro ⟨stated,rfl⟩
      exact ⟨_,⟨stated.short,rfl⟩,rfl⟩

theorem server_statement_ok : challenge.signing_bytes b64 = .ok bytes ↔
    ∃ nonce key, b64.decode challenge.nonce_b64 = some nonce ∧
    b64.decode challenge.ed25519_pub_b64 = some key ∧ (challenge.decoded nonce key).Stated ∧
      bytes = (challenge.decoded nonce key).statement := by
  unfold ChallengeRecord.signing_bytes
  cases b64.decode challenge.nonce_b64 with
  | none => simp
  | some nonce =>
    cases b64.decode challenge.ed25519_pub_b64 with
    | none => simp
    | some key => simp [signing_bytes_ok]

theorem client_statement_ok : Client.binding_signing_bytes b64 challenge = .ok bytes ↔
    ∃ nonce key, b64.decode challenge.nonce_b64 = some nonce ∧ b64.decode challenge.ed25519_pub_b64 = some key ∧
      (challenge.decoded nonce key).Stated ∧ bytes = (challenge.decoded nonce key).statement := by
  have version : challenge.binding_version < 0 ↔ challenge.binding_version.toInt < 0 := Int64.lt_iff_toInt_lt
  unfold Client.binding_signing_bytes
  cases b64.decode challenge.nonce_b64 with
  | none => simp
  | some nonce =>
    cases b64.decode challenge.ed25519_pub_b64 with
    | none => simp
    | some key =>
      simp only [Option.some.injEq,exists_and_left,exists_eq_left',version]
      by_cases bad : nonce.length ≠ 32 ∨ key.length ≠ 32 ∨ challenge.binding_version.toInt < 0
      · rw [if_pos bad]
        refine ⟨nofun,fun ⟨stated,_⟩ => ?_⟩
        have := stated.version
        rcases bad with bad | bad | bad
        · exact absurd stated.nonce bad
        · exact absurd stated.key bad
        · simp only [ChallengeRecord.decoded] at this
          omega
      · rw [if_neg bad]
        simp only [bind_ok,foldlM_lp_ok]
        constructor
        · rintro ⟨_,⟨short,rfl⟩,made⟩
          cases made
          push Not at bad
          exact ⟨⟨bad.1,bad.2.1,bad.2.2,short⟩,rfl⟩
        · rintro ⟨stated,rfl⟩
          exact ⟨_,⟨stated.short,rfl⟩,rfl⟩

theorem fields_inj {fields fields' : List (List UInt8)} {rest rest' : List UInt8} (count : fields.length = fields'.length)
    (short : ∀ field ∈ fields, field.length < 2 ^ 32) (short' : ∀ field ∈ fields', field.length < 2 ^ 32)
    (same : fields.flatMap push_lp ++ rest = fields'.flatMap push_lp ++ rest') : fields = fields' ∧ rest = rest' := by
  induction fields generalizing fields' with
  | nil =>
    obtain rfl := List.eq_nil_of_length_eq_zero count.symm
    exact ⟨rfl,same⟩
  | cons field fields ih =>
    cases fields' with
    | nil => cases count
    | cons field' fields' =>
      simp only [List.flatMap_cons,List.append_assoc] at same
      obtain ⟨first,others⟩ := push_lp_inj (short field (.head _)) (short' field' (.head _)) same
      obtain ⟨second,last⟩ := ih (Nat.succ.inj count) (fun f inside => short f (.tail _ inside))
        (fun f inside => short' f (.tail _ inside)) others
      exact ⟨by rw [first,second],last⟩

/-- A statement tells its challenge, nonce and key decoded. -/
theorem statement_inj {nonce key nonce' key' : List UInt8} (stated : (challenge.decoded nonce key).Stated)
    (stated' : (challenge'.decoded nonce' key').Stated)
    (same : (challenge.decoded nonce key).statement = (challenge'.decoded nonce' key').statement) :
    challenge.decoded nonce key = challenge'.decoded nonce' key' := by
  simp only [BindingChallenge.statement,List.append_assoc] at same
  have count : (challenge.decoded nonce key).fields.length = (challenge'.decoded nonce' key').fields.length := rfl
  obtain ⟨fields,rest⟩ := fields_inj count stated.short stated'.short (List.append_cancel_left same)
  obtain ⟨public_key,rest⟩ := List.append_inj rest (stated.key.trans stated'.key.symm)
  obtain ⟨version,expires⟩ := List.append_inj rest (by simp)
  simp only [BindingChallenge.fields,List.cons.injEq,utf8_inj,ChallengeRecord.decoded,
    and_true] at fields public_key version expires
  have version := i64_be_bytes_inj version
  have expires := i64_be_bytes_inj expires
  simp only [ChallengeRecord.decoded,BindingChallenge.mk.injEq]
  obtain ⟨server,operation,id,nonce,tenant,content,device⟩ := fields
  exact ⟨server,operation,id,nonce,tenant,content,device,public_key,congrArg _ version,congrArg _ expires⟩

end

/-! ### The three kinds -/

/-- What the client and the server make of the three statements. -/
structure StatementsAgree (p : Primitives) (crypto : Crypto) (b64 : Base64) : Prop where
  binding_agrees challenge bytes :
    Client.binding_signing_bytes b64 challenge = .ok bytes ↔ challenge.signing_bytes b64 = .ok bytes
  mint_agrees login_id ke3 device_id (pub : Bytes ED25519_PUB_LEN) :
    Client.mint_pop_message p login_id ke3 device_id pub = mint_pop_message crypto login_id ke3 device_id pub.toList
  refresh_agrees token_id nonce device_id (pub : Bytes ED25519_PUB_LEN) :
    Client.refresh_pop_message token_id nonce device_id pub = refresh_pop_message token_id nonce device_id pub.toList
  binding_inj challenge challenge' bytes : Client.binding_signing_bytes b64 challenge = .ok bytes →
    Client.binding_signing_bytes b64 challenge' = .ok bytes → challenge = challenge'
  mint_inj login_id login_id' ke3 ke3' device_id device_id' pub pub' :
    (utf8 login_id).length < 2 ^ 32 → (utf8 login_id').length < 2 ^ 32 →
    (utf8 device_id).length < 2 ^ 32 → (utf8 device_id').length < 2 ^ 32 →
    Client.mint_pop_message p login_id ke3 device_id pub = Client.mint_pop_message p login_id' ke3' device_id' pub' →
    login_id = login_id' ∧ p.blake3_hash ke3 = p.blake3_hash ke3' ∧ device_id = device_id' ∧ pub = pub'
  refresh_inj token_id token_id' nonce nonce' device_id device_id' pub pub' :
    (utf8 token_id).length < 2 ^ 32 → (utf8 token_id').length < 2 ^ 32 → nonce.length < 2 ^ 32 → nonce'.length < 2 ^ 32 →
    (utf8 device_id).length < 2 ^ 32 → (utf8 device_id').length < 2 ^ 32 →
    Client.refresh_pop_message token_id nonce device_id pub =
      Client.refresh_pop_message token_id' nonce' device_id' pub' →
    token_id = token_id' ∧ nonce = nonce' ∧ device_id = device_id' ∧ pub = pub'
  binding_apart challenge bytes login_id ke3 token_id nonce device_id pub :
    Client.binding_signing_bytes b64 challenge = .ok bytes →
    bytes ≠ Client.mint_pop_message p login_id ke3 device_id pub ∧
      bytes ≠ Client.refresh_pop_message token_id nonce device_id pub
  mint_apart login_id ke3 device_id pub token_id nonce device_id' pub' :
    Client.mint_pop_message p login_id ke3 device_id pub ≠ Client.refresh_pop_message token_id nonce device_id' pub'

section
variable {p : Primitives} {crypto : Crypto} {b64 : Base64}

theorem client_mint_eq (p : Primitives) (login_id : String) (ke3 : List UInt8) (device_id : String)
    (pub : Bytes ED25519_PUB_LEN) :
    Client.mint_pop_message p login_id ke3 device_id pub =
      MINT_POP_TAG ++ (push_lp (utf8 login_id) ++ ((p.blake3_hash ke3).toList ++ (push_lp (utf8 device_id) ++
        pub.toList))) := by
  simp only [Client.mint_pop_message,Client.push_len_prefixed,push_lp,List.append_assoc]

theorem client_refresh_eq (token_id : String) (nonce : List UInt8) (device_id : String) (pub : Bytes ED25519_PUB_LEN) :
    Client.refresh_pop_message token_id nonce device_id pub =
      REFRESH_POP_TAG ++ (push_lp (utf8 token_id) ++ (push_lp nonce ++ (push_lp (utf8 device_id) ++ pub.toList))) := by
  simp only [Client.refresh_pop_message,Client.push_len_prefixed,push_lp,List.append_assoc]

theorem device_key_inj {device_id device_id' : String} {pub pub' : Bytes ED25519_PUB_LEN}
    (short : (utf8 device_id).length < 2 ^ 32)
    (short' : (utf8 device_id').length < 2 ^ 32)
    (same : push_lp (utf8 device_id) ++ pub.toList = push_lp (utf8 device_id') ++ pub'.toList) :
      device_id = device_id' ∧ pub = pub' := by
  obtain ⟨first,second⟩ := push_text_inj short short' same
  exact ⟨first,Subtype.ext second⟩

/-- The client and the server build the same three statements, and each statement is of one kind and
    for one choice of its fields. -/
theorem statements_agree (hashes : ∀ bytes, crypto.blake3 bytes = (p.blake3_hash bytes).toList)
    (canonical : ∀ text bytes, b64.decode text = some bytes → b64.encode bytes = text) :
      StatementsAgree p crypto b64 where
  binding_agrees challenge bytes := by rw [client_statement_ok,server_statement_ok]
  mint_agrees login_id ke3 device_id pub := by
    simp only [Client.mint_pop_message,Client.push_len_prefixed,mint_pop_message,push_len_prefixed,hashes]
  refresh_agrees token_id nonce device_id pub := rfl
  binding_inj challenge challenge' bytes made made' := by
    obtain ⟨nonce,key,nonce_b64,key_b64,stated,rfl⟩ := client_statement_ok.mp made
    obtain ⟨nonce',key',nonce_b64',key_b64',stated',same⟩ := client_statement_ok.mp made'
    have equal := statement_inj stated stated' same
    simp only [ChallengeRecord.decoded,BindingChallenge.mk.injEq] at equal
    obtain ⟨server,operation,id,rfl,tenant,content,device,rfl,version,expires⟩ := equal
    have nonces : challenge.nonce_b64 = challenge'.nonce_b64 := by
      rw [← canonical _ _ nonce_b64,← canonical _ _ nonce_b64']
    have keys : challenge.ed25519_pub_b64 = challenge'.ed25519_pub_b64 := by
      rw [← canonical _ _ key_b64,← canonical _ _ key_b64']
    cases challenge
    cases challenge'
    simp_all [Int64.toInt_inj]
  mint_inj login_id login_id' ke3 ke3' device_id device_id' pub pub' short short' brief brief' same := by
    rw [client_mint_eq,client_mint_eq] at same
    obtain ⟨login,same⟩ := push_text_inj short short' (List.append_cancel_left same)
    obtain ⟨hash,same⟩ := List.append_inj same (by simp)
    obtain ⟨device,key⟩ := device_key_inj brief brief' same
    exact ⟨login,Subtype.ext hash,device,key⟩
  refresh_inj token_id token_id' nonce nonce' device_id device_id' pub pub' short short' few few' brief brief' same := by
    rw [client_refresh_eq,client_refresh_eq] at same
    obtain ⟨token,same⟩ := push_text_inj short short' (List.append_cancel_left same)
    obtain ⟨nonces,same⟩ := push_lp_inj few few' same
    obtain ⟨device,key⟩ := device_key_inj brief brief' same
    exact ⟨token,nonces,device,key⟩
  binding_apart challenge bytes login_id ke3 token_id nonce device_id pub made := by
    obtain ⟨_,_,_,_,_,rfl⟩ := client_statement_ok.mp made
    simp only [BindingChallenge.statement,List.append_assoc,client_mint_eq,client_refresh_eq]
    exact ⟨tag_apart (by decide +kernel),tag_apart (by decide +kernel)⟩
  mint_apart login_id ke3 device_id pub token_id nonce device_id' pub' := by
    rw [client_mint_eq,client_refresh_eq]
    exact tag_apart (by decide +kernel)

end

/-! ### Base64 -/

namespace Standard64

/-- The character of six bits. -/
def digit (n : ℕ) : Char :=
  if n < 26 then Char.ofNat (65 + n) else if n < 52 then Char.ofNat (71 + n) else if n < 62 then Char.ofNat (n - 4)
  else if n = 62 then '+' else '/'

def digit_value (c : Char) : Option ℕ :=
  if 'A' ≤ c ∧ c ≤ 'Z' then some (c.toNat - 65) else if 'a' ≤ c ∧ c ≤ 'z' then some (c.toNat - 71)
  else if '0' ≤ c ∧ c ≤ '9' then some (c.toNat + 4) else if c = '+' then some 62 else if c = '/' then some 63 else none

theorem digit_value_digit : ∀ n < 64, digit_value (digit n) = some n ∧ digit n ≠ '=' := by decide

def encode_chars : List UInt8 → List Char
  | [] => []
  | [a] =>
    let n := a.toNat * 65536
    [digit (n / 262144),digit (n / 4096 % 64),'=','=']
  | [a,b] =>
    let n := a.toNat * 65536 + b.toNat * 256
    [digit (n / 262144),digit (n / 4096 % 64),digit (n / 64 % 64),'=']
  | a :: b :: c :: bytes =>
    let n := a.toNat * 65536 + b.toNat * 256 + c.toNat
    [digit (n / 262144),digit (n / 4096 % 64),digit (n / 64 % 64),digit (n % 64)] ++ encode_chars bytes

/-- Four characters are three bytes; the last four may stand for fewer. -/
def decode_chars : List Char → Option (List UInt8)
  | [] => some []
  | w :: x :: y :: z :: chars => do
    let high := (← digit_value w) * 262144 + (← digit_value x) * 4096
    if y = '=' then
      if z = '=' ∧ chars = [] then some [.ofNat (high / 65536)] else none
    else
      let high := high + (← digit_value y) * 64
      if z = '=' then
        if chars = [] then some [.ofNat (high / 65536),.ofNat (high / 256)] else none
      else
        let n := high + (← digit_value z)
        let bytes ← decode_chars chars
        some (.ofNat (n / 65536) :: .ofNat (n / 256) :: .ofNat n :: bytes)
  | _ => none

theorem byte_eq {a : UInt8} {n : ℕ} (same : n % 256 = a.toNat) : UInt8.ofNat n = a := by
  apply UInt8.toNat_inj.mp
  rw [UInt8.toNat_ofNat',same]

/-- Three bytes and the four digits of their number. -/
theorem four_digits (n : ℕ) : n / 262144 * 262144 + n / 4096 % 64 * 4096 + n / 64 % 64 * 64 + n % 64 = n := by omega

theorem decode_encode_chars (bytes : List UInt8) : decode_chars (encode_chars bytes) = some bytes := by
  have digits {n : ℕ} (small : n < 16777216) := digit_value_digit (n / 262144) (Nat.div_lt_of_lt_mul small)
  have digit (n : ℕ) := digit_value_digit (n % 64) (Nat.mod_lt n (by decide))
  induction bytes using encode_chars.induct with
  | case1 => rfl
  | case2 a =>
    have small := a.toNat_lt
    simp only [encode_chars,decode_chars,(digits (n := a.toNat * 65536) (by omega)).1,(digit _).1,Option.bind_eq_bind,Option.bind_some,
      if_true,and_self]
    rw [byte_eq (a := a) (by omega)]
  | case3 a b =>
    have small := a.toNat_lt
    have small' := b.toNat_lt
    simp only [encode_chars,decode_chars,(digits (n := a.toNat * 65536 + b.toNat * 256) (by omega)).1,(digit _).1,(digit _).2,
      Option.bind_eq_bind,Option.bind_some,if_true,if_false]
    rw [byte_eq (a := a) (by omega),byte_eq (a := b) (by omega)]
  | case4 a b c bytes ih =>
    have small := a.toNat_lt
    have small' := b.toNat_lt
    have small'' := c.toNat_lt
    obtain ⟨n,made⟩ : ∃ n, n = a.toNat * 65536 + b.toNat * 256 + c.toNat := ⟨_,rfl⟩
    simp only [encode_chars,← made,List.cons_append,List.nil_append]
    simp only [decode_chars,(digits (n := n) (by omega)).1,(digit _).1,(digit _).2,ih,Option.bind_eq_bind,Option.bind_some,if_false,four_digits]
    rw [byte_eq (a := a) (by omega),byte_eq (a := b) (by omega),byte_eq (a := c) (by omega)]

end Standard64

/-- Base64 with the standard alphabet and with padding. Only the text that is written for some bytes is decoded. -/
def standardBase64 : Base64 where
  encode bytes := String.ofList (Standard64.encode_chars bytes)
  decode text :=
    (Standard64.decode_chars text.toList).filter (fun bytes => String.ofList (Standard64.encode_chars bytes) = text)
  decode_encode bytes := by simp [Standard64.decode_encode_chars]

theorem standardBase64_canonical (text : String) (bytes : List UInt8)
    (decoded : standardBase64.decode text = some bytes) :
    standardBase64.encode bytes = text := by
  simpa [standardBase64] using (Option.filter_eq_some_iff.mp decoded).2

/-- The auth crypto of the server over the primitives of the client. -/
def plainCrypto : Crypto := ⟨fun _ => "",fun _ => none,fun bytes => (plainPrimitives.blake3_hash bytes).toList,
    fun _ _ _ => false⟩

/-- A challenge whose nonce and key are 32 zeros each. -/
def challenged : ChallengeRecord :=
  ⟨"server","op","challenge","AAAAAAAAAAAAAAAAAAAAAAAAAAAAAAAAAAAAAAAAAAA=","tenant","account","device",
    "AAAAAAAAAAAAAAAAAAAAAAAAAAAAAAAAAAAAAAAAAAA=",0,1000⟩

theorem statements_agree_standard : StatementsAgree plainPrimitives plainCrypto standardBase64 ∧
    (∃ bytes, Client.binding_signing_bytes standardBase64 challenged = .ok bytes ∧ bytes.length = 180) := by
  refine ⟨statements_agree (fun _ => rfl) standardBase64_canonical,?_⟩
  decide +kernel

end Pergamon
