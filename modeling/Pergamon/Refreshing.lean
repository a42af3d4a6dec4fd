import Pergamon.Devices
import Pergamon.Push
import Pergamon.Runs
import Pergamon.Sessions

/-!
The session of a client with its relay. An access token that is about to expire is replaced
with the single-use refresh token, the new pair is persisted, and only then is its access
token given out. An answer that is not known to have left the refresh token unused stops
the session.

What the session has done towards the server, the store and its callers is kept with it
(`SessionAct`). Each request presents the token that was issued last, by a session that
nothing has stopped (`Allowed`); from this come the rules for a run (`refreshing_run`).
-/
namespace Pergamon
open Fallible Runs

inductive SessionScope where
  | Control
  | Content
  deriving DecidableEq

structure Refreshing.RemoteSession where
  scope : SessionScope
  access_token : String
  access_expires_at : Int64
  refresh_token : String
  refresh_expires_at : Int64
  device_id : String
  auth_tenant_id : String
  content_account_id : Option String
  binding_version : Int64
  deriving DecidableEq

structure RefreshResponse where
  access_token : String
  access_expires_at : Int64
  refresh_token : String
  refresh_expires_at : Int64
  deriving DecidableEq

/-- The session with a new pair of tokens; the rest of it stays. -/
def Refreshing.RemoteSession.rotated (session : Refreshing.RemoteSession) (response : RefreshResponse) : Refreshing.RemoteSession :=
  { session with
    access_token := response.access_token
    access_expires_at := response.access_expires_at
    refresh_token := response.refresh_token
    refresh_expires_at := response.refresh_expires_at }

structure RefreshRequestBody where
  refresh_token : String
  device_id : String
  ed25519_pub_b64 : String
  nonce_b64 : String
  pop_signature_b64 : String
  deriving DecidableEq

/-- The part of a bearer before its first dot, unless it is empty. -/
def token_id_from_bearer (bearer : String) : Option String :=
  match bearer.toList.span (· ≠ '.') with
  | (_,[]) => none
  | ([],_) => none
  | (id,_) => some (String.ofList id)

def build_refresh_request (p : Primitives) (b64 : Base64) (keys : DeviceKeypairs) (refresh_token : String)
    (nonce : List UInt8) : RefreshRequestBody :=
  let ed25519_pub := (p.ed25519_verifying keys).toList
  let refresh_token_id := (token_id_from_bearer refresh_token).getD ""
  let msg := refresh_pop_message refresh_token_id nonce (p.device_id keys) ed25519_pub
  { refresh_token := refresh_token
    device_id := p.device_id keys
    ed25519_pub_b64 := b64.encode ed25519_pub
    nonce_b64 := b64.encode nonce
    pop_signature_b64 := b64.encode (p.sign keys msg).toList }

/-- A request with its answer, a write to the store with its outcome, a token given out. -/
inductive SessionAct where
  | presented (request : RefreshRequestBody) (answer : Except SyncError RefreshResponse)
  | persisted (next : Refreshing.RemoteSession) (outcome : Except SyncError Unit)
  | returned (token : String)
  deriving DecidableEq

/-- The session behind its lock, with what it has done. -/
structure RefreshingSession where
  keys : DeviceKeypairs
  session : Refreshing.RemoteSession
  failed : Bool
  acts : List SessionAct

namespace RefreshingSession

def does (act : SessionAct) (s : RefreshingSession) : RefreshingSession := { s with acts := s.acts ++ [act] }

def fails (s : RefreshingSession) : RefreshingSession := { s with failed := true }

def adopts (next : Refreshing.RemoteSession) (s : RefreshingSession) : RefreshingSession := { s with session := next }

section
variable (p : Primitives) (b64 : Base64)

def new (keys : DeviceKeypairs) (session : Refreshing.RemoteSession) : Except SyncError RefreshingSession :=
  if session.device_id ≠ p.device_id keys ∨ session.content_account_id = none ∨ session.scope ≠ .Content then
    .error (.Protocol "content session does not match this device")
  else .ok ⟨keys,session,false,[]⟩

/-- Exchange the refresh token for a new pair. -/
def refresh_session (nonce : List UInt8) (answer : Except SyncError RefreshResponse) :
    EStateM SyncError RefreshingSession Refreshing.RemoteSession := do
  let s ← get
  if s.session.device_id ≠ p.device_id s.keys then
    throw (.Protocol "session belongs to different device keys")
  modify (does (.presented (build_refresh_request p b64 s.keys s.session.refresh_token nonce) answer))
  match answer with
  | .error e => throw e
  | .ok response => return s.session.rotated response

/-- The time in milliseconds, unless the clock is before the epoch or past what fits. -/
def millis (clock : Option ℕ) : Except SyncError Int64 :=
  match clock with
  | none => .error (.Protocol "system clock predates epoch")
  | some now => if now < 2 ^ 63 then .ok (.ofNat now) else .error (.Protocol "invalid system clock")

/-- The token to authorize a request with. -/
def access_token (clock : Option ℕ) (nonce : List UInt8) (answer : Except SyncError RefreshResponse)
    (outcome : Except SyncError Unit) : EStateM SyncError RefreshingSession String := do
  let s ← get
  if s.failed then
    throw (.SessionNeedsLogin "previous rotation requires reauthentication")
  match millis clock with
  | .error e => throw e
  | .ok now =>
    if s.session.access_expires_at ≤ now + 30000 then
      let next ← tryCatch (refresh_session p b64 nonce answer) (fun e => do
        match e with
        | .RateLimited retry => throw (.RateLimited retry)
        | _ =>
          modify fails
          throw (.SessionNeedsLogin "refresh was refused or its outcome is uncertain"))
      modify (does (.persisted next outcome))
      match outcome with
      | .error _ =>
        modify fails
        throw (.SessionNeedsLogin "rotated credentials could not be persisted")
      | .ok () => modify (adopts next)
    let s ← get
    modify (does (.returned s.session.access_token))
    return s.session.access_token

end

/-- A token that was refused is not given out again. -/
def invalidate_access_token (rejected : String) (s : RefreshingSession) : RefreshingSession :=
  if s.session.access_token = rejected then { s with session := { s.session with access_expires_at := 0 } } else s

/-! ### What one call does -/

section
variable {p : Primitives} {b64 : Base64} {s : RefreshingSession} {nonce : List UInt8} {answer : Except SyncError RefreshResponse}

/-- A session for other keys is not presented; otherwise the answer decides. -/
theorem refresh_session_cases (p : Primitives) (b64 : Base64) (s : RefreshingSession) (nonce : List UInt8)
    (answer : Except SyncError RefreshResponse) : (∃ m, refresh_session p b64 nonce answer s = .error (.Protocol m) s) ∨
    ∃ request : RefreshRequestBody, request.refresh_token = s.session.refresh_token ∧
      refresh_session p b64 nonce answer s =
        match answer with
        | .error e => .error e (s.does (.presented request answer))
        | .ok response => .ok (s.session.rotated response) (s.does (.presented request answer)) := by
  unfold refresh_session
  rw [get_bind]
  split
  · exact .inl ⟨_,rfl⟩
  · refine .inr ⟨build_refresh_request p b64 s.keys s.session.refresh_token nonce,rfl,?_⟩
    cases answer <;> rfl

/-- A call fails and does nothing, gives out the token it has, or stops. Otherwise it
    presents the refresh token, and what it does then is up to the answer and the store. -/
theorem access_token_cases (p : Primitives) (b64 : Base64) (s : RefreshingSession) (clock : Option ℕ) (nonce : List UInt8) (answer : Except SyncError RefreshResponse)
    (outcome : Except SyncError Unit) :
    let t := leaves (access_token p b64 clock nonce answer outcome s)
    t = s ∨ s.failed = false ∧
      (t = s.does (.returned s.session.access_token) ∨ t = s.fails ∨
        ∃ request : RefreshRequestBody, request.refresh_token = s.session.refresh_token ∧
          ((∃ retry, answer = .error (.RateLimited retry) ∧ t = s.does (.presented request answer)) ∨
            (∃ e, answer = .error e ∧ t = (s.does (.presented request answer)).fails) ∨
            ∃ response next, answer = .ok response ∧ next = s.session.rotated response ∧
              let persisted := (s.does (.presented request answer)).does (.persisted next outcome)
              ((∃ e, outcome = .error e) ∧ t = persisted.fails ∨
                outcome = .ok () ∧ t = (persisted.adopts next).does (.returned next.access_token)))) := by
  unfold access_token
  rw [get_bind]
  split
  · exact .inl rfl
  rename_i working
  cases now : millis clock with
  | error e => exact .inl rfl
  | ok now =>
    refine .inr ⟨by simpa using working,?_⟩
    simp only
    split
    · rw [work_bind,work_catch]
      obtain ⟨m,ran⟩ | ⟨request,same,ran⟩ := refresh_session_cases p b64 s nonce answer
      · rw [ran]
        exact .inr (.inl rfl)
      · refine .inr (.inr ⟨request,same,?_⟩)
        rw [ran]
        cases answer with
        | error e =>
          by_cases limited : ∃ retry, e = .RateLimited retry
          · obtain ⟨retry,rfl⟩ := limited
            exact .inl ⟨retry,rfl,rfl⟩
          · refine .inr (.inl ⟨e,rfl,?_⟩)
            cases e <;> first | rfl | exact absurd ⟨_,rfl⟩ limited
        | ok response =>
          refine .inr (.inr ⟨response,_,rfl,rfl,?_⟩)
          cases outcome with
          | error e => exact .inl ⟨⟨e,rfl⟩,rfl⟩
          | ok => exact .inr ⟨rfl,rfl⟩
    · exact .inl rfl

end

/-! ### What a session may do after what it has done -/

/-- An answer that may have used the refresh token up without giving another, or a pair of
    tokens that may be lost. -/
def Spoils : SessionAct → Prop
  | .presented _ (.ok _) | .presented _ (.error (.RateLimited _)) | .persisted _ (.ok _) | .returned _ => False
  | .presented _ (.error _) | .persisted _ (.error _) => True

/-- The refresh tokens that the server has issued. -/
def issued (acts : List SessionAct) : List String :=
  acts.filterMap (fun
    | .presented _ (.ok response) => some response.refresh_token
    | _ => none)

/-- The refresh token that was issued last, the first one being that of the initial session. -/
def latest (initial : Refreshing.RemoteSession) (acts : List SessionAct) : String :=
  (issued acts).getLast?.getD initial.refresh_token

/-- The access token of a session that has been persisted, which the initial one was. -/
def Persisted (initial : Refreshing.RemoteSession) (acts : List SessionAct) (token : String) : Prop :=
  ∃ source, (source = initial ∨ .persisted source (.ok ()) ∈ acts) ∧ source.access_token = token

/-- A request is made by a session that nothing has spoilt, with the token that was issued
    last; a token is given out when its session has been persisted. -/
def Allowed (initial : Refreshing.RemoteSession) (before : List SessionAct) : SessionAct → Prop
  | .presented request _ => (∀ act ∈ before, ¬ Spoils act) ∧ request.refresh_token = latest initial before
  | .persisted _ _ => True
  | .returned token => Persisted initial before token

/-- The access token has been persisted, and while the session works it has the refresh
    token that was issued last. -/
structure Sound (initial : Refreshing.RemoteSession) (s : RefreshingSession) : Prop where
  justified : Justified (Allowed initial) s.acts
  persisted : Persisted initial s.acts s.session.access_token
  unspoilt : s.failed = false → ∀ act ∈ s.acts, ¬ Spoils act
  current : s.failed = false → s.session.refresh_token = latest initial s.acts

section
variable {initial next : Refreshing.RemoteSession} {s : RefreshingSession} {act : SessionAct} {acts : List SessionAct}

@[simp] theorem does_acts : (s.does act).acts = s.acts ++ [act] := rfl
@[simp] theorem does_session : (s.does act).session = s.session := rfl
@[simp] theorem does_failed : (s.does act).failed = s.failed := rfl
@[simp] theorem fails_acts : s.fails.acts = s.acts := rfl
@[simp] theorem fails_session : s.fails.session = s.session := rfl
@[simp] theorem fails_failed : s.fails.failed = true := rfl
@[simp] theorem adopts_acts : (s.adopts next).acts = s.acts := rfl
@[simp] theorem adopts_session : (s.adopts next).session = next := rfl
@[simp] theorem adopts_failed : (s.adopts next).failed = s.failed := rfl

theorem Persisted.concat {token : String} (persisted : Persisted initial acts token) (act : SessionAct) :
    Persisted initial (acts ++ [act]) token := by
  obtain ⟨source,written,same⟩ := persisted
  exact ⟨source,written.imp_right (List.mem_append_left _),same⟩

theorem issued_append (first rest : List SessionAct) : issued (first ++ rest) = issued first ++ issued rest :=
  List.filterMap_append

theorem latest_quiet (none_issued : issued [act] = []) : latest initial (acts ++ [act]) = latest initial acts := by
  rw [latest,issued_append,none_issued,List.append_nil,latest]

theorem latest_mem : latest initial acts ∈ initial.refresh_token :: issued acts := by
  unfold latest
  cases last : (issued acts).getLast? with
  | none => simp
  | some token => exact .tail _ (List.mem_of_getLast? last)

theorem Sound.fails (sound : Sound initial s) : Sound initial s.fails where
  justified := sound.justified
  persisted := sound.persisted
  unspoilt working := by simp at working
  current working := by simp at working

/-- An act that is allowed, spoils nothing and issues no token. -/
theorem Sound.does (sound : Sound initial s) (allowed : Allowed initial s.acts act) (keeps : ¬ Spoils act)
    (none_issued : issued [act] = []) : Sound initial (s.does act) where
  justified := sound.justified.concat allowed
  persisted := sound.persisted.concat act
  unspoilt working b inside := by
    rcases List.mem_append.mp inside with before | here
    · exact sound.unspoilt working b before
    · rwa [List.mem_singleton.mp here]
  current working := by
    rw [does_acts,latest_quiet none_issued]
    exact sound.current working

/-- Whatever an allowed act does, the session is sound if it stops. -/
theorem Sound.does_fails (sound : Sound initial s) (allowed : Allowed initial s.acts act) : Sound initial (s.does act).fails where
  justified := sound.justified.concat allowed
  persisted := sound.persisted.concat act
  unspoilt working := by simp at working
  current working := by simp at working

theorem Sound.returned (sound : Sound initial s) : Sound initial (s.does (.returned s.session.access_token)) :=
  sound.does sound.persisted id rfl

theorem Sound.presents (sound : Sound initial s) (working : s.failed = false) {request : RefreshRequestBody}
    (same : request.refresh_token = s.session.refresh_token) (answer : Except SyncError RefreshResponse) :
    Allowed initial s.acts (.presented request answer) :=
  ⟨sound.unspoilt working,same.trans (sound.current working)⟩

/-- The new pair is persisted before the session goes over to it. -/
theorem Sound.adopts (sound : Sound initial s) (working : s.failed = false) {request : RefreshRequestBody}
    (same : request.refresh_token = s.session.refresh_token) (response : RefreshResponse) :
    Sound initial (((s.does (.presented request (.ok response))).does (.persisted (s.session.rotated response) (.ok ()))).adopts
      (s.session.rotated response)) where
  justified := (sound.justified.concat (sound.presents working same (.ok response))).concat trivial
  persisted := ⟨s.session.rotated response,.inr (by simp),rfl⟩
  unspoilt _ act inside := by
    simp only [adopts_acts,does_acts,List.mem_append,List.mem_singleton] at inside
    rcases inside with (before | rfl) | rfl
    · exact sound.unspoilt working act before
    · exact id
    · exact id
  current _ := by
    simp [latest,issued,Refreshing.RemoteSession.rotated]

end

/-! ### Runs -/

inductive SessionCall where
  | access_token (clock : Option ℕ) (nonce : List UInt8) (answer : Except SyncError RefreshResponse)
    (outcome : Except SyncError Unit)
  | invalidate_access_token (rejected : String)

/-- The calls hold the lock of the session, one after the other. -/
def perform (p : Primitives) (b64 : Base64) (s : RefreshingSession) : SessionCall → RefreshingSession
  | .access_token clock nonce answer outcome => leaves (access_token p b64 clock nonce answer outcome s)
  | .invalidate_access_token rejected => s.invalidate_access_token rejected

section
variable {p : Primitives} {b64 : Base64} {initial : Refreshing.RemoteSession} {s : RefreshingSession}

theorem Sound.new {keys : DeviceKeypairs} (made : new p keys initial = .ok s) : Sound initial s := by
  unfold RefreshingSession.new at made
  split at made
  · cases made
  · cases made
    exact ⟨Justified.nil,⟨initial,.inl rfl,rfl⟩,fun _ act inside => by simp at inside,fun _ => rfl⟩

theorem Sound.access_token (sound : Sound initial s) (clock : Option ℕ) (nonce : List UInt8)
    (answer : Except SyncError RefreshResponse) (outcome : Except SyncError Unit) :
    Sound initial (leaves (access_token p b64 clock nonce answer outcome s)) := by
  obtain same | ⟨working,given | stopped | ⟨request,token,presented⟩⟩ :=
    access_token_cases p b64 s clock nonce answer outcome
  · rwa [same]
  · exact given ▸ sound.returned
  · exact stopped ▸ sound.fails
  · have allowed := sound.presents working token answer
    obtain ⟨retry,rfl,limited⟩ | ⟨e,rfl,refused⟩ | ⟨response,next,rfl,rfl,⟨-,lost⟩ | ⟨rfl,done⟩⟩ := presented
    · exact limited ▸ sound.does allowed id rfl
    · exact refused ▸ sound.does_fails allowed
    · rw [lost]
      exact ⟨(sound.justified.concat allowed).concat trivial,(sound.persisted.concat _).concat _,
        fun working => by simp at working,fun working => by simp at working⟩
    · exact done ▸ (sound.adopts working token response).returned

theorem Sound.invalidate_access_token (sound : Sound initial s) (rejected : String) :
    Sound initial (s.invalidate_access_token rejected) := by
  unfold RefreshingSession.invalidate_access_token
  split
  · exact ⟨sound.justified,sound.persisted,sound.unspoilt,sound.current⟩
  · exact sound

/-- Every run of calls keeps the session sound. -/
theorem Sound.run (calls : List SessionCall) (sound : Sound initial s) : Sound initial (calls.foldl (perform p b64) s) := by
  induction calls generalizing s with
  | nil => exact sound
  | cons call calls ih =>
    refine ih ?_
    cases call with
    | access_token clock nonce answer outcome => exact sound.access_token clock nonce answer outcome
    | invalidate_access_token rejected => exact sound.invalidate_access_token rejected

end

section
variable {initial : Refreshing.RemoteSession} {acts before between after : List SessionAct} {request request' : RefreshRequestBody}
  {answer answer' : Except SyncError RefreshResponse}

/-- A token that is presented again was refused for the rate of the requests, or the server
    has issued it again since. -/
theorem presented_again (justified : Justified (Allowed initial) acts)
    (twice : acts = before ++ .presented request answer :: between ++ .presented request' answer' :: after)
    (same : request.refresh_token = request'.refresh_token) :
    (∃ retry, answer = .error (.RateLimited retry)) ∨
      request.refresh_token ∈ issued (.presented request answer :: between) := by
  obtain ⟨unspoilt,token⟩ := justified _ _ _ twice
  have keeps := unspoilt (.presented request answer) (by simp)
  cases answer with
  | error e => cases e <;> first | exact .inl ⟨_,rfl⟩ | exact absurd trivial keeps
  | ok response =>
    right
    rw [same,token,latest,issued_append,List.getLast?_append]
    have some_issued : issued (.presented request (.ok response) :: between) ≠ [] := by simp [issued]
    rw [List.getLast?_eq_some_getLast some_issued]
    exact List.getLast_mem some_issued

/-- If the server issues no token twice, a token that is presented again was refused for the
    rate of the requests. -/
theorem presented_once (justified : Justified (Allowed initial) acts)
    (twice : acts = before ++ .presented request answer :: between ++ .presented request' answer' :: after)
    (same : request.refresh_token = request'.refresh_token) (single_use : (initial.refresh_token :: issued acts).Nodup) :
    ∃ retry, answer = .error (.RateLimited retry) := by
  rcases presented_again justified twice same with limited | again
  · exact limited
  exfalso
  obtain ⟨-,token⟩ := justified before (.presented request answer) (between ++ .presented request' answer' :: after)
    (by rw [twice,List.append_assoc,List.cons_append])
  rw [twice,issued_append,issued_append,List.append_assoc,← List.cons_append] at single_use
  exact List.disjoint_of_nodup_append single_use (token ▸ latest_mem) (List.mem_append_left _ again)

/-- Nothing is presented after an answer or a write that spoils the session. -/
theorem presents_nothing (justified : Justified (Allowed initial) acts) {act : SessionAct}
    (split : acts = before ++ act :: after) (spoils : Spoils act) : .presented request answer ∉ after := by
  intro later
  obtain ⟨between,rest,rfl⟩ := List.append_of_mem later
  rw [← List.cons_append,← List.append_assoc] at split
  exact (justified _ _ _ split).1 act (by simp) spoils

end

/-- Whatever the calls, the answers and the outcomes of the writes are: a refresh token is
    presented again only if it was refused for the rate of the requests, or if the server has
    issued it again since, which a server that issues no token twice does not; a token that
    is given out is that of the session of the caller, who has it from the store, or of one
    that was persisted before; and nothing is presented after an uncertain outcome. -/
theorem refreshing_run {p : Primitives} {b64 : Base64} {keys : DeviceKeypairs} {initial : Refreshing.RemoteSession}
    {s : RefreshingSession} (made : new p keys initial = .ok s) (calls : List SessionCall) :
    let acts := (calls.foldl (perform p b64) s).acts
    (∀ before request answer between request' answer' after,
      acts = before ++ .presented request answer :: between ++ .presented request' answer' :: after →
      request.refresh_token = request'.refresh_token →
      ((∃ retry, answer = .error (.RateLimited retry)) ∨
        request.refresh_token ∈ issued (.presented request answer :: between)) ∧
      ((initial.refresh_token :: issued acts).Nodup → ∃ retry, answer = .error (.RateLimited retry))) ∧
    (∀ before token after, acts = before ++ .returned token :: after → Persisted initial before token) ∧
    ∀ before act after, acts = before ++ act :: after → Spoils act → ∀ request answer, .presented request answer ∉ after := by
  have justified : Justified (Allowed initial) (calls.foldl (perform p b64) s).acts := ((Sound.new made).run calls).justified
  refine ⟨?_,?_,?_⟩
  · intro before request answer between request' answer' after twice same
    exact ⟨presented_again justified twice same,presented_once justified twice same⟩
  · intro before token after split
    exact justified _ _ _ split
  · intro before act after split spoils request answer
    exact presents_nothing justified split spoils

/-! ### A refresh that was put off -/

def tabletKeys : DeviceKeypairs := ⟨.replicate KEY_LEN 3,.replicate KEY_LEN 4⟩

def stored : Refreshing.RemoteSession :=
  ⟨.Content,"access",0,"row.secret",9000000,plainPrimitives.device_id tabletKeys,"tenant",some "content",1⟩

def reissued : RefreshResponse := ⟨"access'",9000000,"row'.secret'",9000000⟩

/-- The first request is refused for the rate of the requests, the next one is answered. -/
def putOff : List SessionCall :=
  [.access_token (some 1) [7] (.error (.RateLimited (some 5))) (.ok ()),.access_token (some 2) [8] (.ok reissued) (.ok ())]

def request (nonce : UInt8) : RefreshRequestBody :=
  build_refresh_request plainPrimitives plainBase64 tabletKeys stored.refresh_token [nonce]

theorem refreshing_run_put_off : Persisted stored
    [.presented (request 7) (.error (.RateLimited (some 5))),.presented (request 8) (.ok reissued),
      .persisted (stored.rotated reissued) (.ok ())] "access'" := by
  have made : new plainPrimitives tabletKeys stored = .ok ⟨tabletKeys,stored,false,[]⟩ := by
    unfold new
    exact if_neg (by simp [stored])
  exact (@refreshing_run plainPrimitives plainBase64 tabletKeys stored _ made putOff).2.1 _ _ [] (by decide +kernel)

end RefreshingSession
end Pergamon
