import Mathlib.Data.String.Basic
import Mapae.Infra.Json
import Mapae.Infra.Table
import Mapae.Infra.Transition
import Mapae.Store.Values

/-!
# Sign-in

A one-use challenge in a cookie, then a session cookie whose hash names the owner. A request runs
without a break up to its next statement on the repository. Other requests, on any origin, run
meanwhile.

* challenges, sessions and rate limits of all sites share three tables; every operation of the
  repository is one statement (`cleanup` is one batch)
* `consumeChallenge` deletes the challenge that it returns, `identity` reads a session for one origin
* `Phase` is where a request waits, `Phase.perform` is what it does up to its next wait
* `World.act` is everything that can happen, in any order
* a statement may fail, and its answer may be lost after it was carried out
-/

namespace Mapae.Web

open Mapae.Infra Mapae.Store

structure ChallengeRow where
  tokenHash : String
  owner : String
  origin : String
  message : String
  expiresAt : Nat

structure SessionRow where
  tokenHash : String
  owner : String
  origin : String
  expiresAt : Nat

structure LimitRow where
  bucket : String
  count : Nat
  expiresAt : Nat

structure ProfileRepository where
  challenges : Table ChallengeRow.tokenHash
  sessions : Table SessionRow.tokenHash
  limits : Table LimitRow.bucket

namespace ProfileRepository

def empty : ProfileRepository := ⟨.empty, .empty, .empty⟩

/-- Whether one more is within the limit; if so it is counted. -/
def rateLimit (r : ProfileRepository) (bucket : String) (until_ms limit : Nat) :
    Bool × ProfileRepository :=
  match r.limits.get? bucket with
  | none => (true, { r with limits := r.limits.upsert ⟨bucket, 1, until_ms⟩ })
  | some row =>
    if row.count < limit then
      (true, { r with limits := r.limits.upsert { row with count := row.count + 1 } })
    else (false, r)

/-- `INSERT INTO arcade_login_challenges`; nothing where it throws. -/
def challenge (r : ProfileRepository) (row : ChallengeRow) : Option ProfileRepository :=
  (r.challenges.insert? row).map fun challenges => { r with challenges := challenges }

/-- `DELETE ... RETURNING`. -/
def consumeChallenge (r : ProfileRepository) (hash origin : String) (now : Nat) :
    Option ChallengeRow × ProfileRepository :=
  match (r.challenges.get? hash).filter fun row => row.origin = origin ∧ now < row.expiresAt with
  | none => (none, r)
  | some row =>
    (some row, { r with challenges := r.challenges.filter fun c => c.tokenHash ≠ hash })

/-- `INSERT INTO arcade_sessions`; nothing where it throws. -/
def session (r : ProfileRepository) (row : SessionRow) : Option ProfileRepository :=
  (r.sessions.insert? row).map fun sessions => { r with sessions := sessions }

def identity (r : ProfileRepository) (hash origin : String) (now : Nat) : Option SessionRow :=
  (r.sessions.get? hash).filter fun row => row.origin = origin ∧ now < row.expiresAt

def logout (r : ProfileRepository) (hash : String) : ProfileRepository :=
  { r with sessions := r.sessions.filter fun s => s.tokenHash ≠ hash }

def cleanup (r : ProfileRepository) (now : Nat) : ProfileRepository where
  challenges := r.challenges.filter fun row => now < row.expiresAt
  sessions := r.sessions.filter fun row => now < row.expiresAt
  limits := r.limits.filter fun row => now < row.expiresAt

/-! ## What the statements do -/

variable {r r' : ProfileRepository} {row c : ChallengeRow} {s x : SessionRow} {hash origin : String}
  {now : Nat}

theorem rateLimit_rows (r : ProfileRepository) (bucket : String) (until_ms limit : Nat) :
    (r.rateLimit bucket until_ms limit).2.challenges = r.challenges ∧
      (r.rateLimit bucket until_ms limit).2.sessions = r.sessions := by
  unfold rateLimit
  split
  · exact ⟨rfl, rfl⟩
  · split
    · exact ⟨rfl, rfl⟩
    · exact ⟨rfl, rfl⟩

theorem challenge_eq_some (h : r.challenge row = some r') :
    (∀ c, c ∈ r'.challenges ↔ c ∈ r.challenges ∨ c = row) ∧ r'.sessions = r.sessions := by
  obtain ⟨challenges, hinsert, rfl⟩ := Option.map_eq_some_iff.mp h
  exact ⟨fun c => Table.mem_insert? hinsert, rfl⟩

theorem session_eq_some (h : r.session s = some r') :
    (∀ x, x ∈ r'.sessions ↔ x ∈ r.sessions ∨ x = s) ∧ r'.challenges = r.challenges := by
  obtain ⟨sessions, hinsert, rfl⟩ := Option.map_eq_some_iff.mp h
  exact ⟨fun x => Table.mem_insert? hinsert, rfl⟩

/-- **A challenge that is consumed was there for the origin, in time, and is gone.** -/
theorem consumeChallenge_eq_some (h : (r.consumeChallenge hash origin now).1 = some row) :
    row ∈ r.challenges ∧ row.tokenHash = hash ∧ row.origin = origin ∧ now < row.expiresAt ∧
      ∀ c ∈ (r.consumeChallenge hash origin now).2.challenges, c.tokenHash ≠ hash := by
  unfold consumeChallenge at h ⊢
  split at h
  · cases h
  · next found hfound =>
    cases h
    obtain ⟨hget, hvalid⟩ := Option.filter_eq_some_iff.mp hfound
    obtain ⟨hmem, hhash⟩ := Table.get?_eq_some.mp hget
    obtain ⟨horigin, htime⟩ := of_decide_eq_true hvalid
    refine ⟨hmem, hhash, horigin, htime, fun c hc => ?_⟩
    exact of_decide_eq_true (Table.mem_filter.mp hc).2

theorem consumeChallenge_rows (r : ProfileRepository) (hash origin : String) (now : Nat) :
    (∀ c ∈ (r.consumeChallenge hash origin now).2.challenges, c ∈ r.challenges) ∧
      (r.consumeChallenge hash origin now).2.sessions = r.sessions := by
  unfold consumeChallenge
  split
  · exact ⟨fun _ hc => hc, rfl⟩
  · exact ⟨fun c hc => (Table.mem_filter.mp hc).1, rfl⟩

/-- **A session answers for its origin, in time.** -/
theorem identity_eq_some (h : r.identity hash origin now = some s) :
    s ∈ r.sessions ∧ s.tokenHash = hash ∧ s.origin = origin ∧ now < s.expiresAt := by
  obtain ⟨hget, hvalid⟩ := Option.filter_eq_some_iff.mp h
  obtain ⟨hmem, hhash⟩ := Table.get?_eq_some.mp hget
  obtain ⟨horigin, htime⟩ := of_decide_eq_true hvalid
  exact ⟨hmem, hhash, horigin, htime⟩

theorem mem_logout : s ∈ (r.logout hash).sessions ↔ s ∈ r.sessions ∧ s.tokenHash ≠ hash := by
  rw [logout, Table.mem_filter, decide_eq_true_eq]

end ProfileRepository

/-! ## Requests -/

structure SiweSite where
  sessionCookie : String
  challengeCookie : String
  sessionSeconds : Nat
  statement : String
  uriPath : String
  limitPrefix : String

def SIWE_CHAIN_ID : Nat := 91342

def CHALLENGE_MS : Nat := 300000

structure Request where
  /-- `new URL(request.url).origin`. -/
  origin : String
  /-- `new URL(request.url).host`. -/
  host : String
  /-- `Cookie`. -/
  cookies : Option String
  /-- `CF-Connecting-IP`. -/
  connectingIp : Option String
  /-- `X-Mapae-Wallet`. -/
  wallet : Option String
  /-- The bytes of the body; nothing where there is no body. -/
  size : Option Nat
  /-- The parsed body; nothing where it is not JSON. -/
  parsed : Option Json

/-- The fields of `createSiweMessage`. -/
structure SiweFields where
  address : String
  chainId : Nat
  domain : String
  uri : String
  version : String
  nonce : String
  issuedAt : Nat
  expirationTime : Nat
  statement : String

/-- What the sign-in uses of its libraries. -/
structure SiweKit where
  isAddress : String → Bool
  getAddress : String → String
  /-- SHA-256 of the UTF-8 text, as hex. -/
  tokenHash : String → String
  /-- `ipBucket`, which is only ever a part of a bucket's name. -/
  ipBucket : String → String
  /-- Nothing where it throws. -/
  createSiweMessage : SiweFields → Option String
  /-- `verifyMessage` of address, message and signature; no where it throws. -/
  verify : String → String → String → Bool

/-- The shape of a token. -/
def isToken (value : List Char) : Bool :=
  value.length = 64 ∧ value.all fun c => ('a' ≤ c ∧ c ≤ 'f') ∨ ('0' ≤ c ∧ c ≤ '9')

/-- The cookie `name`, if it holds a token. Of two cookies with one name the first counts. -/
def readCookie (request : Request) (name : String) : Option String := do
  let header ← request.cookies
  let cookie ← ((header.toList.splitOn ';').map fun part => trim (String.ofList part)).find?
    fun part => (name ++ "=").toList.isPrefixOf part
  let value := cookie.drop (name.length + 1)
  if isToken value then some (String.ofList value) else none

/-- The body; nothing where reading it throws. -/
def body (request : Request) (max : Nat) : Option Json := do
  let size ← request.size
  if size ≤ max then request.parsed else none

/-- The text under `name` of an input that is an object. -/
def inputText (input : Json) (name : String) : Option String :=
  match input with
  | .object _ => input.textField name
  | _ => none

inductive Kind where
  | challenge
  | login
  | sessionOwner
  | walletOwner
  | logout

/-- A request to a site, with the time it reads when it starts. -/
structure Call where
  kind : Kind
  request : Request
  site : SiweSite
  now : Nat

inductive Reply where
  | error (code : String) (status : Nat)
  | limited (retryAfter : Nat)
  /-- The message, and the token of the challenge cookie. -/
  | challenged (message token : String)
  /-- The owner, and the token of the session cookie. -/
  | loggedIn (owner token : String)
  | owner (value : Option String)
  | loggedOut
  /-- The request throws. -/
  | thrown

/-! ## Where a request waits -/

inductive Phase where
  | limitingOwner (owner : String)
  | limitingIp (owner bucket : String)
  | cleaning (owner : String)
  | issuing (token : String) (challenge : ChallengeRow)
  | consuming (token signature : String)
  /-- The challenge is consumed, and its signature is being verified. -/
  | verifying (token signature : String) (challenge : ChallengeRow)
  | leavingPrevious (token previous : String) (challenge : ChallengeRow)
  | opening (token sessionToken : String) (session : SessionRow)
  | identifying (token : String)
  | leaving (token : String)

/-- A request waits, or it is answered. -/
inductive Next where
  | await (phase : Phase)
  | reply (reply : Reply)

/-- What the repository and the clients see happen. -/
inductive Event where
  /-- A challenge is stored under the hash of its token. -/
  | issued (call : Call) (token : String) (challenge : ChallengeRow)
  /-- A session is stored by a login that consumed the challenge of `challenge`. -/
  | opened (challenge : String) (login : Call) (token : String) (session : SessionRow)
  /-- The session of a token is deleted. -/
  | left (token : String)
  | replied (call : Call) (reply : Reply)

/-- What a request does between two waits. -/
structure Stretch where
  next : Next
  repo : ProfileRepository
  event : Option Event := none
  /-- The tokens drawn at random. -/
  drawn : List String := []

/-- What is drawn at random in case it is needed. -/
structure Draw where
  /-- `generateSiweNonce()`. -/
  nonce : String
  /-- `token()`. -/
  token : String

section Flow

variable (kit : SiweKit) (c : Call)

/-- `limited`. -/
def limited (until_ms now : Nat) : Reply := .limited (max 1 ((until_ms - now + 999) / 1000))

/-- The end of the rate window. -/
def Call.windowEnd : Nat := (c.now / 600000 + 1) * 600000

/-- `repo.rateLimit`. -/
def rateLimit (r : ProfileRepository) (bucket : String) (limit : Nat) (next : Next) : Stretch :=
  let (within, r) := r.rateLimit s!"{c.site.limitPrefix}{bucket}:{c.now / 600000}" c.windowEnd limit
  { next := if within then next else .reply (limited c.windowEnd c.now), repo := r }

/-- The wait for the second limit, where there is an address to count. -/
def ipLimit (owner : String) : Next :=
  match c.request.connectingIp with
  | none => .await (.cleaning owner)
  | some ip =>
    if ip = "" ∨ kit.ipBucket ip = "" then .await (.cleaning owner)
    else .await (.limitingIp owner (kit.ipBucket ip))

def siweMessage (owner nonce : String) : Option String :=
  kit.createSiweMessage
    { address := kit.getAddress owner
      chainId := SIWE_CHAIN_ID
      domain := c.request.host
      uri := c.request.origin ++ c.site.uriPath
      version := "1"
      nonce := nonce
      issuedAt := c.now
      expirationTime := c.now + CHALLENGE_MS
      statement := c.site.statement }

def siweChallenge : Next :=
  match body c.request 1024 with
  | none => .reply .thrown
  | some input =>
    match (inputText input "address").filter kit.isAddress with
    | none => .reply (.error "invalid_address" 400)
    | some address => .await (.limitingOwner (toLowerCase (kit.getAddress address)))

/-- The signature of a login, if it has the shape of one. -/
def signatureOf (input : Json) : Option String := (inputText input "signature").filter (isHexOf 65)

def siweLogin : Next :=
  match body c.request 4096 with
  | none => .reply .thrown
  | some input =>
    match readCookie c.request c.site.challengeCookie, signatureOf input with
    | some token, some signature => .await (.consuming token signature)
    | _, _ => .reply (.error "invalid_login" 400)

/-- The owner that `siweSessionOwner` or `siweWalletOwner` makes of the session's owner. -/
def ownerOf (identity : Option SessionRow) : Option String :=
  let owner := (identity.filter fun s => kit.isAddress s.owner).map fun s => toLowerCase s.owner
  match c.kind with
  | .walletOwner => owner.filter fun owner =>
      c.request.wallet.any fun requested =>
        requested ≠ "" ∧ kit.isAddress requested ∧ toLowerCase requested = owner
  | _ => owner

/-- `siweSessionOwner`, and with it `siweWalletOwner`. -/
def siweSessionOwner : Next :=
  match readCookie c.request c.site.sessionCookie with
  | none => .reply (.owner (ownerOf kit c none))
  | some token => .await (.identifying token)

def siweLogout : Next :=
  match readCookie c.request c.site.sessionCookie with
  | none => .reply .loggedOut
  | some token => .await (.leaving token)

/-- A request up to its first wait. -/
def Call.start : Next :=
  match c.kind with
  | .challenge => siweChallenge kit c
  | .login => siweLogin c
  | .sessionOwner => siweSessionOwner kit c
  | .walletOwner => siweSessionOwner kit c
  | .logout => siweLogout c

/-- The session of a login, under a token that is drawn for it. -/
def openSession (r : ProfileRepository) (draw : Draw) (token : String) (challenge : ChallengeRow) :
    Stretch where
  next := .await (.opening token draw.token
    { tokenHash := kit.tokenHash draw.token
      owner := challenge.owner
      origin := c.request.origin
      expiresAt := c.now + c.site.sessionSeconds * 1000 })
  repo := r
  drawn := [draw.token]

/-- What a request does from one wait to the next, when its statement is carried out. -/
def Phase.perform (draw : Draw) (r : ProfileRepository) : Phase → Stretch
  | .limitingOwner owner => rateLimit c r s!"owner:{owner}" 20 (ipLimit kit c owner)
  | .limitingIp owner bucket =>
    rateLimit c r s!"ip:{kit.tokenHash bucket}" 60 (.await (.cleaning owner))
  | .cleaning owner =>
    match siweMessage kit c owner draw.nonce with
    | none => { next := .reply .thrown, repo := r.cleanup c.now }
    | some message =>
      { next := .await (.issuing draw.token
          { tokenHash := kit.tokenHash draw.token
            owner := owner
            origin := c.request.origin
            message := message
            expiresAt := c.now + CHALLENGE_MS })
        repo := r.cleanup c.now
        drawn := [draw.token] }
  | .issuing token challenge =>
    match r.challenge challenge with
    | none => { next := .reply .thrown, repo := r }
    | some r =>
      { next := .reply (.challenged challenge.message token)
        repo := r
        event := some (.issued c token challenge) }
  | .consuming token signature =>
    let (challenge, r) := r.consumeChallenge (kit.tokenHash token) c.request.origin c.now
    match challenge.filter fun challenge => kit.isAddress challenge.owner with
    | none => { next := .reply (.error "challenge_expired" 401), repo := r }
    | some challenge => { next := .await (.verifying token signature challenge), repo := r }
  | .verifying token signature challenge =>
    if kit.verify challenge.owner challenge.message signature then
      match readCookie c.request c.site.sessionCookie with
      | none => openSession kit c r draw token challenge
      | some previous => { next := .await (.leavingPrevious token previous challenge), repo := r }
    else { next := .reply (.error "invalid_signature" 401), repo := r }
  | .leavingPrevious token previous challenge =>
    { openSession kit c (r.logout (kit.tokenHash previous)) draw token challenge with
      event := some (.left previous) }
  | .opening token sessionToken session =>
    match r.session session with
    | none => { next := .reply .thrown, repo := r }
    | some r =>
      { next := .reply (.loggedIn session.owner sessionToken)
        repo := r
        event := some (.opened token c sessionToken session) }
  | .identifying token =>
    { next := .reply (.owner (ownerOf kit c
        (r.identity (kit.tokenHash token) c.request.origin c.now)))
      repo := r }
  | .leaving token =>
    { next := .reply .loggedOut
      repo := r.logout (kit.tokenHash token)
      event := some (.left token) }

end Flow

/-! ## Everything that can happen -/

/-- A request that waits. -/
structure Process where
  id : Nat
  call : Call
  phase : Phase

structure World where
  repo : ProfileRepository
  running : Table Process.id
  /-- The tokens drawn so far. -/
  tokens : List String
  log : List Event

namespace World

def initial : World := ⟨.empty, .empty, [], []⟩

/-- How a statement goes: carried out, carried out with its answer lost, or not carried out. -/
inductive Fate where
  | done
  | lost
  | failed

inductive Action where
  /-- A request comes in, under a free id. -/
  | start (id : Nat) (call : Call)
  | proceed (id : Nat) (fate : Fate) (draw : Draw)
  /-- The expired rows are deleted. -/
  | cleanup (now : Nat)

/-- The request `p` waits again, or ends with a reply. -/
def settle (w : World) (id : Nat) (call : Call) : Next → Option World
  | .await phase =>
    ((w.running.filter fun p => p.id ≠ id).insert? ⟨id, call, phase⟩).map fun running =>
      { w with running := running }
  | .reply reply => some
      { w with
        running := w.running.filter fun p => p.id ≠ id
        log := .replied call reply :: w.log }

/-- A stretch of the request `p`. -/
def stretch (w : World) (p : Process) (fate : Fate) (s : Stretch) : Option World :=
  match fate with
  | .done =>
    settle { w with repo := s.repo, tokens := s.drawn ++ w.tokens, log := s.event.toList ++ w.log }
      p.id p.call s.next
  | .lost =>
    settle { w with repo := s.repo, log := s.event.toList ++ w.log } p.id p.call (.reply .thrown)
  | .failed => settle w p.id p.call (.reply .thrown)

/-- The world after an action; nothing where it cannot happen. A token is drawn once. -/
def act (kit : SiweKit) (w : World) : Action → Option World
  | .start id call =>
    if (w.running.get? id).isNone then w.settle id call (call.start kit) else none
  | .proceed id fate draw => do
    let p ← w.running.get? id
    let s := p.phase.perform kit p.call draw w.repo
    if s.drawn.any fun token => token ∈ w.tokens ∨ ¬ isToken token.toList then none
    else w.stretch p fate s
  | .cleanup now => some { w with repo := w.repo.cleanup now }

end World

/-- Sign-in over one repository. -/
def signIn (kit : SiweKit) : System World := System.ofAct (· = World.initial) (World.act kit)

end Mapae.Web
