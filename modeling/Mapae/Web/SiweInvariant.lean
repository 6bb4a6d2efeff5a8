import Mapae.Web.Siwe

/-!
# What holds while requests sign in

A request that stores a challenge, has consumed one, or stores a session has a claim on its token
that no other request has. The event that the claim is for happens once.

* `InOrder` is what an event says about the ones before it
* `Sound` is the invariant, over the requests that are live
-/

namespace Mapae.Web

open Mapae.Infra Mapae.Store

variable {kit : SiweKit}

/-! ## The order of events -/

/-- The owner that a call asks a challenge for. -/
def AsksFor (kit : SiweKit) (call : Call) (owner : String) : Prop :=
  ∃ input address, body call.request 1024 = some input ∧ inputText input "address" = some address ∧
    owner = toLowerCase (kit.getAddress address)

/-- The signature that a call brings. -/
def Signs (call : Call) (signature : String) : Prop :=
  ∃ input, body call.request 4096 = some input ∧ signatureOf input = some signature

/-- What only one request may ever do with a token. -/
inductive Claim where
  | issue (token : String)
  | consume (token : String)
  | open_ (token : String)

def Claim.token : Claim → String
  | .issue token => token
  | .consume token => token
  | .open_ token => token

/-- The claims that an event is for. -/
def Event.spends : Event → List Claim
  | .issued _ token _ => [.issue token]
  | .opened challenge _ token _ => [.consume challenge, .open_ token]
  | _ => []

def Spent (log : List Event) (c : Claim) : Prop := ∃ e ∈ log, c ∈ e.spends

/-- What a challenge is when it is issued: for the owner the call asks for, on the origin of the call. -/
structure IssuedFor (kit : SiweKit) (call : Call) (token : String) (challenge : ChallengeRow) : Prop where
  hash : challenge.tokenHash = kit.tokenHash token
  owner : AsksFor kit call challenge.owner
  origin : challenge.origin = call.request.origin
  message : ∃ nonce, siweMessage kit call challenge.owner nonce = some challenge.message
  expiresAt : challenge.expiresAt = call.now + CHALLENGE_MS

/-- The call brings the token of a challenge that was issued, on its origin and in time. -/
structure Consumes (log : List Event) (call : Call) (token : String) (challenge : ChallengeRow) :
    Prop where
  cookie : readCookie call.request call.site.challengeCookie = some token
  issued : ∃ issuer, .issued issuer token challenge ∈ log
  origin : challenge.origin = call.request.origin
  inTime : call.now < challenge.expiresAt

/-- The call signs the message of the challenge that it brings, as its owner. -/
structure Authenticates (kit : SiweKit) (log : List Event) (call : Call) (token : String)
    (challenge : ChallengeRow) : Prop extends Consumes log call token challenge where
  signed : ∃ signature, Signs call signature ∧
    kit.verify challenge.owner challenge.message signature = true

/-- The session that a login opens for a challenge. -/
structure OpenedFor (kit : SiweKit) (call : Call) (token : String) (challenge : ChallengeRow)
    (session : SessionRow) : Prop where
  hash : session.tokenHash = kit.tokenHash token
  owner : session.owner = challenge.owner
  origin : session.origin = challenge.origin
  expiresAt : session.expiresAt = call.now + call.site.sessionSeconds * 1000

/-- What an event says about the ones before it. -/
def InOrder (kit : SiweKit) (before : List Event) : Event → Prop
  | .issued call token challenge =>
    IssuedFor kit call token challenge ∧ ¬ Spent before (.issue token)
  | .opened challengeToken login token session =>
    (∃ challenge, Authenticates kit before login challengeToken challenge ∧
      OpenedFor kit login token challenge session) ∧
      ¬ Spent before (.consume challengeToken) ∧ ¬ Spent before (.open_ token)
  | .replied call (.loggedIn owner token) => ∃ challengeToken session,
      .opened challengeToken call token session ∈ before ∧ session.owner = owner
  | .replied call (.owner (some owner)) =>
    ∃ token challengeToken login session later earlier,
      readCookie call.request call.site.sessionCookie = some token ∧
      before = later ++ .opened challengeToken login token session :: earlier ∧
      .left token ∉ later ∧ session.origin = call.request.origin ∧
      call.now < session.expiresAt ∧ owner = session.owner ∧
      (call.kind = .walletOwner → ∃ requested, call.request.wallet = some requested ∧
        toLowerCase requested = owner)
  | _ => True

/-! ## Requests that wait -/

def Phase.claims : Phase → List Claim
  | .issuing token _ => [.issue token]
  | .verifying token _ _ => [.consume token]
  | .leavingPrevious token _ _ => [.consume token]
  | .opening token sessionToken _ => [.consume token, .open_ sessionToken]
  | _ => []

/-- What a waiting request knows. -/
def PhaseOk (kit : SiweKit) (log : List Event) (call : Call) : Phase → Prop
  | .limitingOwner owner => AsksFor kit call owner
  | .limitingIp owner _ => AsksFor kit call owner
  | .cleaning owner => AsksFor kit call owner
  | .issuing token challenge => IssuedFor kit call token challenge
  | .consuming token signature =>
    readCookie call.request call.site.challengeCookie = some token ∧ Signs call signature
  | .verifying token signature challenge =>
    Consumes log call token challenge ∧ Signs call signature
  | .leavingPrevious token _ challenge => Authenticates kit log call token challenge
  | .opening token sessionToken session => ∃ challenge,
      Authenticates kit log call token challenge ∧
      OpenedFor kit call sessionToken challenge session
  | .identifying token => readCookie call.request call.site.sessionCookie = some token
  | .leaving _ => True

/-- A session that was opened, and not left since. -/
def Opened (kit : SiweKit) (log : List Event) (session : SessionRow) : Prop :=
  ∃ token challengeToken login later earlier, session.tokenHash = kit.tokenHash token ∧
    log = later ++ .opened challengeToken login token session :: earlier ∧ .left token ∉ later

/-- The invariant, with the requests of `live` waiting. -/
structure Sound (kit : SiweKit) (repo : ProfileRepository) (tokens : List String)
    (log : List Event) (live : Process → Prop) : Prop where
  order : Justified (InOrder kit) log
  phases : ∀ p, live p → PhaseOk kit log p.call p.phase
  once : ∀ p q c, live p → live q → c ∈ p.phase.claims → c ∈ q.phase.claims → p.id = q.id
  unspent : ∀ p c, live p → c ∈ p.phase.claims → ¬ Spent log c
  drawn : ∀ p c, live p → c ∈ p.phase.claims → c.token ∈ tokens
  spent : ∀ c, Spent log c → c.token ∈ tokens
  challenges : ∀ challenge ∈ repo.challenges, ∃ issuer token,
    challenge.tokenHash = kit.tokenHash token ∧ .issued issuer token challenge ∈ log ∧
    ¬ Spent log (.consume token) ∧ ∀ p, live p → .consume token ∉ p.phase.claims
  sessions : ∀ session ∈ repo.sessions, Opened kit log session

variable {repo repo' : ProfileRepository} {tokens : List String} {log : List Event}
  {live live' : Process → Prop} {p : Process} {call : Call} {phase : Phase} {e : Event}
  {token : String} {challenge : ChallengeRow} {session : SessionRow} {c : Claim}

/-! ## More events -/

theorem spent_cons : Spent (e :: log) c ↔ c ∈ e.spends ∨ Spent log c := by
  simp [Spent]

theorem Consumes.cons (h : Consumes log call token challenge) :
    Consumes (e :: log) call token challenge := by
  obtain ⟨issuer, hissued⟩ := h.issued
  exact { h with issued := ⟨issuer, List.mem_cons_of_mem _ hissued⟩ }

theorem Authenticates.cons (h : Authenticates kit log call token challenge) :
    Authenticates kit (e :: log) call token challenge :=
  ⟨h.toConsumes.cons, h.signed⟩

theorem PhaseOk.cons (h : PhaseOk kit log call phase) : PhaseOk kit (e :: log) call phase := by
  cases phase with
  | verifying token signature challenge => exact ⟨h.1.cons, h.2⟩
  | leavingPrevious token previous challenge => exact h.cons
  | opening token sessionToken session =>
    obtain ⟨challenge, hauth, hopened⟩ := h
    exact ⟨challenge, hauth.cons, hopened⟩
  | _ => exact h

theorem Opened.cons (h : Opened kit log session)
    (hleft : ∀ token, session.tokenHash = kit.tokenHash token → e ≠ .left token) :
    Opened kit (e :: log) session := by
  obtain ⟨token, challengeToken, login, later, earlier, hhash, hlog, hstays⟩ := h
  refine ⟨token, challengeToken, login, e :: later, earlier, hhash, congrArg (e :: ·) hlog, ?_⟩
  intro hmem
  rcases List.mem_cons.mp hmem with he | hmem
  · exact hleft token hhash he.symm
  · exact hstays hmem

/-- Only an issued challenge is consumed. -/
theorem Consumes.spent (h : Consumes log call token challenge) : Spent log (.issue token) := by
  obtain ⟨issuer, hissued⟩ := h.issued
  exact ⟨_, hissued, List.mem_cons_self⟩

theorem PhaseOk.spent_of_consume (h : PhaseOk kit log call phase)
    (hc : .consume token ∈ phase.claims) : Spent log (.issue token) := by
  cases phase with
  | verifying t signature challenge =>
    obtain rfl := Claim.consume.inj (List.mem_singleton.mp hc)
    exact h.1.spent
  | leavingPrevious t previous challenge =>
    obtain rfl := Claim.consume.inj (List.mem_singleton.mp hc)
    exact h.toConsumes.spent
  | opening t sessionToken session =>
    obtain ⟨challenge, hauth, -⟩ := h
    rcases List.mem_cons.mp hc with he | hc
    · obtain rfl := Claim.consume.inj he
      exact hauth.toConsumes.spent
    · exact nomatch List.mem_singleton.mp hc
  | issuing t challenge => exact nomatch List.mem_singleton.mp hc
  | _ => exact nomatch hc

theorem issue_of_consume (hlog : Justified (InOrder kit) log) (h : Spent log (.consume token)) :
    Spent log (.issue token) := by
  obtain ⟨e, he, hc⟩ := h
  obtain ⟨later, earlier, rfl⟩ := List.append_of_mem he
  have horder := hlog.at
  cases e with
  | opened challengeToken login sessionToken session =>
    obtain ⟨⟨challenge, hauth, -⟩, -⟩ := horder
    obtain rfl : token = challengeToken := by
      rcases List.mem_cons.mp hc with he | hc
      · exact Claim.consume.inj he
      · exact nomatch List.mem_singleton.mp hc
    obtain ⟨e', he', hc'⟩ := hauth.toConsumes.spent
    exact ⟨e', List.mem_append_right _ (List.mem_cons_of_mem _ he'), hc'⟩
  | issued _ t _ => exact nomatch List.mem_singleton.mp hc
  | _ => exact nomatch hc

/-- A claim that nobody in `live` holds, and that is not spent. -/
structure Free (kit : SiweKit) (repo : ProfileRepository) (tokens : List String)
    (log : List Event) (live : Process → Prop) (c : Claim) : Prop where
  drawn : c.token ∈ tokens
  unspent : ¬ Spent log c
  alone : ∀ q, live q → c ∉ q.phase.claims
  gone : ∀ challenge ∈ repo.challenges, ∀ token,
    challenge.tokenHash = kit.tokenHash token → c ≠ .consume token

namespace Sound

/-! ## What keeps the invariant -/

theorem shrink (h : Sound kit repo tokens log live) (hlive : ∀ p, live' p → live p)
    (hchallenges : ∀ row ∈ repo'.challenges, row ∈ repo.challenges)
    (hsessions : ∀ s ∈ repo'.sessions, s ∈ repo.sessions) : Sound kit repo' tokens log live' where
  order := h.order
  phases p hp := h.phases p (hlive p hp)
  once p q c hp hq := h.once p q c (hlive p hp) (hlive q hq)
  unspent p c hp := h.unspent p c (hlive p hp)
  drawn p c hp := h.drawn p c (hlive p hp)
  spent := h.spent
  challenges challenge hc := by
    obtain ⟨issuer, token, hhash, hissued, hspent, hclaims⟩ := h.challenges challenge (hchallenges _ hc)
    exact ⟨issuer, token, hhash, hissued, hspent, fun p hp => hclaims p (hlive p hp)⟩
  sessions s hs := h.sessions s (hsessions s hs)

theorem draw (h : Sound kit repo tokens log live) (fresh : List String) :
    Sound kit repo (fresh ++ tokens) log live :=
  { h with
    drawn := fun p c hp hc => List.mem_append_right _ (h.drawn p c hp hc)
    spent := fun c hc => List.mem_append_right _ (h.spent c hc) }

/-- An event whose claims nobody holds any more. -/
theorem note (h : Sound kit repo tokens log live) (horder : InOrder kit log e)
    (hfree : ∀ c ∈ e.spends, Free kit repo tokens log live c)
    (hsessions : ∀ s ∈ repo.sessions, ∀ token, s.tokenHash = kit.tokenHash token →
      e ≠ .left token) : Sound kit repo tokens (e :: log) live where
  order := ⟨horder, h.order⟩
  phases p hp := (h.phases p hp).cons
  once := h.once
  unspent p c hp hc hspent := by
    rcases spent_cons.mp hspent with hspends | hspent
    · exact (hfree c hspends).alone p hp hc
    · exact h.unspent p c hp hc hspent
  drawn := h.drawn
  spent c hspent := by
    rcases spent_cons.mp hspent with hspends | hspent
    · exact (hfree c hspends).drawn
    · exact h.spent c hspent
  challenges challenge hc := by
    obtain ⟨issuer, token, hhash, hissued, hspent, hclaims⟩ := h.challenges challenge hc
    refine ⟨issuer, token, hhash, List.mem_cons_of_mem _ hissued, fun hspent' => ?_, hclaims⟩
    rcases spent_cons.mp hspent' with hspends | hspent'
    · exact (hfree _ hspends).gone challenge hc token hhash rfl
    · exact hspent hspent'
  sessions s hs := (h.sessions s hs).cons (hsessions s hs)

/-- A reply, which spends no claim. -/
theorem reply {r : Reply} (h : Sound kit repo tokens log live)
    (horder : InOrder kit log (.replied call r)) :
    Sound kit repo tokens (.replied call r :: log) live :=
  h.note horder (fun _ hc => nomatch hc) fun _ _ _ _ => nofun

/-- A request waits that holds no claim of another one. -/
theorem wait (h : Sound kit repo tokens log live) (hok : PhaseOk kit log p.call p.phase)
    (hfree : ∀ c ∈ p.phase.claims, Free kit repo tokens log live c) :
    Sound kit repo tokens log fun q => live q ∨ q = p where
  order := h.order
  phases := by
    rintro q (hq | rfl)
    · exact h.phases q hq
    · exact hok
  once := by
    rintro q q' c (hq | rfl) (hq' | rfl) hc hc'
    · exact h.once q q' c hq hq' hc hc'
    · exact absurd hc ((hfree c hc').alone q hq)
    · exact absurd hc' ((hfree c hc).alone q' hq')
    · rfl
  unspent := by
    rintro q c (hq | rfl) hc
    · exact h.unspent q c hq hc
    · exact (hfree c hc).unspent
  drawn := by
    rintro q c (hq | rfl) hc
    · exact h.drawn q c hq hc
    · exact (hfree c hc).drawn
  spent := h.spent
  challenges challenge hc := by
    obtain ⟨issuer, token, hhash, hissued, hspent, hclaims⟩ := h.challenges challenge hc
    refine ⟨issuer, token, hhash, hissued, hspent, ?_⟩
    rintro q (hq | rfl)
    · exact hclaims q hq
    · exact fun hclaim => (hfree _ hclaim).gone challenge hc token hhash rfl
  sessions := h.sessions

end Sound

/-! ## Claims that are free -/

theorem Free.mono (h : Free kit repo tokens log live c)
    (hchallenges : ∀ row ∈ repo'.challenges, row ∈ repo.challenges)
    (hlive : ∀ p, live' p → live p) (fresh : List String) :
    Free kit repo' (fresh ++ tokens) log live' c where
  drawn := List.mem_append_right _ h.drawn
  unspent := h.unspent
  alone q hq := h.alone q (hlive q hq)
  gone challenge hc := h.gone challenge (hchallenges challenge hc)

theorem Free.cons (h : Free kit repo tokens log live c) (he : c ∉ e.spends) :
    Free kit repo tokens (e :: log) live c :=
  { h with unspent := fun hspent => (spent_cons.mp hspent).elim he h.unspent }

/-- What a request claims is free for it when it goes on. -/
theorem Sound.free (h : Sound kit repo tokens log live) (hash : Function.Injective kit.tokenHash)
    (hp : live p) (hc : c ∈ p.phase.claims) :
    Free kit repo tokens log (fun q => live q ∧ q.id ≠ p.id) c where
  drawn := h.drawn p c hp hc
  unspent := h.unspent p c hp hc
  alone q hq hc' := hq.2 (h.once q p c hq.1 hp hc' hc)
  gone challenge hmem token hhash := by
    rintro rfl
    obtain ⟨issuer, token', hhash', -, -, hclaims⟩ := h.challenges challenge hmem
    obtain rfl := hash (hhash'.symm.trans hhash)
    exact hclaims p hp hc

/-- A token that was not drawn before has no claim on it. -/
theorem Sound.free_of_fresh (h : Sound kit repo tokens log live) (hfresh : c.token ∉ tokens)
    (hc : ∀ token, c ≠ .consume token) : Free kit repo (c.token :: tokens) log live c where
  drawn := List.mem_cons_self
  unspent hspent := hfresh (h.spent c hspent)
  alone q hq hclaim := hfresh (h.drawn q c hq hclaim)
  gone _ _ token _ := hc token

end Mapae.Web
