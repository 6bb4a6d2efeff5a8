import Mapae.Web.SiweInvariant

/-!
# Steps of the sign-in

* `ready_perform` says what a stretch of a request leaves, whatever the statement answers
* `World.Sound.act` is the step of the invariant
-/

namespace Mapae.Web

open Mapae.Infra Mapae.Store

variable {kit : SiweKit} {w w' : World} {p : Process} {s : Stretch} {c : Call} {draw : Draw}

/-- The requests other than `p`. -/
def World.others (w : World) (p : Process) (q : Process) : Prop := q ∈ w.running ∧ q.id ≠ p.id

/-- The invariant in a world. -/
def World.Sound (kit : SiweKit) (w : World) : Prop :=
  Web.Sound kit w.repo w.tokens w.log (· ∈ w.running)

/-- What a request may go on to after its statement. -/
def NextOk (kit : SiweKit) (repo : ProfileRepository) (tokens : List String) (log : List Event)
    (live : Process → Prop) (call : Call) : Next → Prop
  | .await phase => PhaseOk kit log call phase ∧ ∀ c ∈ phase.claims, Free kit repo tokens log live c
  | .reply r => InOrder kit log (.replied call r)

/-- The stretch `s` of `p` keeps the invariant, whether its answer arrives or not. -/
structure Ready (kit : SiweKit) (w : World) (p : Process) (s : Stretch) : Prop where
  sound : Sound kit s.repo w.tokens (s.event.toList ++ w.log) (w.others p)
  next : NextOk kit s.repo (s.drawn ++ w.tokens) (s.event.toList ++ w.log) (w.others p) p.call s.next

/-! ## Before the first wait -/

/-- A wait in which the request claims nothing. -/
theorem nextOk_await {repo : ProfileRepository} {tokens : List String} {log : List Event}
    {live : Process → Prop} {phase : Phase} (hok : PhaseOk kit log c phase)
    (hclaims : phase.claims = []) : NextOk kit repo tokens log live c (.await phase) := by
  refine ⟨hok, fun claim hclaim => ?_⟩
  rw [hclaims] at hclaim
  exact nomatch hclaim

section Start

variable {repo : ProfileRepository} {tokens : List String} {log : List Event}
  {live : Process → Prop}

theorem nextOk_siweChallenge : NextOk kit repo tokens log live c (siweChallenge kit c) := by
  unfold siweChallenge
  split
  · exact trivial
  · next input hinput =>
    split
    · exact trivial
    · next address haddress =>
      obtain ⟨haddress, -⟩ := Option.filter_eq_some_iff.mp haddress
      exact nextOk_await ⟨input, address, hinput, haddress, rfl⟩ rfl

theorem nextOk_siweLogin : NextOk kit repo tokens log live c (siweLogin c) := by
  unfold siweLogin
  split
  · exact trivial
  · next input hinput =>
    split
    · next token signature htoken hsignature =>
      exact nextOk_await ⟨htoken, input, hinput, hsignature⟩ rfl
    · exact trivial

theorem ownerOf_none : ownerOf kit c none = none := by
  unfold ownerOf
  split <;> rfl

theorem nextOk_siweSessionOwner : NextOk kit repo tokens log live c (siweSessionOwner kit c) := by
  unfold siweSessionOwner
  split
  · rw [ownerOf_none]
    exact trivial
  · next token htoken => exact nextOk_await htoken rfl

theorem nextOk_siweLogout : NextOk kit repo tokens log live c (siweLogout c) := by
  unfold siweLogout
  split
  · exact trivial
  · exact nextOk_await trivial rfl

/-- **A request that comes in claims nothing yet.** -/
theorem nextOk_start : NextOk kit repo tokens log live c (c.start kit) := by
  unfold Call.start
  cases c.kind with
  | challenge => exact nextOk_siweChallenge
  | login => exact nextOk_siweLogin
  | sessionOwner => exact nextOk_siweSessionOwner
  | walletOwner => exact nextOk_siweSessionOwner
  | logout => exact nextOk_siweLogout

end Start

/-! ## The owner of a session -/

theorem ownerOf_eq_some {identity : Option SessionRow} {owner : String}
    (h : ownerOf kit c identity = some owner) :
    ∃ session, identity = some session ∧ toLowerCase session.owner = owner ∧
      (c.kind = .walletOwner → ∃ requested, c.request.wallet = some requested ∧
        toLowerCase requested = owner) := by
  have hsession (hmap : (identity.filter fun s => kit.isAddress s.owner).map
      (fun s => toLowerCase s.owner) = some owner) :
      ∃ session, identity = some session ∧ toLowerCase session.owner = owner := by
    obtain ⟨session, hfilter, howner⟩ := Option.map_eq_some_iff.mp hmap
    exact ⟨session, (Option.filter_eq_some_iff.mp hfilter).1, howner⟩
  unfold ownerOf at h
  dsimp only at h
  split at h
  · obtain ⟨hmap, hwallet⟩ := Option.filter_eq_some_iff.mp h
    obtain ⟨session, hidentity, howner⟩ := hsession hmap
    obtain ⟨requested, hrequested, hsame⟩ := (Option.any_eq_true _ _).mp hwallet
    exact ⟨session, hidentity, howner, fun _ => ⟨requested, hrequested, (of_decide_eq_true hsame).2.2⟩⟩
  · next hkind =>
    obtain ⟨session, hidentity, howner⟩ := hsession h
    exact ⟨session, hidentity, howner, fun hwallet => absurd hwallet hkind⟩

/-- A session has the owner its challenge was issued for, in lower case. -/
theorem toLowerCase_owner {log : List Event} (horder : Justified (InOrder kit) log)
    {session : SessionRow} (hopened : Opened kit log session) :
    toLowerCase session.owner = session.owner := by
  obtain ⟨token, challengeToken, login, later, earlier, -, rfl, -⟩ := hopened
  obtain ⟨⟨challenge, hauth, hsession⟩, -⟩ := horder.at
  obtain ⟨issuer, hissued⟩ := hauth.issued
  obtain ⟨later', earlier', rfl⟩ := List.append_of_mem hissued
  rw [← List.cons_append, ← List.append_assoc] at horder
  obtain ⟨hfor, -⟩ := horder.at
  obtain ⟨-, address, -, -, howner⟩ := hfor.owner
  rw [hsession.owner, howner, toLowerCase_toLowerCase]

/-! ## From one wait to the next -/

section Perform

variable (h : w.Sound kit) (hp : p ∈ w.running)

include h

/-- The other requests, while the tables lose rows or stay. -/
theorem World.Sound.others {repo : ProfileRepository}
    (hchallenges : ∀ row ∈ repo.challenges, row ∈ w.repo.challenges)
    (hsessions : ∀ s ∈ repo.sessions, s ∈ w.repo.sessions) :
    Web.Sound kit repo w.tokens w.log (w.others p) :=
  h.shrink (fun _ hq => hq.1) hchallenges hsessions

theorem World.Sound.same : Web.Sound kit w.repo w.tokens w.log (w.others p) :=
  h.others (fun _ hc => hc) fun _ hs => hs

theorem ready_rateLimit {bucket : String} {limit : Nat} {next : Next}
    (hnext : NextOk kit (w.repo.rateLimit s!"{p.call.site.limitPrefix}{bucket}:{p.call.now / 600000}"
      p.call.windowEnd limit).2 w.tokens w.log (w.others p) p.call next) :
    Ready kit w p (rateLimit p.call w.repo bucket limit next) := by
  unfold rateLimit
  dsimp only
  obtain ⟨hchallenges, hsessions⟩ := w.repo.rateLimit_rows
    s!"{p.call.site.limitPrefix}{bucket}:{p.call.now / 600000}" p.call.windowEnd limit
  refine ⟨h.others (fun c hc => hchallenges ▸ hc) (fun s hs => hsessions ▸ hs), ?_⟩
  dsimp only
  split
  · exact hnext
  · exact trivial

theorem ready_limitingOwner {owner : String} (hok : AsksFor kit p.call owner) :
    Ready kit w p (Phase.perform kit p.call draw w.repo (.limitingOwner owner)) := by
  refine ready_rateLimit h ?_
  unfold ipLimit
  split
  · exact nextOk_await hok rfl
  · split
    · exact nextOk_await hok rfl
    · exact nextOk_await hok rfl

theorem ready_limitingIp {owner bucket : String} (hok : AsksFor kit p.call owner) :
    Ready kit w p (Phase.perform kit p.call draw w.repo (.limitingIp owner bucket)) :=
  ready_rateLimit h (nextOk_await hok rfl)

theorem ready_cleaning {owner : String} (hok : AsksFor kit p.call owner)
    (hfresh : ∀ token ∈ (Phase.perform kit p.call draw w.repo (.cleaning owner)).drawn,
      token ∉ w.tokens) :
    Ready kit w p (Phase.perform kit p.call draw w.repo (.cleaning owner)) := by
  have hsound : Sound kit (w.repo.cleanup p.call.now) w.tokens w.log (w.others p) :=
    h.others (fun _ hc => (Table.mem_filter.mp hc).1) fun _ hs => (Table.mem_filter.mp hs).1
  unfold Phase.perform at hfresh ⊢
  dsimp only at hfresh ⊢
  cases hmessage : siweMessage kit p.call owner draw.nonce with
  | none => exact ⟨hsound, trivial⟩
  | some message =>
    rw [hmessage] at hfresh
    have hdrawn : draw.token ∉ w.tokens := hfresh draw.token List.mem_cons_self
    refine ⟨hsound, ⟨rfl, hok, rfl, ⟨draw.nonce, hmessage⟩, rfl⟩, fun claim hclaim => ?_⟩
    obtain rfl := List.mem_singleton.mp hclaim
    exact hsound.free_of_fresh (c := .issue draw.token) hdrawn nofun

/-- A logout, of whoever brings the token. -/
theorem sound_left (token : String) :
    Sound kit (w.repo.logout (kit.tokenHash token)) w.tokens (.left token :: w.log) (w.others p) := by
  have hshrunk : Sound kit (w.repo.logout (kit.tokenHash token)) w.tokens w.log (w.others p) :=
    h.others (fun _ hc => hc) fun _ hs => (ProfileRepository.mem_logout.mp hs).1
  refine hshrunk.note trivial (fun _ hc => nomatch hc) fun s hs t ht he => ?_
  obtain rfl := Event.left.inj he
  exact (ProfileRepository.mem_logout.mp hs).2 ht

theorem ready_leaving {token : String}
    (hphase : p.phase = .leaving token) : Ready kit w p (p.phase.perform kit p.call draw w.repo) := by
  rw [hphase]
  exact ⟨sound_left h token, trivial⟩

include hp

theorem ready_issuing (hash : Function.Injective kit.tokenHash) {token : String}
    {challenge : ChallengeRow} (hphase : p.phase = .issuing token challenge) :
    Ready kit w p (p.phase.perform kit p.call draw w.repo) := by
  have hok : IssuedFor kit p.call token challenge := by
    have := h.phases p hp
    rwa [hphase] at this
  have hfree : Free kit w.repo w.tokens w.log (w.others p) (.issue token) :=
    h.free hash hp (hphase ▸ List.mem_cons_self)
  rw [hphase]
  unfold Phase.perform
  dsimp only
  split
  · exact ⟨h.same, trivial⟩
  · next repo hinsert =>
    obtain ⟨hrows, hsessions⟩ := ProfileRepository.challenge_eq_some hinsert
    have hnoted : Sound kit w.repo w.tokens (.issued p.call token challenge :: w.log) (w.others p) := by
      refine h.same.note ⟨hok, hfree.unspent⟩ (fun c hc => ?_) fun _ _ _ _ => nofun
      obtain rfl := List.mem_singleton.mp hc
      exact hfree
    refine ⟨{ hnoted with
      challenges := fun c hc => ?_
      sessions := fun s hs => hnoted.sessions s (hsessions ▸ hs) }, trivial⟩
    rcases (hrows c).mp hc with hc | rfl
    · exact hnoted.challenges c hc
    · -- nobody has consumed a challenge that was not issued before
      refine ⟨p.call, token, hok.hash, List.mem_cons_self, fun hspent => ?_, fun q hq hclaim => ?_⟩
      · rcases spent_cons.mp hspent with hspends | hspent
        · exact nomatch List.mem_singleton.mp hspends
        · exact hfree.unspent (issue_of_consume h.order hspent)
      · exact hfree.unspent ((h.phases q hq.1).spent_of_consume hclaim)

theorem ready_consuming (hash : Function.Injective kit.tokenHash) {token signature : String}
    (hphase : p.phase = .consuming token signature) :
    Ready kit w p (p.phase.perform kit p.call draw w.repo) := by
  obtain ⟨hcookie, hsigns⟩ : readCookie p.call.request p.call.site.challengeCookie = some token ∧
      Signs p.call signature := by
    have := h.phases p hp
    rwa [hphase] at this
  rw [hphase]
  unfold Phase.perform
  dsimp only
  obtain ⟨hchallenges, hsessions⟩ :=
    w.repo.consumeChallenge_rows (kit.tokenHash token) p.call.request.origin p.call.now
  have hsound : Sound kit (w.repo.consumeChallenge (kit.tokenHash token) p.call.request.origin
      p.call.now).2 w.tokens w.log (w.others p) :=
    h.others hchallenges fun s hs => hsessions ▸ hs
  split
  · exact ⟨hsound, trivial⟩
  · next challenge hchallenge =>
    obtain ⟨hfound, -⟩ := Option.filter_eq_some_iff.mp hchallenge
    obtain ⟨hmem, hhash, horigin, htime, hgone⟩ :=
      ProfileRepository.consumeChallenge_eq_some hfound
    obtain ⟨issuer, token', hhash', hissued, hunspent, hclaims⟩ := h.challenges challenge hmem
    obtain rfl := hash (hhash'.symm.trans hhash)
    refine ⟨hsound, ⟨⟨hcookie, ⟨issuer, hissued⟩, horigin, htime⟩, hsigns⟩, fun c hc => ?_⟩
    obtain rfl := List.mem_singleton.mp hc
    refine ⟨h.spent (.issue token') ⟨_, hissued, List.mem_cons_self⟩, hunspent, fun q hq => hclaims q hq.1, ?_⟩
    intro row hrow t ht he
    obtain rfl := Claim.consume.inj he
    exact hgone row hrow ht

/-- The claim on a consumed challenge, and one on a token drawn for the session. -/
theorem free_opening (hash : Function.Injective kit.tokenHash) {repo : ProfileRepository}
    (hchallenges : ∀ row ∈ repo.challenges, row ∈ w.repo.challenges) {token : String}
    (hclaim : .consume token ∈ p.phase.claims) (hfresh : draw.token ∉ w.tokens) :
    ∀ c ∈ [Claim.consume token, .open_ draw.token],
      Free kit repo ([draw.token] ++ w.tokens) w.log (w.others p) c := by
  intro c hc
  rcases List.mem_cons.mp hc with rfl | hc
  · exact (h.free hash hp hclaim).mono hchallenges (fun _ hq => hq) [draw.token]
  · obtain rfl := List.mem_singleton.mp hc
    exact (h.same.free_of_fresh (c := .open_ draw.token) hfresh nofun).mono hchallenges
      (fun _ hq => hq) []

theorem ready_verifying (hash : Function.Injective kit.tokenHash) {token signature : String}
    {challenge : ChallengeRow} (hphase : p.phase = .verifying token signature challenge)
    (hfresh : ∀ token ∈ (p.phase.perform kit p.call draw w.repo).drawn, token ∉ w.tokens) :
    Ready kit w p (p.phase.perform kit p.call draw w.repo) := by
  obtain ⟨hconsumes, hsigns⟩ : Consumes w.log p.call token challenge ∧ Signs p.call signature := by
    have := h.phases p hp
    rwa [hphase] at this
  have hclaim : .consume token ∈ p.phase.claims := hphase ▸ List.mem_cons_self
  rw [hphase] at hfresh ⊢
  unfold Phase.perform at hfresh ⊢
  dsimp only at hfresh ⊢
  by_cases hverified : kit.verify challenge.owner challenge.message signature = true
  · rw [if_pos hverified] at hfresh ⊢
    have hauth : Authenticates kit w.log p.call token challenge :=
      ⟨hconsumes, signature, hsigns, hverified⟩
    cases hprevious : readCookie p.call.request p.call.site.sessionCookie with
    | none =>
      rw [hprevious] at hfresh
      exact ⟨h.same, ⟨challenge, hauth, rfl, rfl, hauth.origin.symm, rfl⟩,
        free_opening h hp hash (fun _ hc => hc) hclaim (hfresh draw.token List.mem_cons_self)⟩
    | some previous =>
      refine ⟨h.same, hauth, fun c hc => ?_⟩
      obtain rfl := List.mem_singleton.mp hc
      exact h.free hash hp hclaim
  · rw [if_neg hverified]
    exact ⟨h.same, trivial⟩

theorem ready_leavingPrevious (hash : Function.Injective kit.tokenHash) {token previous : String}
    {challenge : ChallengeRow} (hphase : p.phase = .leavingPrevious token previous challenge)
    (hfresh : draw.token ∉ w.tokens) : Ready kit w p (p.phase.perform kit p.call draw w.repo) := by
  have hauth : Authenticates kit w.log p.call token challenge := by
    have := h.phases p hp
    rwa [hphase] at this
  have hclaim : .consume token ∈ p.phase.claims := hphase ▸ List.mem_cons_self
  have hkept : ∀ row ∈ (w.repo.logout (kit.tokenHash previous)).challenges, row ∈ w.repo.challenges :=
    fun _ hc => hc
  have hopening := free_opening h hp hash hkept hclaim hfresh
  rw [hphase]
  refine ⟨sound_left h previous,
    ⟨challenge, hauth.cons, rfl, rfl, hauth.origin.symm, rfl⟩, fun c hc => ?_⟩
  have hspends : c ∉ (Event.left previous).spends := List.not_mem_nil
  exact (hopening c hc).cons hspends

theorem ready_opening (hash : Function.Injective kit.tokenHash) {token sessionToken : String}
    {session : SessionRow} (hphase : p.phase = .opening token sessionToken session) :
    Ready kit w p (p.phase.perform kit p.call draw w.repo) := by
  obtain ⟨challenge, hauth, hopened⟩ : ∃ challenge, Authenticates kit w.log p.call token challenge ∧
      OpenedFor kit p.call sessionToken challenge session := by
    have := h.phases p hp
    rwa [hphase] at this
  have hfree : ∀ c ∈ [Claim.consume token, .open_ sessionToken],
      Free kit w.repo w.tokens w.log (w.others p) c := by
    intro c hc
    exact h.free hash hp (hphase ▸ hc)
  rw [hphase]
  unfold Phase.perform
  dsimp only
  split
  · exact ⟨h.same, trivial⟩
  · next repo hinsert =>
    obtain ⟨hrows, hchallenges⟩ := ProfileRepository.session_eq_some hinsert
    have horder : InOrder kit w.log (.opened token p.call sessionToken session) :=
      ⟨⟨challenge, hauth, hopened⟩, (hfree _ List.mem_cons_self).unspent,
        (hfree _ (List.mem_cons_of_mem _ List.mem_cons_self)).unspent⟩
    have hnoted := h.same.note horder hfree fun _ _ _ _ => nofun
    refine ⟨{ hnoted with
      challenges := fun c hc => hnoted.challenges c (hchallenges ▸ hc)
      sessions := fun s hs => ?_ }, token, session, List.mem_cons_self, rfl⟩
    rcases (hrows s).mp hs with hs | rfl
    · exact hnoted.sessions s hs
    · exact ⟨sessionToken, token, p.call, [], w.log, hopened.hash, rfl, List.not_mem_nil⟩

/-- **The owner that is answered is the session's.** -/
theorem ready_identifying (hash : Function.Injective kit.tokenHash) {token : String}
    (hphase : p.phase = .identifying token) :
    Ready kit w p (p.phase.perform kit p.call draw w.repo) := by
  have hcookie : readCookie p.call.request p.call.site.sessionCookie = some token := by
    have := h.phases p hp
    rwa [hphase] at this
  rw [hphase]
  refine ⟨h.same, ?_⟩
  unfold Phase.perform NextOk
  dsimp only
  cases howner : ownerOf kit p.call
      (w.repo.identity (kit.tokenHash token) p.call.request.origin p.call.now) with
  | none => exact trivial
  | some owner =>
    obtain ⟨session, hidentity, hlower, hwallet⟩ := ownerOf_eq_some howner
    obtain ⟨hmem, hhash, horigin, htime⟩ := ProfileRepository.identity_eq_some hidentity
    have hopened := h.sessions session hmem
    have hsame := toLowerCase_owner h.order hopened
    obtain ⟨token', challengeToken, login, later, earlier, hhash', hlog, hstays⟩ := hopened
    obtain rfl := hash (hhash'.symm.trans hhash)
    exact ⟨token', challengeToken, login, session, later, earlier, hcookie, hlog, hstays, horigin,
      htime, hlower.symm.trans hsame, hwallet⟩

/-- **A stretch keeps the invariant.** -/
theorem ready_perform (hash : Function.Injective kit.tokenHash)
    (hfresh : ∀ token ∈ (p.phase.perform kit p.call draw w.repo).drawn, token ∉ w.tokens) :
    Ready kit w p (p.phase.perform kit p.call draw w.repo) := by
  have hok := h.phases p hp
  cases hphase : p.phase with
  | limitingOwner owner =>
    rw [hphase] at hok
    exact ready_limitingOwner h hok
  | limitingIp owner bucket =>
    rw [hphase] at hok
    exact ready_limitingIp h hok
  | cleaning owner =>
    rw [hphase] at hok hfresh
    exact ready_cleaning h hok hfresh
  | issuing token challenge => exact hphase ▸ ready_issuing h hp hash hphase
  | consuming token signature => exact hphase ▸ ready_consuming h hp hash hphase
  | verifying token signature challenge =>
    exact hphase ▸ ready_verifying h hp hash hphase hfresh
  | leavingPrevious token previous challenge =>
    rw [hphase] at hfresh
    exact hphase ▸ ready_leavingPrevious h hp hash hphase (hfresh draw.token List.mem_cons_self)
  | opening token sessionToken session => exact hphase ▸ ready_opening h hp hash hphase
  | identifying token => exact hphase ▸ ready_identifying h hp hash hphase
  | leaving token => exact hphase ▸ ready_leaving h hphase

end Perform

/-! ## Actions -/

theorem World.Sound.settle {next : Next} {id : Nat} (hw : w.settle id c next = some w')
    (h : Web.Sound kit w.repo w.tokens w.log fun q => q ∈ w.running ∧ q.id ≠ id)
    (hnext : NextOk kit w.repo w.tokens w.log (fun q => q ∈ w.running ∧ q.id ≠ id) c next) :
    w'.Sound kit := by
  cases next with
  | reply r =>
    obtain rfl := Option.some.inj hw
    exact (h.reply hnext).shrink (fun q hq => by simpa using hq) (fun _ hc => hc) fun _ hs => hs
  | await phase =>
    obtain ⟨running, hinsert, rfl⟩ := Option.map_eq_some_iff.mp hw
    refine (h.wait (p := ⟨id, c, phase⟩) hnext.1 hnext.2).shrink (fun q hq => ?_) (fun _ hc => hc)
      fun _ hs => hs
    rcases (Table.mem_insert? hinsert).mp hq with hq | hq
    · exact Or.inl (by simpa using hq)
    · exact Or.inr hq

/-- **What one action preserves.** -/
theorem World.Sound.act (hash : Function.Injective kit.tokenHash) (h : w.Sound kit)
    {a : World.Action} (hw : w.act kit a = some w') : w'.Sound kit := by
  cases a with
  | start id call =>
    unfold World.act at hw
    dsimp only at hw
    split at hw
    · next hfree =>
      exact World.Sound.settle hw (h.shrink (fun _ hq => hq.1) (fun _ hc => hc) fun _ hs => hs)
        nextOk_start
    · cases hw
  | proceed id fate draw =>
    obtain ⟨p, hget, hact⟩ := Option.bind_eq_some_iff.mp hw
    obtain ⟨hp, rfl⟩ := Table.get?_eq_some.mp hget
    dsimp only at hact
    split at hact
    · cases hact
    · next hdrawn =>
      have hfresh : ∀ token ∈ (p.phase.perform kit p.call draw w.repo).drawn, token ∉ w.tokens :=
        fun token htoken hmem => hdrawn (List.any_eq_true.mpr ⟨token, htoken, by simp [hmem]⟩)
      have hready := ready_perform h hp hash hfresh
      cases fate with
      | done => exact World.Sound.settle hact (hready.sound.draw _) hready.next
      | lost =>
        unfold World.stretch at hact
        exact World.Sound.settle hact hready.sound trivial
      | failed =>
        unfold World.stretch at hact
        exact World.Sound.settle hact h.same trivial
  | cleanup now =>
    obtain rfl := Option.some.inj hw
    exact h.shrink (fun _ hq => hq) (fun _ hc => (Table.mem_filter.mp hc).1)
      fun _ hs => (Table.mem_filter.mp hs).1

theorem sound_initial : World.initial.Sound kit where
  order := trivial
  phases _ hp := absurd hp Table.not_mem_empty
  once _ _ _ hp := absurd hp Table.not_mem_empty
  unspent _ _ hp := absurd hp Table.not_mem_empty
  drawn _ _ hp := absurd hp Table.not_mem_empty
  spent _ hspent := by
    obtain ⟨e, he, -⟩ := hspent
    exact nomatch he
  challenges _ hc := absurd hc Table.not_mem_empty
  sessions _ hs := absurd hs Table.not_mem_empty

/-- **The invariant holds in every reachable world.** -/
theorem sound_of_reachable (hash : Function.Injective kit.tokenHash)
    (hr : (signIn kit).Reachable w) : w.Sound kit := by
  refine hr.invariant (fun w hw => ?_) fun w w' _ h hstep => ?_
  · obtain rfl : w = World.initial := hw
    exact sound_initial
  · obtain ⟨a, ha⟩ := hstep
    exact h.act hash ha

end Mapae.Web
