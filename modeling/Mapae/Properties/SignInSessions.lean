import Mapae.Web.SiweRun

/-!
# Sign-in sessions are one-use, origin-bound and owner-bound

Challenges, logins, session reads, logouts and cleanups on any origins, over one repository, each
statement on its own. The clock may read anything.

* a challenge opens at most one session, on its own origin, in time, signed by its owner
* a session answers on its own origin, in time, until it is left
* the owner that is answered is the one the challenge was issued for
-/

namespace Mapae.Web

open Mapae.Infra Mapae.Store

/-- What a history of sign-ins says at each of its events; the latest event is first. -/
structure Safe (kit : SiweKit) (log : List Event) : Prop where
  /-- A challenge opens at most one session. -/
  once : ∀ later challengeToken login token session earlier,
    log = later ++ .opened challengeToken login token session :: earlier →
    ∀ login' token' session', .opened challengeToken login' token' session' ∉ earlier
  /-- A token names one challenge. -/
  issued : ∀ later issuer token challenge earlier,
    log = later ++ .issued issuer token challenge :: earlier →
    IssuedFor kit issuer token challenge ∧
      ∀ issuer' challenge', .issued issuer' token challenge' ∉ earlier
  /-- A login is on the origin of its challenge, before its expiry, signed by its owner. -/
  login : ∀ later challengeToken login token session earlier,
    log = later ++ .opened challengeToken login token session :: earlier →
    ∃ issuer challenge, .issued issuer challengeToken challenge ∈ earlier ∧
      readCookie login.request login.site.challengeCookie = some challengeToken ∧
      login.request.origin = issuer.request.origin ∧ login.now < challenge.expiresAt ∧
      (∃ signature, Signs login signature ∧
        kit.verify challenge.owner challenge.message signature = true) ∧
      session.owner = challenge.owner ∧ session.origin = issuer.request.origin ∧
      session.expiresAt = login.now + login.site.sessionSeconds * 1000
  /-- A login answers with the session that it opened. -/
  loggedIn : ∀ later call owner token earlier,
    log = later ++ .replied call (.loggedIn owner token) :: earlier →
    ∃ challengeToken session, .opened challengeToken call token session ∈ earlier ∧
      session.owner = owner
  /-- A session answers on its origin, before its expiry, until it is left. -/
  answered : ∀ later call owner earlier,
    log = later ++ .replied call (.owner (some owner)) :: earlier →
    ∃ token challengeToken login session since before,
      readCookie call.request call.site.sessionCookie = some token ∧
      earlier = since ++ .opened challengeToken login token session :: before ∧
      .left token ∉ since ∧ call.request.origin = session.origin ∧
      call.now < session.expiresAt ∧ owner = session.owner ∧
      (call.kind = .walletOwner → ∃ requested, call.request.wallet = some requested ∧
        toLowerCase requested = owner)

theorem Safe.of_justified {kit : SiweKit} {log : List Event}
    (h : Justified (InOrder kit) log) : Safe kit log where
  once later challengeToken login token session earlier hlog login' token' session' hmem := by
    subst hlog
    obtain ⟨-, hunspent, -⟩ := h.at
    exact hunspent ⟨_, hmem, List.mem_cons_self⟩
  issued later issuer token challenge earlier hlog := by
    subst hlog
    obtain ⟨hfor, hunspent⟩ := h.at
    exact ⟨hfor, fun issuer' challenge' hmem => hunspent ⟨_, hmem, List.mem_cons_self⟩⟩
  login later challengeToken login token session earlier hlog := by
    subst hlog
    obtain ⟨⟨challenge, hauth, hsession⟩, -⟩ := h.at
    obtain ⟨issuer, hissued⟩ := hauth.issued
    have horigin : challenge.origin = issuer.request.origin := by
      obtain ⟨since, before, hearlier⟩ := List.append_of_mem hissued
      rw [hearlier, ← List.cons_append, ← List.append_assoc] at h
      exact h.at.1.origin
    exact ⟨issuer, challenge, hissued, hauth.cookie, hauth.origin.symm.trans horigin, hauth.inTime,
      hauth.signed, hsession.owner, hsession.origin.trans horigin, hsession.expiresAt⟩
  loggedIn later call owner token earlier hlog := by
    subst hlog
    exact h.at
  answered later call owner earlier hlog := by
    subst hlog
    obtain ⟨token, challengeToken, login, session, since, before, hcookie, hearlier, hstays, horigin,
      hrest⟩ := h.at
    exact ⟨token, challengeToken, login, session, since, before, hcookie, hearlier, hstays,
      horigin.symm, hrest⟩

/-- **Sign-in sessions are one-use, origin-bound and owner-bound.** -/
theorem sign_in_sessions {kit : SiweKit} (hash : Function.Injective kit.tokenHash) (w : World)
    (hr : (signIn kit).Reachable w) : Safe kit w.log :=
  Safe.of_justified (sound_of_reachable hash hr).order

/-! ## A session on one of two sites -/

namespace Sample

def kit : SiweKit where
  isAddress := isHexOf 20
  getAddress := id
  tokenHash := id
  ipBucket := id
  createSiweMessage fields := some (fields.domain ++ fields.nonce)
  verify _ _ signature := signature.toList.head? = some '0'

def site : SiweSite := ⟨"__Host-session", "__Host-challenge", 60, "Sign in.", "/", ""⟩

def challengeToken : String := String.ofList (List.replicate 64 'a')

def sessionToken : String := String.ofList (List.replicate 64 'b')

def owner : String := String.ofList ('0' :: 'x' :: List.replicate 40 'c')

def signature : String := String.ofList ('0' :: 'x' :: List.replicate 130 'd')

def request (origin : String) (cookies : Option String) (parsed : Option Json) : Request :=
  ⟨origin, "", cookies, none, some owner, some 200, parsed⟩

/-- A challenge, the login, a read on its origin, one on another origin, and the logout. -/
def actions : List World.Action :=
  let session := some ("__Host-session=" ++ sessionToken)
  [.start 0 ⟨.challenge, request "a" none (some (.object [("address", .string owner)])), site, 5⟩,
    .proceed 0 .done ⟨"n", challengeToken⟩,
    .proceed 0 .done ⟨"n", challengeToken⟩,
    .proceed 0 .done ⟨"n", challengeToken⟩,
    .start 0 ⟨.login, request "a" (some ("__Host-challenge=" ++ challengeToken))
      (some (.object [("signature", .string signature)])), site, 6⟩,
    .proceed 0 .done ⟨"n", sessionToken⟩,
    .proceed 0 .done ⟨"n", sessionToken⟩,
    .proceed 0 .done ⟨"n", sessionToken⟩,
    .start 0 ⟨.walletOwner, request "a" session none, site, 7⟩,
    .proceed 0 .done ⟨"n", sessionToken⟩,
    .start 0 ⟨.sessionOwner, request "b" session none, site, 8⟩,
    .proceed 0 .done ⟨"n", sessionToken⟩,
    .start 0 ⟨.logout, request "a" session none, site, 9⟩,
    .proceed 0 .done ⟨"n", sessionToken⟩]

end Sample

theorem sign_in_sessions_sample : ∃ w,
    System.performAll (World.act Sample.kit) World.initial Sample.actions = some w ∧
      w.log.length = 8 ∧ Safe Sample.kit w.log := by
  have hrun : ((System.performAll (World.act Sample.kit) World.initial Sample.actions).map
      fun w => w.log.length) = some 8 := by decide +kernel
  obtain ⟨w, hw, hlength⟩ := Option.map_eq_some_iff.mp hrun
  exact ⟨w, hw, hlength, sign_in_sessions (fun _ _ h => h) w
    (System.reachable_of_performAll (.init rfl) hw)⟩

end Mapae.Web
