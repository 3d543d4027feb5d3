import VitrialSync.Beam.Terms
import VitrialSync.Server.IdentitySafety

set_option relaxedAutoImplicit false
set_option autoImplicit false

/-!
# Authentication on the BEAM

`VitrialSync.Auth.authenticate`, which looks up the session of a bearer token, its membership and
its organization, and `VitrialAuth.authenticate`, which decides on them. It reads all three before
it decides, and answers a token that no session has with `:authentication_required`. The database
does not fail here.

## Main definitions

* `VitrialSync.Beam.Auth.parseAuthorization` — `VitrialAuth.parse_authorization/1`.
* `VitrialSync.Beam.Auth.decide` — `VitrialAuth.authenticate/5`.
* `VitrialSync.Beam.Auth.authenticate` — `VitrialSync.Auth.authenticate/3`.
* `VitrialSync.Beam.Auth.Agree` — the answers of the two servers.

## Main results

* `VitrialSync.Beam.Auth.authenticate_agrees` — the two servers let the same requests in, as the
  same principals. -/

namespace VitrialSync.Beam.Auth

open Python Program
open VitrialSync.Identity (Tables Row Effect AuthSession Valid)

/-- `VitrialAuth.refusal`, as far as a request is authenticated. -/
inductive Refusal where
  | authenticationRequired
  | sessionExpiredOrRevoked
  | membershipInactive
  | sessionMembershipMismatch

/-- `PushService.refusal_status/1`. -/
def refusalStatus : Refusal → ℕ
  | .authenticationRequired => 401
  | .sessionExpiredOrRevoked => 401
  | .membershipInactive => 401
  | .sessionMembershipMismatch => 401

/-- What a request is answered. -/
abbrev Reply := Except Refusal Principal

/-- `String.split(header, " ", parts: 2)`, when the header has a blank. -/
def splitHeader (header : Str) : Option (Str × Str) :=
  match header.span fun c => c != CodePoint.ofChar ' ' with
  | (_, []) => none
  | (name, _ :: credentials) => some (name, credentials)

/-- `VitrialAuth.parse_authorization/1`. No character outside ASCII has a letter of "bearer" for its
lower case. -/
def parseAuthorization (header : Option Str) : Option (Str × Str) :=
  match header.bind splitHeader with
  | none => none
  | some (name, credentials) =>
    if trim credentials = [] then none else some ((trim name).lower, trim credentials)

/-- `bearer_token/1`. -/
def bearerToken (header : Option Str) : Option Str :=
  match parseAuthorization header with
  | some (scheme, token) => if scheme = Str.ofString "bearer" then some token else none
  | none => none

/-! ### The decision -/

/-- `require_bearer/1`. -/
def requireBearer (header : Option Str) : Except Refusal Unit :=
  if (parseAuthorization header).any fun h => h.1 == Str.ofString "bearer" then .ok ()
  else .error .authenticationRequired

/-- `live_session/2`. -/
def liveSession (session : Option AuthSession) (now : ℤ) : Except Refusal Unit :=
  match session with
  | none => .error .sessionExpiredOrRevoked
  | some session =>
    if session.revokedAt.isSome then .error .sessionExpiredOrRevoked
    else if now < session.expiresAt then .ok () else .error .sessionExpiredOrRevoked

/-- `active_membership/2`. -/
def activeMembership (membership : Option Identity.Membership) (session : AuthSession) :
    Except Refusal Unit :=
  match membership with
  | none => .error .membershipInactive
  | some membership =>
    if membership.active = false then .error .membershipInactive
    else if membership.organizationId == session.organizationId &&
      membership.userId == session.userId then .ok ()
    else .error .sessionMembershipMismatch

/-- `present/1`. -/
def present (organization : Option Identity.Organization) : Except Refusal Unit :=
  match organization with
  | none => .error .membershipInactive
  | some _ => .ok ()

/-- `VitrialAuth.principal/3`. -/
def principal (id : Str) (session : AuthSession) (membership : Identity.Membership)
    (organization : Identity.Organization) : Principal where
  userId := session.userId
  organizationId := session.organizationId
  membershipId := session.membershipId
  sessionId := id
  authorizationRevision := organization.authorizationRevision
  capabilities := membership.capabilities
  customerIds := membership.customerIds
  projectIds := membership.projectIds
  allCustomers := membership.allCustomers
  allProjects := membership.allProjects

/-- `VitrialAuth.authenticate/5`, for rows that were found. -/
def decide (header : Option Str) (id : Str) (session : AuthSession)
    (membership : Identity.Membership) (organization : Identity.Organization) (now : ℤ) :
    Reply := do
  requireBearer header
  liveSession (some session) now
  activeMembership (some membership) session
  present (some organization)
  pure (principal id session membership organization)

/-! ### The lookups -/

/-- What a handler of the BEAM does with the tables. -/
abbrev Handler := Program.Handler Tables Row Effect Reply

/-- The lookups of the membership and of the organization; `fetch/2` answers a missing row with
`:authentication_required`. -/
def lookUp (header : Option Str) (id : Str) (session : AuthSession) (now : ℤ) : Handler :=
  .read fun memberships =>
    match memberships.memberships.get session.membershipId with
    | none => .answer (.error .membershipInactive)
    | some membership => .read fun organizations =>
      match organizations.organizations.get session.organizationId with
      | none => .answer (.error .authenticationRequired)
      | some organization => .answer (decide header id session membership organization now)

/-- `VitrialSync.Auth.authenticate/3`. -/
def authenticate (header : Option Str) (now : ℤ) : Handler :=
  match bearerToken header with
  | none => .answer (.error .authenticationRequired)
  | some token => .read fun db =>
    match db.sessionOf (Identity.tokenHash token) with
    | none => .answer (.error .authenticationRequired)
    | some (id, session) => lookUp header id session now

/-! ### Agreement -/

/-- **The answers of the two servers to one request**: the same principal, or one refusal; only a
token that no session has is refused with different words. -/
inductive Agree (db : Tables) (token : Str) : Identity.Answer → Reply → Prop
  | admitted (p : Principal) : Agree db token (.authenticated p) (.ok p)
  | expired : Agree db token (.http 401 "session expired or revoked")
      (.error .sessionExpiredOrRevoked)
  | inactive : Agree db token (.http 401 "membership inactive") (.error .membershipInactive)
  | unknown (h : db.sessionOf (Identity.tokenHash token) = none) :
      Agree db token (.http 401 "session expired or revoked") (.error .authenticationRequired)

/-- A header that carries a token passes `require_bearer/1`. -/
lemma requireBearer_of_bearerToken {header : Option Str} {token : Str}
    (h : bearerToken header = some token) : requireBearer header = .ok () := by
  rw [bearerToken] at h
  split at h
  next scheme token' hparse =>
    split_ifs at h with hscheme
    simp [requireBearer, hparse, hscheme]
  next => cases h

/-- A session is live for both servers or for none. -/
lemma liveSession_eq (session : AuthSession) (now : ℤ) :
    liveSession (some session) now =
      if session.live now then .ok () else .error .sessionExpiredOrRevoked := by
  cases hrevoked : session.revokedAt <;> simp [liveSession, AuthSession.live, hrevoked]

/-- **The two servers let the same requests in, as the same principals**, when their lookups find
the same rows: whatever was committed between the lookups, for a header from which both take the
same bearer token. The cross-check of session and membership and the missing organization never
happen.

**Proof sketch.** Sessions belong to a membership of their organization, which stays, so all three
lookups of the BEAM find a row when the first one does. From there on the decisions are made in the
same order. -/
theorem authenticate_agrees {header : Option Str} {scheme token : Str} (now : ℤ)
    (hheader : bearerToken header = some token) (hscheme : scheme.lower = Str.ofString "bearer")
    {found joined owned : Tables} (hvalid : Valid found)
    (hjoined : Identity.discipline.Later [] found joined)
    (howned : Identity.discipline.Later [] joined owned) :
    ∃ answer reply,
      (Identity.currentPrincipal (some ⟨scheme, token⟩) now fun p =>
        .answer (.authenticated p)).watching [found, joined, owned] = some answer ∧
      (authenticate header now).watching [found, joined, owned] = some reply ∧
      Agree found token answer reply := by
  have hbearer : (scheme.lower == Str.ofString "bearer") = true := by simp [hscheme]
  simp only [Identity.currentPrincipal, hbearer, if_true, authenticate, hheader, Handler.watching]
  cases hsession : found.sessionOf (Identity.tokenHash token) with
  | none => exact ⟨_, _, rfl, rfl, .unknown hsession⟩
  | some row =>
    obtain ⟨id, session⟩ := row
    obtain ⟨hget, -⟩ := Identity.sessionOf_eq_some hsession
    have hbelongs := hvalid.sessions id session hget
    obtain ⟨m, hm, horganization, huser⟩ := hbelongs.grown (Identity.grown_of_later hjoined)
    obtain ⟨o', ho'⟩ := (Discipline.later_inv hjoined hvalid).members _ m hm
    obtain ⟨o, ho⟩ := (Identity.grown_of_later howned).organization ho'
    rw [horganization] at ho
    have hmine : session.belongsTo m = true := by
      simp [AuthSession.belongsTo, horganization, huser]
    simp only [lookUp, hm, ho, Handler.watching, decide, requireBearer_of_bearerToken hheader,
      liveSession_eq]
    by_cases hlive : session.live now = true
    · by_cases hactive : m.active = true
      · refine ⟨.authenticated (principal id session m o), .ok (principal id session m o), ?_, ?_,
          .admitted _⟩
        · simp [hlive, Identity.resumeSession, Handler.watching, hm, ho, hactive, hmine, principal,
            Identity.principalOf]
        · simp [hlive, activeMembership, hactive, horganization, huser, present]
          rfl
      · refine ⟨.http 401 "membership inactive", .error .membershipInactive, ?_, ?_, .inactive⟩
        · simp [hlive, Identity.resumeSession, Handler.watching, hm, ho, hactive, Identity.refuse]
        · simp [hlive, activeMembership, hactive]
          rfl
    · refine ⟨.http 401 "session expired or revoked", .error .sessionExpiredOrRevoked, ?_, ?_,
        .expired⟩
      · simp [hlive, Identity.refuse, Handler.watching]
      · simp [hlive]
        rfl

/-- The paired device talks to either server. -/
theorem authenticate_agrees_sample :
    ∃ answer reply,
      (Identity.currentPrincipal (some ⟨"bearer", "t1"⟩) 4000000 fun p =>
        .answer (.authenticated p)).watching
          (List.replicate 3 (Identity.Sample.served [0, 1, 2]).rows) = some answer ∧
      (authenticate (some "Bearer t1 ") 4000000).watching
        (List.replicate 3 (Identity.Sample.served [0, 1, 2]).rows) = some reply ∧
      Agree (Identity.Sample.served [0, 1, 2]).rows "t1" answer reply := by
  obtain ⟨events, hrun⟩ := Identity.Sample.served_run [0, 1, 2] (by decide)
  have hvalid := (Identity.coherent_of_run Identity.Sample.valid_start hrun).valid
  exact authenticate_agrees 4000000 (by decide) (by decide) hvalid
    (Identity.discipline.later_refl _ _) (Identity.discipline.later_refl _ _)

end VitrialSync.Beam.Auth
