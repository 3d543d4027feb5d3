import VitrialSync.Program.Handlers
import VitrialSync.Server.Evidence

set_option relaxedAutoImplicit false
set_option autoImplicit false

/-!
# Identities, pairing and sessions

Who may talk to the service: `app/admin.py` creates organizations, users, memberships and sessions
and revokes sessions, `app/pairing.py` issues pairing codes and exchanges them for sessions,
`app/auth.py` resolves a bearer token, `app/auth_session_routes.py` logs out, and a push widens the
scope of the membership that created a customer or a project (`_grant_created_scope`). Every query
of a handler is a step of its own. Only an exchange and a push lock a row.

A flush becomes visible with the commit that ends the transaction, so a handler writes once. An
`UPDATE` writes the columns whose value is not the one that was loaded. Times are instants in
microseconds, read off the clock by the handler; identifiers and tokens are those that the handler
drew. The publications that a bootstrap seeds are no part of these tables.

## Main definitions

* `VitrialSync.Identity.Tables` — the tables.
* `VitrialSync.Identity.currentPrincipal` — `current_principal`.
* `VitrialSync.Identity.issuePairingGrant`, `VitrialSync.Identity.exchangePairingCode` — pairing.
* `VitrialSync.Identity.authLogout`, `VitrialSync.Identity.revokeSession` — revocation.
* `VitrialSync.Identity.bootstrapIdentity` — `bootstrap_identity`.
* `VitrialSync.Identity.pushGrants` — what a push does to these tables.
* `VitrialSync.Identity.Call` — the calls of the service.
-/

namespace VitrialSync.Identity

open Python Program

/-! ### Rows -/

/-- `Organization`. -/
structure Organization where
  name : Str
  authorizationRevision : ℤ

/-- `User`. -/
structure User where
  displayName : Str
  email : Option Str

/-- `AuthorizationRole`. -/
structure Role where
  id : Str
  displayName : Str
  deriving DecidableEq

/-- `Membership`. -/
structure Membership where
  organizationId : Str
  userId : Str
  active : Bool
  allCustomers : Bool
  allProjects : Bool
  customerIds : List Str
  projectIds : List Str
  roles : List Role
  capabilities : List Capability

/-- `AuthSession`. -/
structure AuthSession where
  organizationId : Str
  membershipId : Str
  userId : Str
  accessTokenHash : Str
  issuedAt : ℤ
  expiresAt : ℤ
  revokedAt : Option ℤ

/-- `PairingGrant`. -/
structure PairingGrant where
  organizationId : Str
  membershipId : Str
  userId : Str
  codeHash : Str
  expiresAt : ℤ
  sessionTtlSeconds : ℤ
  consumedAt : Option ℤ

/-- The tables. -/
structure Tables where
  organizations : Table Str Organization
  users : Table Str User
  memberships : Table Str Membership
  sessions : Table Str AuthSession
  grants : Table Str PairingGrant

/-- `datetime + timedelta(seconds=…)`. -/
def after (now seconds : ℤ) : ℤ := now + seconds * 1000000

/-- `token_hash`. -/
def tokenHash (token : Str) : Str := textDigest token

/-! ### Authorities -/

/-- `sorted` of texts. -/
def sorted (texts : List Str) : List Str := texts.insertionSort (· ≤ ·)

/-- `sorted` of role pairs. -/
def sortedRoles (roles : List Role) : List Role :=
  roles.insertionSort fun a b => a.id < b.id ∨ a.id = b.id ∧ a.displayName ≤ b.displayName

/-- `sorted` of capabilities, by their wire names. -/
def sortedCapabilities (capabilities : List Capability) : List Capability :=
  capabilities.insertionSort fun a b => Str.ofString a.name ≤ Str.ofString b.name

/-- The tuple of `_membership_authority` and `_requested_authority`. -/
structure Authority where
  active : Bool
  allCustomers : Bool
  allProjects : Bool
  customerIds : List Str
  projectIds : List Str
  roles : List Role
  capabilities : List Capability
  deriving DecidableEq

/-- `_membership_authority`. -/
def membershipAuthority (m : Membership) : Authority where
  active := m.active
  allCustomers := m.allCustomers
  allProjects := m.allProjects
  customerIds := sorted m.customerIds
  projectIds := sorted m.projectIds
  roles := sortedRoles m.roles
  capabilities := sortedCapabilities m.capabilities

/-- `AdminBootstrapRequest`. -/
structure BootstrapRequest where
  organizationId : Str
  organizationName : Str
  userId : Str
  displayName : Str
  email : Option Str
  membershipId : Str
  active : Bool
  allCustomers : Bool
  allProjects : Bool
  customerIds : List Str
  projectIds : List Str
  roles : List Role
  capabilities : List Capability
  sessionId : Option Str
  sessionTtlSeconds : ℤ

/-- `_requested_authority`. -/
def requestedAuthority (r : BootstrapRequest) : Authority where
  active := r.active
  allCustomers := r.allCustomers
  allProjects := r.allProjects
  customerIds := sorted r.customerIds.dedup
  projectIds := sorted r.projectIds.dedup
  roles := sortedRoles r.roles
  capabilities := sortedCapabilities r.capabilities.dedup

/-- The columns that a bootstrap sets. -/
def BootstrapRequest.membership (r : BootstrapRequest) : Membership where
  organizationId := r.organizationId
  userId := r.userId
  active := r.active
  allCustomers := r.allCustomers
  allProjects := r.allProjects
  customerIds := sorted r.customerIds.dedup
  projectIds := sorted r.projectIds.dedup
  roles := r.roles
  capabilities := sortedCapabilities r.capabilities.dedup

/-! ### Answers and effects -/

/-- What a call is answered. -/
inductive Answer where
  /-- `HTTPException`. -/
  | refused (error : HttpError)
  /-- A broken constraint. -/
  | failed
  | authenticated (principal : Principal)
  | issued (grantId pairingCode : Str) (expiresAt : ℤ)
  | paired (accessToken : Str) (expiresAt : ℤ)
  | loggedOut
  | revoked (sessionId : Str) (revokedAt : ℤ)
  | bootstrapped (sessionId accessToken : Str) (authorizationRevision issuedAt expiresAt : ℤ)
  | pushed

/-- `HTTPException` with its texts. -/
def Answer.http (status : ℕ) (detail : String) : Answer := .refused ⟨status, detail⟩

/-- The rows that a query locks. -/
inductive Row where
  | organization (id : Str)
  | grant (id : Str)

/-- A bootstrap with the rows that it loaded, and the session that it makes. -/
structure Bootstrap where
  request : BootstrapRequest
  organization : Option Organization
  user : Option User
  membership : Option Membership
  sessionId : Str
  session : AuthSession

/-- The rows of a push that widened a scope: the membership as it was loaded and as it is written,
and the revision of the organization with the number of grants that counted. -/
structure Widening where
  organizationId : Str
  membershipId : Str
  loaded : Membership
  widened : Membership
  authorizationRevision : ℤ
  grants : ℕ

/-- What a commit does. -/
inductive Effect where
  | issued (id : Str) (grant : PairingGrant)
  | minted (grantId codeHash : Str) (consumedAt : ℤ) (id : Str) (session : AuthSession)
  | revoked (id : Str) (revokedAt : ℤ)
  | bootstrapped (b : Bootstrap)
  | widened (w : Widening)

/-- What a handler does. -/
abbrev Handler := Program.Handler Tables Row Effect Answer

/-- `raise HTTPException`. -/
def refuse (status : ℕ) (detail : String) : Handler := .answer (.http status detail)

/-! ### Sessions -/

/-- The session with a token hash. -/
def Tables.sessionOf (db : Tables) (hash : Str) : Option (Str × AuthSession) :=
  db.sessions.rows.find? fun r => r.2.accessTokenHash == hash

/-- The constructor of `Principal` in `current_principal`. -/
def principalOf (sessionId : Str) (session : AuthSession) (membership : Membership)
    (organization : Organization) : Principal where
  userId := session.userId
  organizationId := session.organizationId
  membershipId := session.membershipId
  sessionId := sessionId
  authorizationRevision := organization.authorizationRevision
  capabilities := membership.capabilities
  customerIds := membership.customerIds
  projectIds := membership.projectIds
  allCustomers := membership.allCustomers
  allProjects := membership.allProjects

/-- `HTTPAuthorizationCredentials`. -/
structure Credentials where
  scheme : Str
  credentials : Str

/-- `auth_session.revoked_at is not None or auth_session.expires_at <= now`, negated. -/
def AuthSession.live (session : AuthSession) (now : ℤ) : Bool :=
  session.revokedAt.isNone && now < session.expiresAt

/-- The membership is the one that the session was made for. -/
def AuthSession.belongsTo (session : AuthSession) (membership : Membership) : Bool :=
  membership.organizationId == session.organizationId && membership.userId == session.userId

/-- `current_principal` after the session was found; `now` was read before. -/
def resumeSession (next : Principal → Handler) (sessionId : Str) (session : AuthSession) :
    Handler :=
  .read fun memberships =>
    let membership := memberships.memberships.get session.membershipId
    .read fun organizations =>
      match membership, organizations.organizations.get session.organizationId with
      | some membership, some organization =>
        if membership.active then
          if session.belongsTo membership then
            next (principalOf sessionId session membership organization)
          else refuse 401 "session membership mismatch"
        else refuse 401 "membership inactive"
      | _, _ => refuse 401 "membership inactive"

/-- `current_principal`, a dependency of the route that goes on with the principal. -/
def currentPrincipal (credentials : Option Credentials) (now : ℤ) (next : Principal → Handler) :
    Handler :=
  match credentials with
  | none => refuse 401 "authentication required"
  | some credentials =>
    if credentials.scheme.lower == Str.ofString "bearer" then
      .read fun db =>
        match db.sessionOf (tokenHash credentials.credentials) with
        | some (id, session) =>
          if session.live now then resumeSession next id session
          else refuse 401 "session expired or revoked"
        | none => refuse 401 "session expired or revoked"
    else refuse 401 "authentication required"

/-- `UPDATE auth_sessions SET revoked_at`. -/
def Tables.revoke (id : Str) (revokedAt : ℤ) (db : Tables) : Option Tables :=
  (db.sessions.get id).map fun session =>
    { db with sessions := db.sessions.set id { session with revokedAt := some revokedAt } }

/-- `auth_logout` for a principal; `now` is read when the session is found. -/
def logout (now : ℤ) (principal : Principal) : Handler :=
  .read fun db =>
    match db.sessions.get principal.sessionId with
    | none => refuse 401 "session unavailable"
    | some session =>
      if session.revokedAt.isSome then .answer .loggedOut
      else .commit (.revoked principal.sessionId now) [] (Tables.revoke principal.sessionId now)
        (.answer .loggedOut) (.answer .failed)

/-- `auth_logout`. -/
def authLogout (credentials : Option Credentials) (now later : ℤ) : Handler :=
  currentPrincipal credentials now (logout later)

/-- `revoke_session`. -/
def revokeSession (sessionId organizationId : Str) (now : ℤ) : Handler :=
  .read fun db =>
    match db.sessions.get sessionId with
    | none => refuse 404 "session not found"
    | some session =>
      if session.organizationId == organizationId then
        match session.revokedAt with
        | some revokedAt => .answer (.revoked sessionId revokedAt)
        | none => .commit (.revoked sessionId now) [] (Tables.revoke sessionId now)
          (.answer (.revoked sessionId now)) (.answer .failed)
      else refuse 404 "session not found"

/-! ### The key of the administrator -/

/-- `require_admin_key`; `configured` is `settings.admin_api_key_hash`, `key` the header. -/
def requireAdminKey (configured key : Option Str) (next : Handler) : Handler :=
  match configured with
  | none | some [] => refuse 404 "admin API disabled"
  | some configured =>
    match key with
    | none | some [] => refuse 401 "admin authentication required"
    | some key =>
      if tokenHash key == configured.lower then next
      else refuse 401 "admin authentication failed"

/-! ### Pairing -/

/-- The grant with a code hash. -/
def Tables.grantOf (db : Tables) (hash : Str) : Option (Str × PairingGrant) :=
  db.grants.rows.find? fun r => r.2.codeHash == hash

/-- `INSERT INTO pairing_grants`, with its unique columns and its foreign keys. -/
def Tables.insertGrant (id : Str) (grant : PairingGrant) (db : Tables) : Option Tables :=
  if (db.grants.get id).isSome || (db.grantOf grant.codeHash).isSome ||
      (db.organizations.get grant.organizationId).isNone ||
      (db.memberships.get grant.membershipId).isNone || (db.users.get grant.userId).isNone then none
  else some { db with grants := db.grants.set id grant }

/-- `issue_pairing_grant`. -/
def issuePairingGrant (membershipId : Str) (grantTtlSeconds sessionTtlSeconds now : ℤ)
    (grantId pairingCode : Str) : Handler :=
  .read fun db =>
    match db.memberships.get membershipId with
    | none => refuse 404 "membership not found"
    | some membership =>
      if membership.active then
        let grant : PairingGrant :=
          { organizationId := membership.organizationId
            membershipId := membershipId
            userId := membership.userId
            codeHash := tokenHash pairingCode
            expiresAt := after now grantTtlSeconds
            sessionTtlSeconds := sessionTtlSeconds
            consumedAt := none }
        .commit (.issued grantId grant) [.grant grantId] (Tables.insertGrant grantId grant)
          (.answer (.issued grantId pairingCode grant.expiresAt)) (.answer .failed)
      else refuse 409 "membership inactive"

/-- `INSERT INTO auth_sessions`, with its unique columns and its foreign keys. -/
def Tables.insertSession (id : Str) (session : AuthSession) (db : Tables) : Option Tables :=
  if (db.sessions.get id).isSome || (db.sessionOf session.accessTokenHash).isSome ||
      (db.organizations.get session.organizationId).isNone ||
      (db.memberships.get session.membershipId).isNone ||
      (db.users.get session.userId).isNone then none
  else some { db with sessions := db.sessions.set id session }

/-- `UPDATE pairing_grants SET consumed_at`. -/
def Tables.consume (id : Str) (consumedAt : ℤ) (db : Tables) : Option Tables :=
  (db.grants.get id).map fun grant =>
    { db with grants := db.grants.set id { grant with consumedAt := some consumedAt } }

/-- `_normalized_code`. -/
def normalizedCode (value : Str) : Str := value.strip

/-- The session that an exchange makes. -/
def PairingGrant.session (grant : PairingGrant) (now : ℤ) (accessToken : Str) : AuthSession where
  organizationId := grant.organizationId
  membershipId := grant.membershipId
  userId := grant.userId
  accessTokenHash := tokenHash accessToken
  issuedAt := now
  expiresAt := after now grant.sessionTtlSeconds
  revokedAt := none

/-- The grant can still be exchanged. -/
def PairingGrant.open (grant : PairingGrant) (now : ℤ) : Bool :=
  grant.consumedAt.isNone && now < grant.expiresAt

/-- The membership can be used for the grant. -/
def PairingGrant.usable (grant : PairingGrant) (membership : Membership) : Bool :=
  membership.active && membership.organizationId == grant.organizationId &&
    membership.userId == grant.userId

/-- `exchange_pairing_code` after the grant was locked. -/
def redeem (now : ℤ) (sessionId accessToken grantId : Str) (grant : PairingGrant) : Handler :=
  .read fun db =>
    match db.memberships.get grant.membershipId with
    | none => refuse 401 "pairing code invalid or expired"
    | some membership =>
      if grant.usable membership then
        let session := grant.session now accessToken
        .commit (.minted grantId grant.codeHash now sessionId session) [.grant grantId]
          (fun db => (db.insertSession sessionId session).bind (Tables.consume grantId now))
          (.answer (.paired accessToken session.expiresAt)) (.answer .failed)
      else refuse 401 "pairing code invalid or expired"

/-- `exchange_pairing_code`. -/
def exchangePairingCode (pairingCode : Str) (now : ℤ) (sessionId accessToken : Str) : Handler :=
  let code := normalizedCode pairingCode
  if code.length < 16 then refuse 401 "pairing code invalid or expired"
  else
    .lock (fun db => (db.grantOf (tokenHash code)).map fun r => .grant r.1) fun db =>
      match db.grantOf (tokenHash code) with
      | none => refuse 401 "pairing code invalid or expired"
      | some (grantId, grant) =>
        if grant.open now then redeem now sessionId accessToken grantId grant
        else refuse 401 "pairing code invalid or expired"

/-! ### Bootstrap -/

/-- A column after an `UPDATE`, which writes it when the value is not the one that was loaded. -/
def patched {α : Type} [DecidableEq α] (loaded value current : α) : α :=
  if loaded = value then current else value

namespace Bootstrap

variable (b : Bootstrap)

/-- `authority_changed`. -/
def authorityChanged : Bool :=
  match b.membership with
  | none => true
  | some m => membershipAuthority m != requestedAuthority b.request

/-- `organization.authorization_revision` of an organization that was loaded with a revision. -/
def revision (loaded : ℤ) : ℤ := if b.authorityChanged then loaded + 1 else loaded

/-- The organizations after the flush. -/
def writeOrganization (organizations : Table Str Organization) :
    Option (Table Str Organization) :=
  match b.organization, organizations.get b.request.organizationId with
  | none, none => some (organizations.set b.request.organizationId
      ⟨b.request.organizationName, b.revision 0⟩)
  | some loaded, some current => some (organizations.set b.request.organizationId
      { name := patched loaded.name b.request.organizationName current.name
        authorizationRevision := patched loaded.authorizationRevision
          (b.revision loaded.authorizationRevision) current.authorizationRevision })
  | _, _ => none

/-- Another user has the mail address. -/
def emailTaken (users : Table Str User) : Bool :=
  b.request.email.isSome && users.any fun id user =>
    id != b.request.userId && user.email == b.request.email

/-- The users after the flush. -/
def writeUser (users : Table Str User) : Option (Table Str User) :=
  if b.emailTaken users then none
  else
    match b.user, users.get b.request.userId with
    | none, none => some (users.set b.request.userId ⟨b.request.displayName, b.request.email⟩)
    | some loaded, some current => some (users.set b.request.userId
        { displayName := patched loaded.displayName b.request.displayName current.displayName
          email := patched loaded.email b.request.email current.email })
    | _, _ => none

/-- Another membership joins the user and the organization. -/
def pairTaken (memberships : Table Str Membership) : Bool :=
  memberships.any fun id m => id != b.request.membershipId &&
    m.organizationId == b.request.organizationId && m.userId == b.request.userId

/-- The columns of a membership after the flush. -/
def patchMembership (loaded current : Membership) : Membership :=
  let value := b.request.membership
  { current with
    active := patched loaded.active value.active current.active
    allCustomers := patched loaded.allCustomers value.allCustomers current.allCustomers
    allProjects := patched loaded.allProjects value.allProjects current.allProjects
    customerIds := patched loaded.customerIds value.customerIds current.customerIds
    projectIds := patched loaded.projectIds value.projectIds current.projectIds
    roles := patched loaded.roles value.roles current.roles
    capabilities := patched loaded.capabilities value.capabilities current.capabilities }

/-- The memberships after the flush. -/
def writeMembership (memberships : Table Str Membership) : Option (Table Str Membership) :=
  match b.membership, memberships.get b.request.membershipId with
  | none, none =>
    if b.pairTaken memberships then none
    else some (memberships.set b.request.membershipId b.request.membership)
  | some loaded, some current =>
    some (memberships.set b.request.membershipId (b.patchMembership loaded current))
  | _, _ => none

/-- The flushes and the commit of `bootstrap_identity`. -/
def write (db : Tables) : Option Tables := do
  let organizations ← b.writeOrganization db.organizations
  let users ← b.writeUser db.users
  let memberships ← b.writeMembership db.memberships
  Tables.insertSession b.sessionId b.session
    { db with organizations := organizations, users := users, memberships := memberships }

end Bootstrap

/-- The session that a bootstrap makes. -/
def BootstrapRequest.session (r : BootstrapRequest) (now : ℤ) (accessToken : Str) :
    AuthSession where
  organizationId := r.organizationId
  membershipId := r.membershipId
  userId := r.userId
  accessTokenHash := tokenHash accessToken
  issuedAt := now
  expiresAt := after now r.sessionTtlSeconds
  revokedAt := none

/-- `bootstrap_identity` from the check of the session identifier on. -/
def finishBootstrap (b : Bootstrap) (accessToken : Str) : Handler :=
  .read fun db =>
    if (db.sessions.get b.sessionId).isSome then refuse 409 "session ID already exists"
    else .commit (.bootstrapped b) [.organization b.request.organizationId] b.write
      (.answer (.bootstrapped b.sessionId accessToken
        (b.revision ((b.organization.map Organization.authorizationRevision).getD 0))
        b.session.issuedAt b.session.expiresAt))
      (.answer .failed)

/-- `membership_by_id` belongs to someone else. -/
def BootstrapRequest.foreign (r : BootstrapRequest) (m : Membership) : Bool :=
  m.organizationId != r.organizationId || m.userId != r.userId

/-- `membership_for_pair`. -/
def Tables.membershipFor (db : Tables) (organizationId userId : Str) : Option (Str × Membership) :=
  db.memberships.rows.find? fun r =>
    r.2.organizationId == organizationId && r.2.userId == userId

/-- `bootstrap_identity` from the two queries for the membership on. -/
def loadMembership (r : BootstrapRequest) (organization : Option Organization) (user : Option User)
    (now : ℤ) (sessionId accessToken : Str) : Handler :=
  .read fun byId =>
    let membershipById := byId.memberships.get r.membershipId
    .read fun forPair =>
      let membershipForPair := forPair.membershipFor r.organizationId r.userId
      if membershipById.any r.foreign then
        refuse 409 "membership ID belongs to another principal"
      else if membershipForPair.any fun m => m.1 != r.membershipId then
        refuse 409 "organization/user already has another membership ID"
      else
        finishBootstrap
          { request := r
            organization := organization
            user := user
            membership := membershipById.or (membershipForPair.map Prod.snd)
            sessionId := r.sessionId.getD sessionId
            session := r.session now accessToken }
          accessToken

/-- Another user has the mail address of the request. -/
def BootstrapRequest.emailOwned (r : BootstrapRequest) (db : Tables) : Bool :=
  (r.email.any fun email => !email.isEmpty) && db.users.any fun id user =>
    id != r.userId && user.email == r.email

/-- `bootstrap_identity`; `now` is read at the end. -/
def bootstrapIdentity (r : BootstrapRequest) (now : ℤ) (sessionId accessToken : Str) : Handler :=
  .read fun organizations =>
    let organization := organizations.organizations.get r.organizationId
    .read fun users =>
      let user := users.users.get r.userId
      .read fun owners =>
        if r.emailOwned owners then refuse 409 "email already belongs to another user"
        else loadMembership r organization user now sessionId accessToken

/-! ### Scopes that a push widens -/

/-- `membership is not None and membership.active`, and its key columns are those of the principal.
-/
def Membership.canonicalFor (m : Membership) (principal : Principal) : Bool :=
  m.active && m.organizationId == principal.organizationId && m.userId == principal.userId

/-- The arguments of `_grant_created_scope`. -/
structure Created where
  customerId : Option Str
  projectId : Option Str

/-- The customers that a grant adds. -/
def Membership.newCustomers (m : Membership) (c : Created) : List Str :=
  (c.customerId.filter fun id => !m.allCustomers && !m.customerIds.contains id).toList

/-- The projects that a grant adds. -/
def Membership.newProjects (m : Membership) (c : Created) : List Str :=
  (c.projectId.filter fun id => !m.allProjects && !m.projectIds.contains id).toList

/-- The membership after a grant. -/
def Membership.grant (m : Membership) (c : Created) : Membership :=
  { m with
    customerIds := m.customerIds ++ m.newCustomers c
    projectIds := m.projectIds ++ m.newProjects c }

/-- `changed`. -/
def Membership.grantChanges (m : Membership) (c : Created) : Bool :=
  !(m.newCustomers c).isEmpty || !(m.newProjects c).isEmpty

namespace Widening

/-- The commit of a push that widened a scope. -/
def write (w : Widening) (db : Tables) : Option Tables :=
  match db.organizations.get w.organizationId, db.memberships.get w.membershipId with
  | some organization, some membership => some
      { db with
        organizations := db.organizations.set w.organizationId
          { organization with authorizationRevision := w.authorizationRevision + w.grants }
        memberships := db.memberships.set w.membershipId
          { membership with
            customerIds :=
              patched w.loaded.customerIds w.widened.customerIds membership.customerIds
            projectIds := patched w.loaded.projectIds w.widened.projectIds membership.projectIds } }
  | _, _ => none

/-- One more grant. -/
def next (w : Widening) (c : Created) : Widening :=
  if w.widened.grantChanges c then
    { w with widened := w.widened.grant c, grants := w.grants + 1 }
  else w

end Widening

/-- The grants of a push, under the lock of the organization with this revision. The membership is
loaded for each grant until one of them counts; from then on its row is locked by the flush. -/
def grantAll (principal : Principal) (authorizationRevision : ℤ) : List Created → Handler
  | [] => .answer .pushed
  | c :: rest => .read fun db =>
    match db.memberships.get principal.membershipId with
    | none => grantAll principal authorizationRevision rest
    | some membership =>
      if membership.canonicalFor principal && membership.grantChanges c then
        let w := rest.foldl Widening.next
          { organizationId := principal.organizationId
            membershipId := principal.membershipId
            loaded := membership
            widened := membership.grant c
            authorizationRevision := authorizationRevision
            grants := 1 }
        .commit (.widened w) [.organization principal.organizationId] w.write (.answer .pushed)
          (.answer .failed)
      else grantAll principal authorizationRevision rest

/-- A push, as far as it concerns these tables: `_apply_push_once` locks the organization, and the
customers and projects that it creates are granted one after another. -/
def pushGrants (created : List Created) (principal : Principal) : Handler :=
  if principal.holds .sync then
    .lock (fun db => (db.organizations.get principal.organizationId).map fun _ =>
        .organization principal.organizationId) fun db =>
      match db.organizations.get principal.organizationId with
      | none => refuse 403 "organization unavailable"
      | some organization => grantAll principal organization.authorizationRevision created
  else refuse 403 "sync capability required"

/-! ### The service -/

/-- A call, with the times that it reads and the identifiers and tokens that it draws. -/
inductive Call where
  | authenticate (credentials : Option Credentials) (now : ℤ)
  | authLogout (credentials : Option Credentials) (now later : ℤ)
  | push (credentials : Option Credentials) (now : ℤ) (created : List Created)
  | authPair (pairingCode : Str) (now : ℤ) (sessionId accessToken : Str)
  | adminPairingGrant (key : Option Str) (membershipId : Str)
      (grantTtlSeconds sessionTtlSeconds now : ℤ) (grantId pairingCode : Str)
  | adminRevokeSession (key : Option Str) (sessionId organizationId : Str) (now : ℤ)
  | adminBootstrap (key : Option Str) (request : BootstrapRequest) (now : ℤ)
      (sessionId accessToken : Str)

/-- What the service does for a call; `configured` is the hash of the administrator's key. -/
def Call.handler (configured : Option Str) : Call → Handler
  | authenticate credentials now =>
    currentPrincipal credentials now fun principal => .answer (.authenticated principal)
  | authLogout credentials now later => Identity.authLogout credentials now later
  | push credentials now created => currentPrincipal credentials now (pushGrants created)
  | authPair pairingCode now sessionId accessToken =>
    exchangePairingCode pairingCode now sessionId accessToken
  | adminPairingGrant key membershipId grantTtlSeconds sessionTtlSeconds now grantId pairingCode =>
    requireAdminKey configured key
      (issuePairingGrant membershipId grantTtlSeconds sessionTtlSeconds now grantId pairingCode)
  | adminRevokeSession key sessionId organizationId now =>
    requireAdminKey configured key (revokeSession sessionId organizationId now)
  | adminBootstrap key request now sessionId accessToken =>
    requireAdminKey configured key (bootstrapIdentity request now sessionId accessToken)

end VitrialSync.Identity
