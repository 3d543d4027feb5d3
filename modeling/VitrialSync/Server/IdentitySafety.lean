import VitrialSync.Server.IdentityRuns

set_option relaxedAutoImplicit false
set_option autoImplicit false

/-!
# Safety of pairing and sessions

Any number of calls of the identity service, interleaved in any way.

## Main definitions

* `VitrialSync.Identity.Service`, `VitrialSync.Identity.opening` — the calls at work.
* `VitrialSync.Identity.Redeemed` — a session was made from an open grant.
* `VitrialSync.Identity.Ended` — a logout or a revocation was answered.
* `VitrialSync.Identity.Undisturbed` — a bootstrap commits on what it loaded.

## Main results

* `VitrialSync.Identity.pairing_once` — a pairing code makes one session.
* `VitrialSync.Identity.authenticated_live` — who is let in had a live session and an active
  membership.
* `VitrialSync.Identity.ended_refused` — a session that was ended lets nobody in.
* `VitrialSync.Identity.revision_identifies` — the authorization revision tells authorities apart.
-/

namespace VitrialSync.Identity

open Python Program

/-- The service with its calls at work. -/
abbrev Service (ι : Type) := Backend ι Tables Row Effect Answer

/-- All calls are about to begin. -/
def opening {ι : Type} (configured : Option Str) (calls : ι → Call) (start : Tables) : Service ι :=
  Backend.opening (fun i => (calls i).handler configured) start

/-- An interleaving. -/
abbrev Run {ι : Type} [DecidableEq ι] : Service ι → List ι → Service ι → Prop := Trace HandlerStep

/-! ### Samples -/

namespace Sample

/-- The request of a bootstrap. -/
def request : BootstrapRequest where
  organizationId := "o"
  organizationName := "Organization"
  userId := "u"
  displayName := "User"
  email := none
  membershipId := "m"
  active := true
  allCustomers := true
  allProjects := true
  customerIds := []
  projectIds := []
  roles := []
  capabilities := [.sync]
  sessionId := none
  sessionTtlSeconds := 28800

/-- A pairing code. -/
def code : Str := "pairing-code-with-bits"

/-- The credentials of the paired device. -/
def credentials : Credentials := ⟨"Bearer", "t1"⟩

/-- A bootstrap, a pairing that is tried twice, a logout, and an authentication. -/
def calls : ℕ → Call
  | 0 => .adminBootstrap (some "key") request 0 "s0" "t0"
  | 1 => .adminPairingGrant (some "key") "m" 900 28800 1000000 "g" code
  | 2 => .authPair (Str.ofString " " ++ code) 2000000 "s1" "t1"
  | 3 => .authPair code 2000001 "s2" "t2"
  | 4 => .authLogout (some credentials) 3000000 3000001
  | _ => .authenticate (some credentials) 4000000

/-- The hash of the administrator's key. -/
def configured : Option Str := some (tokenHash "key")

/-- The empty tables. -/
def start : Tables := ⟨.empty, .empty, .empty, .empty, .empty⟩

/-- The empty tables are valid. -/
lemma valid_start : Valid start where
  members := fun _ _ h => by cases h
  sessions := fun _ _ h => by cases h
  grants := fun _ _ h => by cases h
  tokens := fun _ _ _ _ h => by cases h
  codes := fun _ _ _ _ h => by cases h

/-- Tables with one membership. -/
def joined : Tables :=
  { start with
    organizations := start.organizations.set "o" ⟨"Organization", 1⟩
    users := start.users.set "u" ⟨"User", none⟩
    memberships := start.memberships.set "m" request.membership }

/-- The tables with one membership are valid. -/
lemma valid_joined : Valid joined := by
  refine valid_start.rewriteMembers _ (fun id m hm => ?_) (Table.keeps_set_new _ rfl)
  rcases Table.get_set_eq_some hm with ⟨-, rfl⟩ | ⟨-, hold⟩
  · exact ⟨_, Table.get_set_self _ _ _⟩
  · cases hold

/-- The service after some of the calls, one after another. -/
def served (is : List ℕ) : Service ℕ :=
  Backend.serve (fun i => (calls i).handler configured) is (opening configured calls start)

/-- Calls one after another are a run. -/
lemma served_run (is : List ℕ) (h : is.Nodup) :
    ∃ events, Run (opening configured calls start) events (served is) :=
  serve_trace _ h (fun _ => rfl) fun _ _ => rfl

end Sample

section Runs

variable {ι : Type} [DecidableEq ι] {configured : Option Str} {calls : ι → Call} {start : Tables}
  {events events' : List ι} {s s' : Service ι}

/-- Every interleaving is coherent. -/
theorem coherent_of_run (hvalid : Valid start)
    (hrun : Run (opening configured calls start) events s) :
    Coherent discipline (fun i => (calls i).promise configured start) start s :=
  (Coherent.opening hvalid fun i => (calls i).sound configured hvalid).trace hrun

/-! ### Pairing -/

/-- A session was made from the grant of the code with this hash. -/
def Effect.mintsFor (hash : Str) : Effect → Bool
  | .minted _ codeHash _ _ _ => codeHash == hash
  | _ => false

/-- The grant of a session has its code hash, was consumed when the session was made, before it
expired, and the session is for its membership and as long as it says. -/
def Redeemed (db : Tables) : Effect → Prop
  | .minted grantId codeHash consumedAt _ session => ∃ grant, db.grants.get grantId = some grant ∧
      grant.codeHash = codeHash ∧ grant.consumedAt = some consumedAt ∧
      consumedAt < grant.expiresAt ∧ ∃ token, session = grant.session consumedAt token
  | _ => True

omit [DecidableEq ι] in
/-- A grant that was consumed is never written again. -/
lemma consumed_of_does {e : Effect} {t t' : Tables} (h : does e t t') {id : Str}
    {grant : PairingGrant} (hgrant : t.grants.get id = some grant)
    (hconsumed : grant.consumedAt.isSome = true) : t'.grants.get id = some grant := by
  by_cases hrow : Row.grant id ∈ e.touched
  · cases e with
    | issued id' grant' =>
      obtain rfl : id = id' := by simpa [Effect.touched] using hrow
      cases (insertGrant_eq_some h.1).1.symm.trans hgrant
    | minted grantId codeHash consumedAt id' session =>
      obtain rfl : id = grantId := by simpa [Effect.touched] using hrow
      obtain ⟨grant', hgrant', -, hopen, -⟩ := h
      obtain rfl := Option.some.inj (hgrant.symm.trans hgrant')
      simp [PairingGrant.open, Option.isSome_iff_ne_none.mp hconsumed] at hopen
    | revoked => cases hrow
    | bootstrapped => simp [Effect.touched] at hrow
    | widened => simp [Effect.touched] at hrow
  · have hsame : t'.grants.get id = t.grants.get id := same_of_does h hrow
    exact hsame.trans hgrant

omit [DecidableEq ι] in
/-- The grant of a session stays as it was when the session was made. -/
lemma Redeemed.does {e e' : Effect} {t t' : Tables} (h : Redeemed t e')
    (hdoes : Identity.does e t t') : Redeemed t' e' := by
  cases e' with
  | minted grantId codeHash consumedAt id session =>
    obtain ⟨grant, hgrant, hcode, hconsumed, hrest⟩ := h
    exact ⟨grant, consumed_of_does hdoes hgrant (by rw [hconsumed]; rfl), hcode, hconsumed, hrest⟩
  | _ => trivial

omit [DecidableEq ι] in
/-- A session is made from its grant. -/
lemma redeemed_of_does {e : Effect} {t t' : Tables} (h : does e t t') : Redeemed t' e := by
  cases e with
  | minted grantId codeHash consumedAt id session =>
    obtain ⟨grant, hgrant, hcode, hopen, htoken, hwrite⟩ := h
    obtain ⟨-, -, rfl⟩ := mint_eq_some hgrant hwrite
    simp only [PairingGrant.open, Bool.and_eq_true, decide_eq_true_eq] at hopen
    exact ⟨_, Table.get_set_self _ _ _, hcode, rfl, hopen.2, htoken⟩
  | _ => trivial

omit [DecidableEq ι] in
/-- A session is not made twice for one code hash. -/
lemma not_mintsFor_of_redeemed {e e' : Effect} {t t' : Tables} {hash : Str} (hvalid : Valid t)
    (h : Redeemed t e') (hmints : e'.mintsFor hash = true) (hdoes : does e t t') :
    e.mintsFor hash = false := by
  by_contra hagain
  cases e with
  | minted grantId codeHash consumedAt id session =>
    cases e' with
    | minted grantId' codeHash' consumedAt' id' session' =>
      obtain ⟨grant, hgrant, hcode, hopen, -⟩ := hdoes
      obtain ⟨grant', hgrant', hcode', hconsumed, -⟩ := h
      obtain rfl : codeHash = hash := by simpa [Effect.mintsFor] using hagain
      obtain rfl : codeHash' = codeHash := by simpa [Effect.mintsFor] using hmints
      obtain rfl := hvalid.codes _ _ _ _ hgrant hgrant' (hcode.trans hcode'.symm)
      obtain rfl := Option.some.inj (hgrant.symm.trans hgrant')
      simp [PairingGrant.open, hconsumed] at hopen
    | _ => cases hmints
  | _ => exact hagain rfl

omit [DecidableEq ι] in
/-- In a run of the effects every session was made from its grant, one for each code hash.

**Proof sketch.** By induction on the commits. A grant whose code hash has made a session is
consumed, and code hashes are unique, so the next session for this hash finds no open grant. -/
lemma redeemed_of_trace {t : Tables} {ledger : List (ι × Effect)} (hvalid : Valid start)
    (h : Trace (fun t (e : ι × Effect) t' => does e.2 t t') start ledger t) :
    Valid t ∧ (∀ e ∈ ledger, Redeemed t e.2) ∧
      ∀ hash, ledger.countP (fun e => e.2.mintsFor hash) ≤ 1 := by
  refine h.history (I := fun ledger t => Valid t ∧ (∀ e ∈ ledger, Redeemed t e.2) ∧
    ∀ hash, ledger.countP (fun e => e.2.mintsFor hash) ≤ 1) ⟨hvalid, by simp, by simp⟩ ?_
  rintro past e future t t' - - ⟨ht, hredeemed, honce⟩ hdoes
  refine ⟨valid_of_does ht hdoes, fun e' he' => ?_, fun hash => ?_⟩
  · rcases List.mem_append.mp he' with he' | he'
    · exact (hredeemed e' he').does hdoes
    · obtain rfl := List.mem_singleton.mp he'
      exact redeemed_of_does hdoes
  · rw [List.countP_append, List.countP_singleton]
    by_cases hpast : ∃ e' ∈ past, e'.2.mintsFor hash = true
    · obtain ⟨e', he', hmints⟩ := hpast
      simp [not_mintsFor_of_redeemed ht (hredeemed e' he') hmints hdoes, honce hash]
    · have hzero : past.countP (fun e => e.2.mintsFor hash) = 0 := by
        rw [List.countP_eq_zero]
        exact fun e' he' hmints => hpast ⟨e', he', hmints⟩
      rw [hzero]
      split_ifs <;> omega

/-- **A pairing code makes at most one session**, in any interleaving of calls: of the commits so
far at most one made a session for the hash of a code. It is that of an exchange of this code, whose
grant was consumed at that time, before it expired, and the session is for the membership of the
grant and as long as the grant says.

**Proof sketch.** The commits are a run of the effects (`coherent_of_run`), to which
`redeemed_of_trace` applies; what a call commits was promised of it. -/
theorem pairing_once (hvalid : Valid start)
    (hrun : Run (opening configured calls start) events s) (hash : Str) :
    s.ledger.countP (fun e => e.2.mintsFor hash) ≤ 1 ∧
      ∀ e ∈ s.ledger, e.2.mintsFor hash = true → Redeemed s.rows e.2 ∧
        ∃ pairingCode now sessionId token, calls e.1 = .authPair pairingCode now sessionId token ∧
          tokenHash (normalizedCode pairingCode) = hash := by
  have hcoherent := coherent_of_run hvalid hrun
  obtain ⟨-, hredeemed, honce⟩ := redeemed_of_trace hvalid hcoherent.ledger
  refine ⟨honce hash, fun e he hmints => ⟨hredeemed e he, ?_⟩⟩
  have hpromised := hcoherent.promised e he
  obtain ⟨i, effect⟩ := e
  cases effect with
  | minted grantId codeHash consumedAt id session =>
    obtain rfl : codeHash = hash := by simpa [Effect.mintsFor] using hmints
    simp only [Call.promise] at hpromised
    cases hcall : calls i with
    | authPair pairingCode now sessionId token =>
      rw [hcall] at hpromised
      exact ⟨pairingCode, now, sessionId, token, rfl, hpromised.1.symm⟩
    | _ =>
      rw [hcall] at hpromised
      cases hpromised
  | _ => cases hmints

/-- The second attempt makes no session. -/
theorem pairing_once_sample :
    ∃ events s, Run (opening Sample.configured Sample.calls Sample.start) events s ∧
      s.ledger.countP (fun e => e.2.mintsFor (tokenHash Sample.code)) ≤ 1 ∧
      s.ledger.countP (fun e => e.2.mintsFor (tokenHash Sample.code)) ≠ 0 := by
  obtain ⟨events, hrun⟩ := Sample.served_run [0, 1, 2, 3] (by decide)
  exact ⟨events, _, hrun, (pairing_once Sample.valid_start hrun _).1, by decide +kernel⟩

omit [DecidableEq ι] in
/-- A grant is found by its code hash. -/
lemma grantOf_of_get {db : Tables} (hvalid : Valid db) {id : Str} {grant : PairingGrant}
    (hgrant : db.grants.get id = some grant) : db.grantOf grant.codeHash = some (id, grant) := by
  cases hfound : db.grantOf grant.codeHash with
  | none => exact absurd rfl (grantOf_eq_none hfound hgrant)
  | some r =>
    obtain ⟨hget, hcode⟩ := grantOf_eq_some hfound
    obtain rfl := hvalid.codes _ _ _ _ hget hgrant hcode
    rw [← Option.some.inj (hget.symm.trans hgrant)]

omit [DecidableEq ι] in
/-- A session is found by its token hash. -/
lemma sessionOf_of_get {db : Tables} (hvalid : Valid db) {id : Str} {session : AuthSession}
    (hsession : db.sessions.get id = some session) :
    db.sessionOf session.accessTokenHash = some (id, session) := by
  cases hfound : db.sessionOf session.accessTokenHash with
  | none => exact absurd rfl (sessionOf_eq_none hfound hsession)
  | some r =>
    obtain ⟨hget, htoken⟩ := sessionOf_eq_some hfound
    obtain rfl := hvalid.tokens _ _ _ _ hget hsession htoken
    rw [← Option.some.inj (hget.symm.trans hsession)]

omit [DecidableEq ι] in
/-- A session is inserted and its grant consumed. -/
lemma mint_of_get {db : Tables} {grantId sessionId : Str} {grant : PairingGrant} {m : Membership}
    {o : Organization} {u : User} (now : ℤ) (token : Str)
    (hgrant : db.grants.get grantId = some grant)
    (hm : db.memberships.get grant.membershipId = some m)
    (ho : db.organizations.get grant.organizationId = some o)
    (hu : db.users.get grant.userId = some u) (hsession : db.sessions.get sessionId = none)
    (htoken : db.sessionOf (tokenHash token) = none) :
    (db.insertSession sessionId (grant.session now token)).bind (Tables.consume grantId now) =
      some { db with
        sessions := db.sessions.set sessionId (grant.session now token)
        grants := db.grants.set grantId { grant with consumedAt := some now } } := by
  simp [Tables.insertSession, Tables.consume, PairingGrant.session, hgrant, hsession, htoken, ho,
    hm, hu]

omit [DecidableEq ι] in
/-- An open grant is exchanged for a session. -/
lemma exchangePairingCode_alone {db db' : Tables} (hvalid : Valid db) (presented : Str) (now : ℤ)
    (sessionId token : Str) {grantId : Str} {grant : PairingGrant} {m : Membership}
    (hlength : 16 ≤ (normalizedCode presented).length)
    (hgrant : db.grants.get grantId = some grant)
    (hcode : grant.codeHash = tokenHash (normalizedCode presented)) (hopen : grant.open now = true)
    (hm : db.memberships.get grant.membershipId = some m) (husable : grant.usable m = true)
    (hmint : (db.insertSession sessionId (grant.session now token)).bind
      (Tables.consume grantId now) = some db') :
    (exchangePairingCode presented now sessionId token).alone db =
      ⟨.paired token (grant.session now token).expiresAt, db',
        [.minted grantId grant.codeHash now sessionId (grant.session now token)]⟩ := by
  have hfound : db.grantOf (tokenHash (normalizedCode presented)) = some (grantId, grant) := by
    rw [← hcode]
    exact grantOf_of_get hvalid hgrant
  simp [exchangePairingCode, redeem, Handler.alone, not_lt.mpr hlength, hfound, hopen, hm, husable,
    hmint]

omit [DecidableEq ι] in
/-- A live session of an active membership is resumed. -/
lemma currentPrincipal_alone {db : Tables} (hvalid : Valid db) {id : Str} (token : Str) (now : ℤ)
    {session : AuthSession} {m : Membership} {o : Organization} (next : Principal → Handler)
    (hsession : db.sessions.get id = some session)
    (htoken : session.accessTokenHash = tokenHash token) (hlive : session.live now = true)
    (hm : db.memberships.get session.membershipId = some m) (hactive : m.active = true)
    (ho : db.organizations.get session.organizationId = some o) :
    (currentPrincipal (some ⟨"Bearer", token⟩) now next).alone db =
      (next (principalOf id session m o)).alone db := by
  have hbearer : (Str.ofString "Bearer").lower = Str.ofString "bearer" := by decide
  have hfound : db.sessionOf (tokenHash token) = some (id, session) := by
    rw [← htoken]
    exact sessionOf_of_get hvalid hsession
  have hbelongs := belongsTo_of_joined (hvalid.sessions id session hsession) hm
  simp [currentPrincipal, hbearer, Handler.alone, hfound, hlive, resumeSession, hm, ho, hactive,
    hbelongs]

omit [DecidableEq ι] in
/-- **A pairing code that is issued, exchanged in time and used in time lets its holder in**, with
the scope of the membership that it was issued for, whatever white space was typed around it (the
bound of the request on the text that is presented is checked before the handler). The three
requests run one after the other, with nothing in between.

**Proof sketch.** The tables stay valid, so the grant is the one that is found by the hash of the
code, and the session the one that is found by the hash of the token. -/
theorem pairing_round_trip {db : Tables} (hvalid : Valid db) {membershipId : Str} {m : Membership}
    {o : Organization} {u : User} (hm : db.memberships.get membershipId = some m)
    (hactive : m.active = true) (ho : db.organizations.get m.organizationId = some o)
    (hu : db.users.get m.userId = some u) {grantId code presented sessionId token : Str}
    {grantTtl sessionTtl issuedAt pairedAt usedAt : ℤ} (hgrant : db.grants.get grantId = none)
    (hcode : db.grantOf (tokenHash code) = none) (hlength : 16 ≤ code.length)
    (hpresented : normalizedCode presented = code) (hsession : db.sessions.get sessionId = none)
    (htoken : db.sessionOf (tokenHash token) = none) (hopen : pairedAt < after issuedAt grantTtl)
    (hlive : usedAt < after pairedAt sessionTtl) :
    let issued :=
      (issuePairingGrant membershipId grantTtl sessionTtl issuedAt grantId code).alone db
    let paired := (exchangePairingCode presented pairedAt sessionId token).alone issued.rows
    let used := (currentPrincipal (some ⟨"Bearer", token⟩) usedAt fun p =>
      .answer (.authenticated p)).alone paired.rows
    issued.answer = .issued grantId code (after issuedAt grantTtl) ∧
      paired.answer = .paired token (after pairedAt sessionTtl) ∧
      used.answer = .authenticated
        { userId := m.userId
          organizationId := m.organizationId
          membershipId := membershipId
          sessionId := sessionId
          authorizationRevision := o.authorizationRevision
          capabilities := m.capabilities
          customerIds := m.customerIds
          projectIds := m.projectIds
          allCustomers := m.allCustomers
          allProjects := m.allProjects } := by
  let grant : PairingGrant := ⟨m.organizationId, membershipId, m.userId, tokenHash code,
    after issuedAt grantTtl, sessionTtl, none⟩
  let dbIssued : Tables := { db with grants := db.grants.set grantId grant }
  have hinsert : db.insertGrant grantId grant = some dbIssued := by
    simp [Tables.insertGrant, hgrant, grant, hcode, ho, hm, hu, dbIssued]
  have hissued :
      (issuePairingGrant membershipId grantTtl sessionTtl issuedAt grantId code).alone db =
      ⟨.issued grantId code (after issuedAt grantTtl), dbIssued, [.issued grantId grant]⟩ := by
    simp only [grant] at hinsert
    simp [issuePairingGrant, Handler.alone, hm, hactive, hinsert, grant]
  have hdone : does (.issued grantId grant) db dbIssued := ⟨hinsert, rfl, m, hm, rfl, rfl⟩
  have hvalidIssued := valid_of_does hvalid hdone
  have hget : dbIssued.grants.get grantId = some grant := Table.get_set_self _ _ _
  have hopened : grant.open pairedAt = true := by simp [PairingGrant.open, grant, hopen]
  have hmint := mint_of_get pairedAt token hget hm ho hu hsession htoken
  have hpaired := exchangePairingCode_alone hvalidIssued presented pairedAt sessionId token
    (by rw [hpresented]; exact hlength) hget (by rw [hpresented]) hopened hm
    (by simp [PairingGrant.usable, grant, hactive]) hmint
  have hminted : does (.minted grantId grant.codeHash pairedAt sessionId
      (grant.session pairedAt token)) dbIssued _ := ⟨grant, hget, rfl, hopened, ⟨token, rfl⟩, hmint⟩
  have hused := currentPrincipal_alone (valid_of_does hvalidIssued hminted) token usedAt
    (fun p => .answer (.authenticated p)) (Table.get_set_self db.sessions sessionId _) rfl
    (by simp [AuthSession.live, PairingGrant.session, grant, hlive]) hm hactive ho
  refine ⟨congrArg Handler.Outcome.answer hissued, ?_, ?_⟩
  · rw [hissued, hpaired]
    rfl
  · rw [hissued, hpaired, hused]
    rfl

/-- A code that is typed with a blank before it. -/
theorem pairing_round_trip_sample :
    ((exchangePairingCode (Str.ofString " " ++ Sample.code) 2000000 "s1" "t1").alone
      ((issuePairingGrant "m" 900 28800 1000000 "g" Sample.code).alone
        Sample.joined).rows).answer = .paired "t1" (after 2000000 28800) :=
  (pairing_round_trip Sample.valid_joined (Table.get_set_self _ _ _) rfl
    (Table.get_set_self _ _ _) (Table.get_set_self _ _ _) rfl rfl (by decide) (by decide) rfl rfl
    (by decide) (by decide : (3000000 : ℤ) < after 2000000 28800)).2.1

/-! ### Authentication -/

/-- A session that was found is resumed by the rows of two later moments of the run.

**Proof sketch.** What the handler reads is what was committed when it took its steps
(`read_of_answered`), and its answer stays. -/
lemma moments_of_resumeSession {s s' : Service ι} {events : List ι} {i : ι} {id : Str}
    {x : AuthSession} {p : Principal} (hrun : Run s events s')
    (hparty : s.parties i =
      ⟨some (resumeSession (fun p => .answer (.authenticated p)) id x), []⟩)
    (hanswer : (s'.parties i).rest = some (.answer (.authenticated p))) :
    ∃ (between waiting rest : List ι) (joined revised : Service ι) (m : Membership)
      (o : Organization), events = between ++ (i :: waiting ++ i :: rest) ∧
      Run s between joined ∧ Run joined (i :: waiting) revised ∧ Run revised (i :: rest) s' ∧
      (∀ r, (revised.parties i).rest ≠ some (.answer r)) ∧
      joined.rows.memberships.get x.membershipId = some m ∧ m.active = true ∧
      x.belongsTo m = true ∧ revised.rows.organizations.get x.organizationId = some o ∧
      p = principalOf id x m o := by
  obtain ⟨between, after, joined, afterJoin, rfl, -, hjoined, -, hjoin, hparty, hafter⟩ :=
    read_of_answered hrun hparty hanswer
  obtain ⟨waiting, rest, revised, afterRead, rfl, -, hwaiting, hreading, hread, hparty, hrest⟩ :=
    read_of_answered hafter hparty hanswer
  have hunanswered : ∀ r, (revised.parties i).rest ≠ some (.answer r) := by
    intro r hr
    rw [hreading] at hr
    cases hr
  have hstays : ∀ result, afterRead.parties i = ⟨some (.answer result), []⟩ →
      .authenticated p = result := fun _ h => answer_of_answered hrest (by rw [h]) hanswer
  dsimp only at hparty
  split at hparty
  next m o hm ho =>
    split_ifs at hparty with hactive hbelongs
    · obtain rfl := Answer.authenticated.inj (hstays _ hparty)
      exact ⟨between, waiting, rest, joined, revised, m, o, rfl, hjoined, .cons hjoin hwaiting,
        .cons hread hrest, hunanswered, hm, hactive, hbelongs, ho, rfl⟩
    · cases hstays _ hparty
    · cases hstays _ hparty
  next => cases hstays _ hparty

/-- **Whoever is let in had a live session and then an active membership of its own**, in the tables
of three moments of the run: the first step of the call, a second one, and a third one before its
answer. Its scope is that of the membership, and its revision that of the organization at the third
one. No call is ever refused for a session whose membership is not its own, as sessions keep
belonging to a membership.

**Proof sketch.** A call that is let in has taken every branch of `current_principal` that goes on,
each on what was committed when it took the step. -/
theorem authenticated_live (hvalid : Valid start)
    (hrun : Run (opening configured calls start) events s) {i : ι} {r : Answer}
    (hanswer : (s.parties i).rest = some (.answer r)) :
    r ≠ .http 401 "session membership mismatch" ∧ ∀ p, r = .authenticated p →
      ∃ (credentials : Credentials) (now : ℤ) (before between waiting rest : List ι)
        (found joined revised : Service ι), calls i = .authenticate (some credentials) now ∧
        events = before ++ (i :: between ++ (i :: waiting ++ i :: rest)) ∧ i ∉ before ∧
        Run (opening configured calls start) before found ∧ Run found (i :: between) joined ∧
        Run joined (i :: waiting) revised ∧ Run revised (i :: rest) s ∧
        (∀ r, (revised.parties i).rest ≠ some (.answer r)) ∧
        Resumed found.rows joined.rows revised.rows credentials now p := by
  have hpromised := (coherent_of_run hvalid hrun).answered hanswer
  constructor
  · rintro rfl
    cases hpromised
  · rintro p rfl
    obtain ⟨c, now, -, hcall, -⟩ := hpromised
    have hparty : (opening configured calls start).parties i =
        ⟨some (currentPrincipal (some c) now fun p => .answer (.authenticated p)), []⟩ := by
      simp only [opening, Backend.opening, hcall]
      rfl
    simp only [currentPrincipal] at hparty
    split_ifs at hparty with hscheme
    · obtain ⟨before, after, found, afterFind, rfl, hnew, hbefore, -, hfind, hparty, hafter⟩ :=
        read_of_answered hrun hparty hanswer
      split at hparty
      next id x hsession =>
        split_ifs at hparty with hlive
        · obtain ⟨between, waiting, rest, joined, revised, m, o, rfl, hjoined, hrevised, hrest,
            hunanswered, hm, hactive, hbelongs, ho, rfl⟩ :=
            moments_of_resumeSession hafter hparty hanswer
          exact ⟨c, now, before, between, waiting, rest, found, joined, revised, hcall, rfl, hnew,
            hbefore, .cons hfind hjoined, hrevised, hrest, hunanswered,
            resumed_of_reads hsession hlive hm hactive hbelongs ho⟩
        · cases answer_of_answered hafter (by rw [hparty]; rfl) hanswer
      next => cases answer_of_answered hafter (by rw [hparty]; rfl) hanswer
    · cases answer_of_answered hrun (by rw [hparty]; rfl) hanswer

namespace Sample

/-- The call was answered with a principal. -/
def letIn : Option Handler → Bool
  | some (.answer (.authenticated _)) => true
  | _ => false

/-- The call was answered with a logout. -/
def loggedOut : Option Handler → Bool
  | some (.answer .loggedOut) => true
  | _ => false

end Sample

/-- The paired device is let in. -/
theorem authenticated_live_sample :
    ∃ (p : Principal) (before : List ℕ) (found joined revised : Service ℕ),
      Run (opening Sample.configured Sample.calls Sample.start) before found ∧
        Resumed found.rows joined.rows revised.rows Sample.credentials 4000000 p := by
  obtain ⟨events, hrun⟩ := Sample.served_run [0, 1, 2, 5] (by decide)
  have hlet : Sample.letIn ((Sample.served [0, 1, 2, 5]).parties 5).rest = true := by
    decide +kernel
  unfold Sample.letIn at hlet
  split at hlet
  next p hanswer =>
    obtain ⟨credentials, now, before, -, -, -, found, joined, revised, hcall, -, -, hbefore, -, -,
      -, -, hp⟩ := (authenticated_live Sample.valid_start hrun hanswer).2 p rfl
    obtain ⟨hcredentials, rfl⟩ := Call.authenticate.inj hcall
    obtain rfl := Option.some.inj hcredentials
    exact ⟨p, before, found, joined, revised, hbefore, hp⟩
  next => cases hlet

/-! ### Ended sessions -/

/-- The call presents credentials. -/
def Call.Presents (credentials : Credentials) : Call → Prop
  | authenticate c _ => c = some credentials
  | authLogout c _ _ => c = some credentials
  | push c _ _ => c = some credentials
  | _ => False

/-- A logout with the token, or the revocation of its session, has been answered. -/
def Ended (calls : ι → Call) (s : Service ι) (hash : Str) : Prop :=
  ∃ j, (∃ credentials now later, calls j = .authLogout (some credentials) now later ∧
      tokenHash credentials.credentials = hash ∧
      (s.parties j).rest = some (.answer .loggedOut)) ∨
    ∃ id x revokedAt, (s.parties j).rest = some (.answer (.revoked id revokedAt)) ∧
      s.rows.sessions.get id = some x ∧ x.accessTokenHash = hash

/-- A token that was ended is revoked. -/
lemma revokedToken_of_ended (hvalid : Valid start)
    (hrun : Run (opening configured calls start) events s) {hash : Str}
    (h : Ended calls s hash) : RevokedToken hash s.rows := by
  have hcoherent := coherent_of_run hvalid hrun
  obtain ⟨j, ⟨credentials, now, later, hcall, rfl, hanswer⟩ |
    ⟨id, x, revokedAt, hanswer, hx, rfl⟩⟩ := h
  · obtain ⟨credentials', now', later', hcall', hrevoked⟩ := hcoherent.answered hanswer
    rw [hcall] at hcall'
    obtain ⟨hsame, -⟩ := Call.authLogout.inj hcall'
    obtain rfl := Option.some.inj hsame
    exact hrevoked
  · obtain ⟨x', hx', hrevoked⟩ := hcoherent.answered hanswer
    obtain rfl := Option.some.inj (hx.symm.trans hx')
    exact ⟨id, x, hx, rfl, hrevoked⟩

omit [DecidableEq ι] in
/-- Nobody is authenticated by a token that was revoked before the call began. -/
lemma not_authenticated_of_revoked {t u : Tables} {c : Credentials} {now : ℤ} {p : Principal}
    (hvalid : Valid t) (hrevoked : RevokedToken (tokenHash c.credentials) t) :
    ¬ Authenticated t c now p u := by
  rintro ⟨found, joined, hfound, -, -, x, m, o, hx, htoken, hlive, -⟩
  obtain ⟨id, x', hx', htoken', hstill⟩ := hrevoked.grown (grown_of_later hfound)
  have hunique := (Discipline.later_inv hfound hvalid).tokens
  obtain rfl := hunique _ _ _ _ hx hx' (htoken.trans htoken'.symm)
  obtain rfl := Option.some.inj (hx.symm.trans hx')
  simp [AuthSession.live, Option.isSome_iff_ne_none.mp hstill] at hlive

/-- What is promised of a call whose token was revoked: it commits nothing and is refused. -/
def refusedPromise : Promise where
  commits := fun _ => False
  answers := fun r _ => ∃ detail ∈ authenticationRefusals, r = .http 401 detail

omit [DecidableEq ι] in
/-- A call whose token was revoked is refused, whatever others commit. -/
lemma Call.refused {t : Tables} {c : Credentials} {call : Call} (hcall : call.Presents c)
    (hvalid : Valid t) (hrevoked : RevokedToken (tokenHash c.credentials) t) :
    (call.handler configured).Sound discipline refusedPromise [] t := by
  have hout : ∀ now next,
      (currentPrincipal (some c) now next).Sound discipline refusedPromise [] t := fun now next =>
    currentPrincipal_sound hvalid (fun detail h _ => ⟨detail, h, rfl⟩) fun c' hc p u hp _ => by
      obtain rfl := Option.some.inj hc
      exact absurd hp (not_authenticated_of_revoked hvalid hrevoked)
  cases call with
  | authenticate credentials now =>
    obtain rfl := hcall
    exact hout now _
  | authLogout credentials now later =>
    obtain rfl := hcall
    exact hout now _
  | push credentials now created =>
    obtain rfl := hcall
    exact hout now _
  | _ => cases hcall

/-- **A session that was ended lets nobody in**: once a logout with a token, or the revocation of
its session, has been answered, a call with this token that begins afterwards is refused with one of
the three refusals of authentication and commits nothing, whatever other calls do before and after.

**Proof sketch.** When the logout is answered the session is revoked (`logout_sound`), and it stays
so (`grown_of_does`). The call finds the session by the token, whose hash is unique, and sees that
it is revoked. -/
theorem ended_refused (hvalid : Valid start)
    (hrun : Run (opening configured calls start) events s) {c : Credentials}
    (hended : Ended calls s (tokenHash c.credentials)) {i : ι} (hcall : (calls i).Presents c)
    (hnew : s.parties i = ⟨some ((calls i).handler configured), []⟩)
    (hnone : ∀ e ∈ s.ledger, e.1 ≠ i) (hrest : Run s events' s') :
    (∀ r, (s'.parties i).rest = some (.answer r) →
      ∃ detail ∈ authenticationRefusals, r = .http 401 detail) ∧ ∀ e ∈ s'.ledger, e.1 ≠ i := by
  have hcoherent := coherent_of_run hvalid hrun
  have hrevoked := revokedToken_of_ended hvalid hrun hended
  have hrenewed := (hcoherent.renew hnew hnone
    (Call.refused hcall hcoherent.valid hrevoked)).trace hrest
  constructor
  · intro r hanswer
    have hpromised := hrenewed.answered hanswer
    rwa [Function.update_self] at hpromised
  · rintro e he rfl
    have hpromised := hrenewed.promised e he
    rw [Function.update_self] at hpromised
    exact hpromised

/-- After the logout the device is not let in. -/
theorem ended_refused_sample :
    ∃ events s', Run (Sample.served [0, 1, 2, 4]) events s' ∧
      ∃ detail ∈ authenticationRefusals,
        (s'.parties 5).rest = some (.answer (.http 401 detail)) := by
  obtain ⟨first, hrun⟩ := Sample.served_run [0, 1, 2, 4] (by decide)
  have hquiet : ∀ j, ((Sample.served [0, 1, 2, 4]).parties j).held = [] :=
    Backend.quiet_serve _ _ fun _ => rfl
  -- One evaluation of the run for both facts: it hashes the code and the token.
  obtain ⟨hout, hnone⟩ : Sample.loggedOut ((Sample.served [0, 1, 2, 4]).parties 4).rest = true ∧
      ∀ e ∈ (Sample.served [0, 1, 2, 4]).ledger, e.1 ≠ 5 := by
    decide +kernel
  unfold Sample.loggedOut at hout
  split at hout
  next hanswer =>
    have hnew : (Sample.served [0, 1, 2, 4]).parties 5 =
      ⟨some ((Sample.calls 5).handler Sample.configured), []⟩ := rfl
    obtain ⟨events, hrest⟩ := alone_handled _ _ 5 [] (Backend.free_of_quiet hquiet 5) hnew
    have hrefused := (ended_refused Sample.valid_start hrun
      ⟨4, Or.inl ⟨Sample.credentials, 3000000, 3000001, rfl, rfl, hanswer⟩⟩ (i := 5) rfl hnew
      hnone hrest).1 _ (by simp [Backend.finish]; rfl)
    obtain ⟨detail, hdetail, hanswered⟩ := hrefused
    exact ⟨events, _, hrest, detail, hdetail, by simp [Backend.finish, hanswered]⟩
  next => cases hout

end Runs

/-! ### The authorization revision -/

/-- A bootstrap commits on what it has loaded: the revision of its organization and the authority of
its membership are still those. -/
def Undisturbed : Effect → Tables → Prop
  | .bootstrapped b, db =>
    (db.organizations.get b.request.organizationId).map Organization.authorizationRevision =
        b.organization.map Organization.authorizationRevision ∧
      (db.memberships.get b.request.membershipId).map membershipAuthority =
        b.membership.map membershipAuthority
  | _, _ => True

/-- The authorities of the members of an organization. -/
def authorities (db : Tables) (organizationId id : Str) : Option Authority :=
  ((db.memberships.get id).filter fun m => m.organizationId == organizationId).map
    membershipAuthority

/-- The revision went up, or nobody's authority changed. -/
def Tracked (organizationId : Str) (t t' : Tables) : Prop :=
  ∀ o, t.organizations.get organizationId = some o →
    ∃ o', t'.organizations.get organizationId = some o' ∧
      (o.authorizationRevision < o'.authorizationRevision ∨
        o'.authorizationRevision = o.authorizationRevision ∧
          ∀ id, authorities t' organizationId id = authorities t organizationId id)

/-- Nothing changed. -/
lemma Tracked.of_same {organizationId : Str} {t t' : Tables}
    (h : same (.organization organizationId) t t') : Tracked organizationId t t' := by
  intro o ho
  refine ⟨o, h.1.trans ho, Or.inr ⟨rfl, fun id => ?_⟩⟩
  have hfilter : (t'.memberships.get id).filter (fun m => m.organizationId == organizationId) =
      (t.memberships.get id).filter fun m => m.organizationId == organizationId := by
    ext m
    simp only [Option.filter_eq_some_iff, beq_iff_eq]
    constructor
    · rintro ⟨hm, horganization⟩
      exact ⟨(h.2 id m horganization).mp hm, horganization⟩
    · rintro ⟨hm, horganization⟩
      exact ⟨(h.2 id m horganization).mpr hm, horganization⟩
  rw [authorities, authorities, hfilter]

/-- A revision that went up, or nothing, and then again. -/
lemma Tracked.trans {organizationId : Str} {t t' t'' : Tables} (h : Tracked organizationId t t')
    (h' : Tracked organizationId t' t'') : Tracked organizationId t t'' := by
  intro o ho
  obtain ⟨o', ho', hfirst⟩ := h o ho
  obtain ⟨o'', ho'', hsecond⟩ := h' o' ho'
  refine ⟨o'', ho'', ?_⟩
  rcases hfirst with hlt | ⟨heq, hsame⟩
  · rcases hsecond with hlt' | ⟨heq', -⟩
    · exact Or.inl (hlt.trans hlt')
    · exact Or.inl (heq' ▸ hlt)
  · rcases hsecond with hlt' | ⟨heq', hsame'⟩
    · exact Or.inl (heq ▸ hlt')
    · exact Or.inr ⟨heq'.trans heq, fun id => (hsame' id).trans (hsame id)⟩

/-- Sorting what is sorted. -/
lemma sorted_sorted (texts : List Str) : sorted (sorted texts) = sorted texts :=
  (List.pairwise_insertionSort (· ≤ ·) texts).insertionSort_eq

/-- Sorting capabilities that are sorted. -/
lemma sortedCapabilities_sorted (capabilities : List Capability) :
    sortedCapabilities (sortedCapabilities capabilities) = sortedCapabilities capabilities := by
  have htotal : Std.Total fun a b : Capability => Str.ofString a.name ≤ Str.ofString b.name :=
    ⟨fun a b => Std.Total.total (r := fun s t : Str => s ≤ t) _ _⟩
  have htrans : IsTrans Capability fun a b => Str.ofString a.name ≤ Str.ofString b.name :=
    ⟨fun a b c => IsTrans.trans (r := fun s t : Str => s ≤ t) _ _ _⟩
  exact (List.pairwise_insertionSort _ capabilities).insertionSort_eq

/-- The columns that a bootstrap sets have the authority that was requested. -/
lemma membershipAuthority_membership (r : BootstrapRequest) :
    membershipAuthority r.membership = requestedAuthority r := by
  simp [membershipAuthority, requestedAuthority, BootstrapRequest.membership, sorted_sorted,
    sortedCapabilities_sorted]

/-- A reading of a patched column, when the current value and the new one read the same. -/
lemma read_patched {α β : Type} [DecidableEq α] (read : α → β) {loaded value current : α}
    (h : read value = read current) : read (patched loaded value current) = read current := by
  rw [patched]
  split_ifs
  · rfl
  · exact h

/-- A bootstrap that requests the authority that is there leaves it as it is. -/
lemma membershipAuthority_patchMembership (b : Bootstrap) (loaded current : Membership)
    (h : membershipAuthority current = requestedAuthority b.request) :
    membershipAuthority (b.patchMembership loaded current) = membershipAuthority current := by
  rw [← membershipAuthority_membership, membershipAuthority, membershipAuthority,
    Authority.mk.injEq] at h
  obtain ⟨hactive, hcustomers, hprojects, hcustomerIds, hprojectIds, hroles, hcapabilities⟩ := h
  simp only [membershipAuthority, Bootstrap.patchMembership, Authority.mk.injEq]
  exact ⟨read_patched id hactive.symm, read_patched id hcustomers.symm,
    read_patched id hprojects.symm, read_patched sorted hcustomerIds.symm,
    read_patched sorted hprojectIds.symm, read_patched sortedRoles hroles.symm,
    read_patched sortedCapabilities hcapabilities.symm⟩

/-- A bootstrap that is undisturbed tracks what it changes.

**Proof sketch.** When the authority changes, the revision becomes one more than the one that was
loaded, which is the present one. When it does not, the revision stays, and the columns that are
written read as those that are there. -/
lemma tracked_bootstrapped {b : Bootstrap} {t t' : Tables} (hwrite : b.write t = some t')
    (hundisturbed : Undisturbed (.bootstrapped b) t) :
    Tracked b.request.organizationId t t' := by
  obtain ⟨hrevision, hauthority⟩ := hundisturbed
  obtain ⟨organizations, user, memberships, horganizations, hmemberships, -, -, rfl⟩ :=
    Bootstrap.write_eq_some hwrite
  obtain ⟨row, rfl, ⟨-, hnone, -⟩ | ⟨loaded, current, hloaded, hcurrent, hrow⟩⟩ :=
    Bootstrap.writeOrganization_eq_some horganizations
  · intro o ho
    cases hnone.symm.trans ho
  intro o ho
  obtain rfl := Option.some.inj (hcurrent.symm.trans ho)
  have hsame : current.authorizationRevision = loaded.authorizationRevision := by
    simpa [hcurrent, hloaded] using hrevision
  refine ⟨row, Table.get_set_self _ _ _, ?_⟩
  rw [hrow, hsame]
  by_cases hchanged : b.authorityChanged = true
  · left
    simp [Bootstrap.revision, hchanged, patched]
  · right
    refine ⟨by simp [Bootstrap.revision, hchanged, patched], fun id => ?_⟩
    cases hm : b.membership with
    | none => simp [Bootstrap.authorityChanged, hm] at hchanged
    | some m =>
      have hrequested : membershipAuthority m = requestedAuthority b.request := by
        simpa [Bootstrap.authorityChanged, hm] using hchanged
      obtain ⟨written, rfl, ⟨hnone, -⟩ | ⟨m', present, hm', hpresent, rfl⟩⟩ :=
        Bootstrap.writeMembership_eq_some hmemberships
      · cases hnone.symm.trans hm
      · obtain rfl := Option.some.inj (hm.symm.trans hm')
        have hpresentAuthority : membershipAuthority present = requestedAuthority b.request := by
          rw [← hrequested]
          simpa [hpresent, hm] using hauthority
        by_cases hid : id = b.request.membershipId
        · subst hid
          have hkept := membershipAuthority_patchMembership b m present hpresentAuthority
          rw [authorities, authorities, Table.get_set_self, hpresent]
          by_cases hmine : present.organizationId == b.request.organizationId
          · simp [Option.filter, Bootstrap.patchMembership] at hkept ⊢
            simp [hkept]
          · simp [Option.filter, Bootstrap.patchMembership, hmine]
        · rw [authorities, authorities, Table.get_set_of_ne _ _ hid]

/-- **One commit tracks what it changes**, if it is undisturbed.

**Proof sketch.** A commit that does not touch an organization leaves it and its memberships as they
are. A push adds the number of its grants to the revision that it has locked. -/
theorem tracked_of_does {e : Effect} {t t' : Tables} (h : does e t t')
    (hundisturbed : Undisturbed e t) (organizationId : Str) : Tracked organizationId t t' := by
  by_cases hrow : Row.organization organizationId ∈ e.touched
  · cases e with
    | bootstrapped b =>
      obtain rfl : organizationId = b.request.organizationId := by simpa [Effect.touched] using hrow
      exact tracked_bootstrapped h.1 hundisturbed
    | widened w =>
      obtain rfl : organizationId = w.organizationId := by simpa [Effect.touched] using hrow
      obtain ⟨hwrite, hloaded⟩ := h
      intro o ho
      rw [Widening.write, ho] at hwrite
      split at hwrite
      next o' membership ho' hmembership =>
        obtain rfl := Option.some.inj ho'
        obtain rfl := Option.some.inj hwrite
        refine ⟨_, Table.get_set_self _ _ _, Or.inl ?_⟩
        have hrevision : o.authorizationRevision = w.authorizationRevision := by
          simpa [ho] using hloaded.organization
        have hcounted := hloaded.counted
        simp only [hrevision]
        omega
      next => cases hwrite
    | _ => simp [Effect.touched] at hrow
  · exact Tracked.of_same (same_of_does h hrow)

/-- **The authorization revision tells authorities apart**: in any interleaving of calls whose
bootstraps commit on what they loaded, between any two moments the revision of an organization went
up or no member's authority changed. The pushes, which hold the lock of the organization, need no
such condition.

**Proof sketch.** By induction on the commits after the first moment, with `tracked_of_does`. -/
theorem revision_identifies {ι : Type} [DecidableEq ι] {configured : Option Str} {calls : ι → Call}
    {start : Tables} {events : List ι} {s : Service ι} (hvalid : Valid start)
    (hrun : Run (opening configured calls start) events s) (before after : List (ι × Effect))
    (hsplit : s.ledger = before ++ after)
    (hundisturbed : ∀ past e future t, s.ledger = past ++ e :: future →
      Trace (fun t (e : ι × Effect) t' => does e.2 t t') start past t → Undisturbed e.2 t) :
    ∃ t, Trace (fun t (e : ι × Effect) t' => does e.2 t t') start before t ∧
      ∀ organizationId, Tracked organizationId t s.rows := by
  have hledger := (coherent_of_run hvalid hrun).ledger
  rw [hsplit] at hledger
  obtain ⟨t, hbefore, hafter⟩ := Trace.append_iff.mp hledger
  refine ⟨t, hbefore, fun organizationId => ?_⟩
  refine hafter.history (I := fun _ u => Tracked organizationId t u)
    (.of_same (by simp [same])) ?_
  rintro past e future u u' hparts hpast htracked hdoes
  refine htracked.trans (tracked_of_does hdoes (hundisturbed (before ++ past) e future u ?_ ?_) _)
  · rw [hsplit, hparts, List.append_assoc]
  · exact Trace.append_iff.mpr ⟨t, hbefore, hpast⟩

namespace Sample

/-- The member of the sample request, restricted to projects of its own. -/
def restricted : BootstrapRequest := { request with allProjects := false }

/-- The organization is set up, and then its member is restricted. -/
def bootstraps : ℕ → Call
  | 0 => .adminBootstrap (some "key") request 0 "s0" "t0"
  | _ => .adminBootstrap (some "key") restricted 1000000 "s1" "t1"

/-- The service after both. -/
def rebuilt : Service ℕ :=
  Backend.serve (fun i => (bootstraps i).handler configured) [0, 1]
    (opening configured bootstraps start)

/-- Two bootstraps were committed, the first of an organization that was not there, the second on
what the first has written, and the second has changed what its member may do. -/
def twoBootstraps (s : Service ℕ) : Bool :=
  match s.ledger with
  | [(_, .bootstrapped b), (_, .bootstrapped b')] =>
    b.organization.isNone && b.membership.isNone && (b.write start).any fun t =>
      (t.organizations.get "o").isSome &&
        decide ((t.organizations.get b'.request.organizationId).map
            Organization.authorizationRevision =
          b'.organization.map Organization.authorizationRevision) &&
        decide ((t.memberships.get b'.request.membershipId).map membershipAuthority =
          b'.membership.map membershipAuthority) &&
        decide (authorities s.rows "o" "m" ≠ authorities t "o" "m")
  | _ => false

end Sample

/-- The second bootstrap takes a scope away from the member of an organization that is there, and
its revision goes up. -/
theorem revision_identifies_sample :
    ∃ (before after : List (ℕ × Effect)) (t : Tables), Sample.rebuilt.ledger = before ++ after ∧
      Trace (fun t (e : ℕ × Effect) t' => does e.2 t t') Sample.start before t ∧
      (t.organizations.get "o").isSome ∧
      authorities Sample.rebuilt.rows "o" "m" ≠ authorities t "o" "m" ∧
      ∀ organizationId, Tracked organizationId t Sample.rebuilt.rows := by
  obtain ⟨events, hrun⟩ := serve_trace (fun i => (Sample.bootstraps i).handler Sample.configured)
    (by decide : [0, 1].Nodup)
    (s := opening Sample.configured Sample.bootstraps Sample.start) (fun _ => rfl) fun _ _ => rfl
  have hbootstraps : Sample.twoBootstraps Sample.rebuilt = true := by decide +kernel
  unfold Sample.twoBootstraps at hbootstraps
  split at hbootstraps
  next i b j b' hledger =>
    simp only [Bool.and_eq_true, Option.isNone_iff_eq_none, Option.any_eq_true,
      decide_eq_true_eq] at hbootstraps
    obtain ⟨⟨hnone, hnone'⟩, t, hwrite, ⟨⟨hthere, hrevision⟩, hauthority⟩, hchanged⟩ := hbootstraps
    have hundisturbed : ∀ past e future u, Sample.rebuilt.ledger = past ++ e :: future →
        Trace (fun t (e : ℕ × Effect) t' => does e.2 t t') Sample.start past u →
          Undisturbed e.2 u := by
      intro past e future u hsplit hpast
      rw [hledger] at hsplit
      cases hpast with
      | nil =>
        obtain rfl := (List.cons.inj hsplit).1
        exact ⟨by rw [hnone]; rfl, by rw [hnone']; rfl⟩
      | cons hfirst hrest =>
        obtain ⟨rfl, htail⟩ := List.cons.inj hsplit
        cases hrest with
        | nil =>
          obtain rfl := (List.cons.inj htail).1
          obtain rfl := Option.some.inj (hwrite.symm.trans hfirst.1)
          exact ⟨hrevision, hauthority⟩
        | cons => simp at htail
    obtain ⟨u, hbefore, htracked⟩ := revision_identifies Sample.valid_start hrun
      [(i, .bootstrapped b)] [(j, .bootstrapped b')] hledger hundisturbed
    refine ⟨_, _, u, hledger, hbefore, ?_, ?_, htracked⟩
    all_goals
      cases hbefore with
      | cons hfirst hrest =>
        cases hrest
        obtain rfl := Option.some.inj (hwrite.symm.trans hfirst.1)
        assumption
  next => cases hbootstraps

end VitrialSync.Identity
