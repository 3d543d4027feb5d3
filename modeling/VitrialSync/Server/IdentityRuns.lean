import VitrialSync.Server.Identity

set_option relaxedAutoImplicit false
set_option autoImplicit false

/-!
# Runs of the identity service

What the commits of `VitrialSync.Server.Identity` do, as effects, and what they keep: the tables
stay valid, nothing is lost, and neither a revocation nor the use of a pairing code is taken back.
Every call is sound, whatever other calls commit between its queries, so the commits of any number
of calls in any interleaving are a run of these effects.

## Main definitions

* `VitrialSync.Identity.Valid` — sessions and grants are those of a membership.
* `VitrialSync.Identity.does` — what an effect does.
* `VitrialSync.Identity.Grown` — what no commit takes back.
* `VitrialSync.Identity.discipline` — effects and locks.

## Main results

* `VitrialSync.Identity.grown_of_does`, `VitrialSync.Identity.valid_of_does` — one commit.
-/

namespace VitrialSync.Identity

open Python Program

/-! ### Lookups -/

section Lookups

variable {db : Tables}

/-- The first row that satisfies a condition is a row of the table. -/
lemma get_of_find {κ ν : Type} [BEq κ] [LawfulBEq κ] {t : Table κ ν} {p : κ × ν → Bool} {r : κ × ν}
    (h : t.rows.find? p = some r) : t.get r.1 = some r.2 ∧ p r = true :=
  ⟨(t.mem_rows_iff r.1 r.2).mp (List.mem_of_find?_eq_some h), List.find?_some h⟩

/-- A session that is found by a token hash. -/
lemma sessionOf_eq_some {hash id : Str} {session : AuthSession}
    (h : db.sessionOf hash = some (id, session)) :
    db.sessions.get id = some session ∧ session.accessTokenHash = hash := by
  obtain ⟨hget, hhash⟩ := get_of_find h
  exact ⟨hget, beq_iff_eq.mp hhash⟩

/-- No session has the token hash. -/
lemma sessionOf_eq_none {hash : Str} (h : db.sessionOf hash = none) {id : Str}
    {session : AuthSession} (hget : db.sessions.get id = some session) :
    session.accessTokenHash ≠ hash := by
  have hrow := List.find?_eq_none.mp h (id, session) ((db.sessions.mem_rows_iff _ _).mpr hget)
  simpa using hrow

/-- A grant that is found by a code hash. -/
lemma grantOf_eq_some {hash id : Str} {grant : PairingGrant}
    (h : db.grantOf hash = some (id, grant)) :
    db.grants.get id = some grant ∧ grant.codeHash = hash := by
  obtain ⟨hget, hhash⟩ := get_of_find h
  exact ⟨hget, beq_iff_eq.mp hhash⟩

/-- No grant has the code hash. -/
lemma grantOf_eq_none {hash : Str} (h : db.grantOf hash = none) {id : Str} {grant : PairingGrant}
    (hget : db.grants.get id = some grant) : grant.codeHash ≠ hash := by
  have hrow := List.find?_eq_none.mp h (id, grant) ((db.grants.mem_rows_iff _ _).mpr hget)
  simpa using hrow

/-- The membership of a user in an organization. -/
lemma membershipFor_eq_some {organizationId userId id : Str} {m : Membership}
    (h : db.membershipFor organizationId userId = some (id, m)) :
    db.memberships.get id = some m ∧ m.organizationId = organizationId ∧ m.userId = userId := by
  obtain ⟨hget, hkeys⟩ := get_of_find h
  simp only [Bool.and_eq_true, beq_iff_eq] at hkeys
  exact ⟨hget, hkeys⟩

end Lookups

/-! ### Writes -/

section Writes

variable {s s' : Tables}

/-- A session that was inserted. -/
lemma insertSession_eq_some {id : Str} {session : AuthSession}
    (h : s.insertSession id session = some s') :
    s.sessions.get id = none ∧ s.sessionOf session.accessTokenHash = none ∧
      s' = { s with sessions := s.sessions.set id session } := by
  rw [Tables.insertSession] at h
  split_ifs at h with hbroken
  simp only [Bool.or_eq_true, not_or, Bool.not_eq_true, Option.isSome_eq_false_iff,
    Option.isNone_iff_eq_none] at hbroken
  exact ⟨hbroken.1.1.1.1, hbroken.1.1.1.2, (Option.some.inj h).symm⟩

/-- A grant that was inserted. -/
lemma insertGrant_eq_some {id : Str} {grant : PairingGrant}
    (h : s.insertGrant id grant = some s') :
    s.grants.get id = none ∧ s.grantOf grant.codeHash = none ∧
      s' = { s with grants := s.grants.set id grant } := by
  rw [Tables.insertGrant] at h
  split_ifs at h with hbroken
  simp only [Bool.or_eq_true, not_or, Bool.not_eq_true, Option.isSome_eq_false_iff,
    Option.isNone_iff_eq_none] at hbroken
  exact ⟨hbroken.1.1.1.1, hbroken.1.1.1.2, (Option.some.inj h).symm⟩

/-- A session that was revoked. -/
lemma revoke_eq_some {id : Str} {revokedAt : ℤ} (h : s.revoke id revokedAt = some s') :
    ∃ session, s.sessions.get id = some session ∧
      s' = { s with
        sessions := s.sessions.set id { session with revokedAt := some revokedAt } } := by
  obtain ⟨session, hget, rfl⟩ := Option.map_eq_some_iff.mp h
  exact ⟨session, hget, rfl⟩

/-- A grant that was consumed by a new session. -/
lemma mint_eq_some {grantId id : Str} {consumedAt : ℤ} {session : AuthSession}
    {grant : PairingGrant} (hgrant : s.grants.get grantId = some grant)
    (h : (s.insertSession id session).bind (Tables.consume grantId consumedAt) = some s') :
    s.sessions.get id = none ∧ s.sessionOf session.accessTokenHash = none ∧
      s' = { s with
        sessions := s.sessions.set id session
        grants := s.grants.set grantId { grant with consumedAt := some consumedAt } } := by
  obtain ⟨t, hinsert, hconsume⟩ := Option.bind_eq_some_iff.mp h
  obtain ⟨hnew, htoken, rfl⟩ := insertSession_eq_some hinsert
  obtain ⟨grant', hget, rfl⟩ := Option.map_eq_some_iff.mp hconsume
  obtain rfl : grant = grant' := Option.some.inj (hgrant.symm.trans hget)
  exact ⟨hnew, htoken, rfl⟩

end Writes

/-! ### What a bootstrap writes -/

namespace Bootstrap

variable {b : Bootstrap}

/-- The key columns of the rows that a bootstrap loaded and makes, and what became of the membership
that it loaded. -/
structure Loaded (b : Bootstrap) (s : Tables) : Prop where
  session_organization : b.session.organizationId = b.request.organizationId
  session_membership : b.session.membershipId = b.request.membershipId
  session_user : b.session.userId = b.request.userId
  fresh : b.session.revokedAt = none
  membership : ∀ m, b.membership = some m → ∃ current,
    s.memberships.get b.request.membershipId = some current ∧
      current.organizationId = b.request.organizationId ∧ current.userId = b.request.userId

/-- The row of the organization is written. -/
lemma writeOrganization_eq_some {organizations organizations' : Table Str Organization}
    (h : b.writeOrganization organizations = some organizations') :
    ∃ row, organizations' = organizations.set b.request.organizationId row ∧
      ((b.organization = none ∧ organizations.get b.request.organizationId = none ∧
          row.authorizationRevision = b.revision 0) ∨
        ∃ loaded current, b.organization = some loaded ∧
          organizations.get b.request.organizationId = some current ∧
          row.authorizationRevision = patched loaded.authorizationRevision
            (b.revision loaded.authorizationRevision) current.authorizationRevision) := by
  rw [writeOrganization] at h
  split at h
  next hloaded hcurrent => exact ⟨_, (Option.some.inj h).symm, .inl ⟨hloaded, hcurrent, rfl⟩⟩
  next loaded current hloaded hcurrent =>
    exact ⟨_, (Option.some.inj h).symm, .inr ⟨loaded, current, hloaded, hcurrent, rfl⟩⟩
  next => cases h

/-- The row of the membership is written. -/
lemma writeMembership_eq_some {memberships memberships' : Table Str Membership}
    (h : b.writeMembership memberships = some memberships') :
    ∃ row, memberships' = memberships.set b.request.membershipId row ∧
      ((b.membership = none ∧ memberships.get b.request.membershipId = none ∧
          b.pairTaken memberships = false ∧ row = b.request.membership) ∨
        ∃ loaded current, b.membership = some loaded ∧
          memberships.get b.request.membershipId = some current ∧
          row = b.patchMembership loaded current) := by
  rw [writeMembership] at h
  split at h
  next hloaded hcurrent =>
    split_ifs at h with htaken
    exact ⟨_, (Option.some.inj h).symm, .inl ⟨hloaded, hcurrent, by simpa using htaken, rfl⟩⟩
  next loaded current hloaded hcurrent =>
    exact ⟨_, (Option.some.inj h).symm, .inr ⟨loaded, current, hloaded, hcurrent, rfl⟩⟩
  next => cases h

/-- The row of the user is written. -/
lemma writeUser_eq_some {users users' : Table Str User} (h : b.writeUser users = some users') :
    ∃ row, users' = users.set b.request.userId row := by
  rw [writeUser] at h
  split_ifs at h
  split at h
  · exact ⟨_, (Option.some.inj h).symm⟩
  · exact ⟨_, (Option.some.inj h).symm⟩
  · cases h

/-- **What a bootstrap writes**: a row of the organization, of the user and of the membership, and a
new session. -/
theorem write_eq_some {s s' : Tables} (h : b.write s = some s') :
    ∃ organizations user memberships, b.writeOrganization s.organizations = some organizations ∧
      b.writeMembership s.memberships = some memberships ∧ s.sessions.get b.sessionId = none ∧
      s.sessionOf b.session.accessTokenHash = none ∧
      s' = { s with
        organizations := organizations
        users := s.users.set b.request.userId user
        memberships := memberships
        sessions := s.sessions.set b.sessionId b.session } := by
  simp only [write, Option.bind_eq_bind, Option.bind_eq_some_iff] at h
  obtain ⟨organizations, horganizations, users, husers, memberships, hmemberships, hinsert⟩ := h
  obtain ⟨user, rfl⟩ := writeUser_eq_some husers
  obtain ⟨hnew, htoken, rfl⟩ := insertSession_eq_some hinsert
  exact ⟨organizations, user, memberships, horganizations, hmemberships, hnew, htoken, rfl⟩

/-- The membership that a bootstrap writes joins its user and its organization. -/
lemma writeMembership_keys {s : Tables} (hloaded : b.Loaded s) {memberships : Table Str Membership}
    (h : b.writeMembership s.memberships = some memberships) :
    ∃ row, memberships = s.memberships.set b.request.membershipId row ∧
      row.organizationId = b.request.organizationId ∧ row.userId = b.request.userId := by
  obtain ⟨row, rfl, ⟨-, -, -, rfl⟩ | ⟨loaded, current, hm, hcurrent, rfl⟩⟩ :=
    writeMembership_eq_some h
  · exact ⟨_, rfl, rfl, rfl⟩
  · obtain ⟨current', hcurrent', hkeys⟩ := hloaded.membership loaded hm
    obtain rfl : current = current' := Option.some.inj (hcurrent.symm.trans hcurrent')
    exact ⟨_, rfl, hkeys⟩

end Bootstrap

/-! ### Effects -/

/-- What a push that widened a scope has loaded under the lock of the organization. -/
structure Widening.Loaded (w : Widening) (s : Tables) : Prop where
  organization : (s.organizations.get w.organizationId).map Organization.authorizationRevision =
    some w.authorizationRevision
  membership : s.memberships.get w.membershipId = some w.loaded
  member : w.loaded.organizationId = w.organizationId
  counted : 0 < w.grants

/-- What an effect does. -/
def does : Effect → Tables → Tables → Prop
  | .issued id grant, s, s' => s.insertGrant id grant = some s' ∧ grant.consumedAt = none ∧
      ∃ m, s.memberships.get grant.membershipId = some m ∧
        m.organizationId = grant.organizationId ∧ m.userId = grant.userId
  | .minted grantId codeHash consumedAt id session, s, s' => ∃ grant,
      s.grants.get grantId = some grant ∧ grant.codeHash = codeHash ∧
        grant.open consumedAt = true ∧ (∃ token, session = grant.session consumedAt token) ∧
        (s.insertSession id session).bind (Tables.consume grantId consumedAt) = some s'
  | .revoked id revokedAt, s, s' => s.revoke id revokedAt = some s'
  | .bootstrapped b, s, s' => b.write s = some s' ∧ b.Loaded s
  | .widened w, s, s' => w.write s = some s' ∧ w.Loaded s

/-- **What no commit takes back**: no row is lost, the key columns stay, a session stays revoked and
a grant stays consumed. -/
structure Grown (s s' : Tables) : Prop where
  organizations : s.organizations.Keeps (fun _ => ()) s'.organizations
  memberships : s.memberships.Keeps (fun m => (m.organizationId, m.userId)) s'.memberships
  sessions : s.sessions.Keeps (fun x => { x with revokedAt := none }) s'.sessions
  grants : s.grants.Keeps (fun g => { g with consumedAt := none }) s'.grants
  revoked : ∀ id x x', s.sessions.get id = some x → x.revokedAt.isSome = true →
    s'.sessions.get id = some x' → x'.revokedAt.isSome = true
  consumed : ∀ id g g', s.grants.get id = some g → g.consumedAt.isSome = true →
    s'.grants.get id = some g' → g'.consumedAt.isSome = true

namespace Grown

/-- Nothing is taken back when nothing happens. -/
lemma refl (s : Tables) : Grown s s where
  organizations := .refl _
  memberships := .refl _
  sessions := .refl _
  grants := .refl _
  revoked := fun _ _ _ hx hrevoked hx' => Option.some.inj (hx.symm.trans hx') ▸ hrevoked
  consumed := fun _ _ _ hg hconsumed hg' => Option.some.inj (hg.symm.trans hg') ▸ hconsumed

/-- Nothing is taken back by one commit after another. -/
lemma trans {s s' s'' : Tables} (h : Grown s s') (h' : Grown s' s'') : Grown s s'' where
  organizations := h.organizations.trans h'.organizations
  memberships := h.memberships.trans h'.memberships
  sessions := h.sessions.trans h'.sessions
  grants := h.grants.trans h'.grants
  revoked := by
    intro id x x'' hx hrevoked hx''
    obtain ⟨x', hx', -⟩ := h.sessions id x hx
    exact h'.revoked id x' x'' hx' (h.revoked id x x' hx hrevoked hx') hx''
  consumed := by
    intro id g g'' hg hconsumed hg''
    obtain ⟨g', hg', -⟩ := h.grants id g hg
    exact h'.consumed id g' g'' hg' (h.consumed id g g' hg hconsumed hg') hg''

/-- A membership keeps its key columns. -/
lemma membership {s s' : Tables} (h : Grown s s') {id : Str} {m : Membership}
    (hm : s.memberships.get id = some m) : ∃ m', s'.memberships.get id = some m' ∧
      m'.organizationId = m.organizationId ∧ m'.userId = m.userId := by
  obtain ⟨m', hm', hkeys⟩ := h.memberships id m hm
  exact ⟨m', hm', Prod.mk.inj hkeys⟩

end Grown

/-- A new session revokes none. -/
lemma revoked_set_new {t : Table Str AuthSession} {id : Str} {session : AuthSession}
    (hnew : t.get id = none) : ∀ k x x', t.get k = some x → x.revokedAt.isSome = true →
      (t.set id session).get k = some x' → x'.revokedAt.isSome = true := by
  intro k x x' hx hrevoked hx'
  have hne : k ≠ id := by
    rintro rfl
    cases hnew.symm.trans hx
  rw [t.get_set_of_ne _ hne, hx] at hx'
  exact Option.some.inj hx' ▸ hrevoked

/-- **No commit takes anything back.**

**Proof sketch.** By cases on the effect: rows are inserted under new keys, and an update leaves the
key columns as they are. -/
theorem grown_of_does {e : Effect} {s s' : Tables} (h : does e s s') : Grown s s' := by
  cases e with
  | issued id grant =>
    obtain ⟨hinsert, -, -⟩ := h
    obtain ⟨hnew, -, rfl⟩ := insertGrant_eq_some hinsert
    refine { Grown.refl s with grants := Table.keeps_set_new _ hnew, consumed := ?_ }
    intro k g g' hg hconsumed hg'
    have hne : k ≠ id := by
      rintro rfl
      cases hnew.symm.trans hg
    rw [Table.get_set_of_ne _ _ hne, hg] at hg'
    exact Option.some.inj hg' ▸ hconsumed
  | minted grantId codeHash consumedAt id session =>
    obtain ⟨grant, hgrant, -, -, -, hwrite⟩ := h
    obtain ⟨hnew, -, rfl⟩ := mint_eq_some hgrant hwrite
    refine { Grown.refl s with
      sessions := Table.keeps_set_new _ hnew
      grants := Table.keeps_set_old hgrant rfl
      revoked := revoked_set_new hnew
      consumed := ?_ }
    intro k g g' hg hconsumed hg'
    rcases Table.get_set_eq_some hg' with ⟨rfl, rfl⟩ | ⟨-, hold⟩
    · rfl
    · exact Option.some.inj (hg.symm.trans hold) ▸ hconsumed
  | revoked id revokedAt =>
    obtain ⟨session, hsession, rfl⟩ := revoke_eq_some h
    refine { Grown.refl s with sessions := Table.keeps_set_old hsession rfl, revoked := ?_ }
    intro k x x' hx hrevoked hx'
    rcases Table.get_set_eq_some hx' with ⟨rfl, rfl⟩ | ⟨-, hold⟩
    · rfl
    · exact Option.some.inj (hx.symm.trans hold) ▸ hrevoked
  | bootstrapped b =>
    obtain ⟨hwrite, hloaded⟩ := h
    obtain ⟨organizations, user, memberships, horganizations, hmemberships, hnew, -, rfl⟩ :=
      Bootstrap.write_eq_some hwrite
    obtain ⟨row, rfl, -⟩ := Bootstrap.writeOrganization_eq_some horganizations
    refine { Grown.refl s with
      organizations := ?_
      memberships := ?_
      sessions := Table.keeps_set_new _ hnew
      revoked := revoked_set_new hnew }
    · intro k o ho
      exact Table.exists_get_set ⟨o, ho, rfl⟩ fun _ => rfl
    · obtain ⟨m, rfl, hkeys⟩ := Bootstrap.writeMembership_keys hloaded hmemberships
      obtain ⟨m', hm', ⟨-, hnone, -, -⟩ | ⟨loaded, current, hm, hcurrent, -⟩⟩ :=
        Bootstrap.writeMembership_eq_some hmemberships
      · exact Table.keeps_set_new _ hnone
      · obtain ⟨current', hcurrent', hkeys'⟩ := hloaded.membership loaded hm
        obtain rfl : current = current' := Option.some.inj (hcurrent.symm.trans hcurrent')
        exact Table.keeps_set_old hcurrent
          (Prod.ext (hkeys.1.trans hkeys'.1.symm) (hkeys.2.trans hkeys'.2.symm))
  | widened w =>
    obtain ⟨hwrite, -⟩ := h
    rw [Widening.write] at hwrite
    split at hwrite
    next organization membership horganization hmembership =>
      obtain rfl := Option.some.inj hwrite
      exact { Grown.refl s with
        organizations := fun k o ho => Table.exists_get_set ⟨o, ho, rfl⟩ fun _ => rfl
        memberships := Table.keeps_set_old hmembership rfl }
    next => cases hwrite

/-! ### Valid tables -/

/-- A membership with these key columns. -/
def Joined (db : Tables) (membershipId organizationId userId : Str) : Prop :=
  ∃ m, db.memberships.get membershipId = some m ∧ m.organizationId = organizationId ∧
    m.userId = userId

/-- **Valid tables**: every membership has its organization, every session and every grant is that
of a membership of its user in its organization, and no two sessions, or grants, have one hash. -/
structure Valid (db : Tables) : Prop where
  members : ∀ id m, db.memberships.get id = some m →
    ∃ o, db.organizations.get m.organizationId = some o
  sessions : ∀ id x, db.sessions.get id = some x →
    Joined db x.membershipId x.organizationId x.userId
  grants : ∀ id g, db.grants.get id = some g → Joined db g.membershipId g.organizationId g.userId
  tokens : ∀ id x id' x', db.sessions.get id = some x → db.sessions.get id' = some x' →
    x.accessTokenHash = x'.accessTokenHash → id = id'
  codes : ∀ id g id' g', db.grants.get id = some g → db.grants.get id' = some g' →
    g.codeHash = g'.codeHash → id = id'

/-- A membership keeps its key columns. -/
lemma Joined.grown {s s' : Tables} {membershipId organizationId userId : Str}
    (h : Joined s membershipId organizationId userId) (hgrown : Grown s s') :
    Joined s' membershipId organizationId userId := by
  obtain ⟨m, hm, rfl, rfl⟩ := h
  obtain ⟨m', hm', hkeys⟩ := hgrown.membership hm
  exact ⟨m', hm', hkeys⟩

/-- An organization stays. -/
lemma Grown.organization {s s' : Tables} (h : Grown s s') {id : Str} {o : Organization}
    (ho : s.organizations.get id = some o) : ∃ o', s'.organizations.get id = some o' := by
  obtain ⟨o', ho', -⟩ := h.organizations id o ho
  exact ⟨o', ho'⟩

/-- A column whose values are unique stays so when a row with a new value is added. -/
lemma unique_set_new {α ν : Type} {t : Table Str ν} {column : ν → α}
    (h : ∀ id x id' x', t.get id = some x → t.get id' = some x' → column x = column x' → id = id')
    {id : Str} {v : ν} (hnew : ∀ k x, t.get k = some x → column x ≠ column v) :
    ∀ i x j y, (t.set id v).get i = some x → (t.set id v).get j = some y → column x = column y →
      i = j := by
  intro i x j y hx hy heq
  rcases Table.get_set_eq_some hx with ⟨rfl, rfl⟩ | ⟨-, hxold⟩
  · rcases Table.get_set_eq_some hy with ⟨rfl, rfl⟩ | ⟨-, hyold⟩
    · rfl
    · exact absurd heq.symm (hnew j y hyold)
  · rcases Table.get_set_eq_some hy with ⟨rfl, rfl⟩ | ⟨-, hyold⟩
    · exact absurd heq (hnew i x hxold)
    · exact h i x j y hxold hyold heq

/-- A column whose values are unique stays so when a row keeps its value. -/
lemma unique_set_old {α ν : Type} {t : Table Str ν} {column : ν → α}
    (h : ∀ id x id' x', t.get id = some x → t.get id' = some x' → column x = column x' → id = id')
    {id : Str} {old v : ν} (hold : t.get id = some old) (hv : column v = column old) :
    ∀ i x j y, (t.set id v).get i = some x → (t.set id v).get j = some y → column x = column y →
      i = j := by
  have hback : ∀ k z, (t.set id v).get k = some z →
      ∃ z', t.get k = some z' ∧ column z' = column z := by
    intro k z hz
    rcases Table.get_set_eq_some hz with ⟨rfl, rfl⟩ | ⟨-, hz⟩
    · exact ⟨old, hold, hv.symm⟩
    · exact ⟨z, hz, rfl⟩
  intro i x j y hx hy heq
  obtain ⟨x', hx', hxx⟩ := hback i x hx
  obtain ⟨y', hy', hyy⟩ := hback j y hy
  exact h i x' j y' hx' hy' (hxx.trans (heq.trans hyy.symm))

section Keep

variable {s s' : Tables}

/-- Valid tables stay valid when only sessions are added that belong to a membership. -/
lemma Valid.addSession (h : Valid s) {id : Str} {session : AuthSession}
    (htoken : s.sessionOf session.accessTokenHash = none)
    (hjoined : Joined s session.membershipId session.organizationId session.userId) :
    Valid { s with sessions := s.sessions.set id session } where
  members := h.members
  sessions := by
    intro k x hx
    rcases Table.get_set_eq_some hx with ⟨rfl, rfl⟩ | ⟨-, hold⟩
    · exact hjoined
    · exact h.sessions k x hold
  grants := h.grants
  tokens := unique_set_new h.tokens fun _ _ hx => sessionOf_eq_none htoken hx
  codes := h.codes

/-- Valid tables stay valid when a grant is rewritten without its key columns. -/
lemma Valid.rewriteGrant (h : Valid s) {id : Str} {grant : PairingGrant}
    (hgrant : s.grants.get id = some grant) (consumedAt : ℤ) :
    Valid { s with grants := s.grants.set id { grant with consumedAt := some consumedAt } } where
  members := h.members
  sessions := h.sessions
  grants := by
    intro k g hg
    rcases Table.get_set_eq_some hg with ⟨rfl, rfl⟩ | ⟨-, hold⟩
    · exact h.grants k grant hgrant
    · exact h.grants k g hold
  tokens := h.tokens
  codes := unique_set_old h.codes hgrant rfl

/-- Valid tables stay valid when rows of organizations, users and memberships are written, if every
membership still has its organization and no membership changes its key columns. -/
lemma Valid.rewriteMembers (h : Valid s) (users : Table Str User)
    {organizations : Table Str Organization} {memberships : Table Str Membership}
    (hmembers : ∀ id m, memberships.get id = some m →
      ∃ o, organizations.get m.organizationId = some o)
    (hkeeps : s.memberships.Keeps (fun m => (m.organizationId, m.userId)) memberships) :
    Valid { s with
      organizations := organizations, users := users, memberships := memberships } := by
  have hjoined : ∀ membershipId organizationId userId,
      Joined s membershipId organizationId userId → Joined { s with
        organizations := organizations, users := users, memberships := memberships }
        membershipId organizationId userId := by
    rintro membershipId organizationId userId ⟨m, hm, rfl, rfl⟩
    obtain ⟨m', hm', hkeys⟩ := hkeeps membershipId m hm
    exact ⟨m', hm', Prod.mk.inj hkeys⟩
  exact {
    members := hmembers
    sessions := fun id x hx => hjoined _ _ _ (h.sessions id x hx)
    grants := fun id g hg => hjoined _ _ _ (h.grants id g hg)
    tokens := h.tokens
    codes := h.codes }

end Keep

/-- **Every commit keeps the tables valid.**

**Proof sketch.** By cases on the effect. A new session or grant belongs to a membership, which was
seen before and has kept its key columns; a unique column refuses a hash that is there. -/
theorem valid_of_does {e : Effect} {s s' : Tables} (h : Valid s) (hdoes : does e s s') :
    Valid s' := by
  have hgrown := grown_of_does hdoes
  cases e with
  | issued id grant =>
    obtain ⟨hinsert, -, hjoined⟩ := hdoes
    obtain ⟨-, hcode, rfl⟩ := insertGrant_eq_some hinsert
    exact { h with
      grants := by
        intro k g hg
        rcases Table.get_set_eq_some hg with ⟨rfl, rfl⟩ | ⟨-, hold⟩
        · exact hjoined
        · exact h.grants k g hold
      codes := unique_set_new h.codes fun _ _ hg => grantOf_eq_none hcode hg }
  | minted grantId codeHash consumedAt id session =>
    obtain ⟨grant, hgrant, -, -, ⟨token, rfl⟩, hwrite⟩ := hdoes
    obtain ⟨-, htoken, rfl⟩ := mint_eq_some hgrant hwrite
    exact (h.addSession htoken (h.grants grantId grant hgrant)).rewriteGrant hgrant consumedAt
  | revoked id revokedAt =>
    obtain ⟨session, hsession, rfl⟩ := revoke_eq_some hdoes
    exact { h with
      sessions := by
        intro k x hx
        rcases Table.get_set_eq_some hx with ⟨rfl, rfl⟩ | ⟨-, hold⟩
        · exact h.sessions k session hsession
        · exact h.sessions k x hold
      tokens := unique_set_old h.tokens hsession rfl }
  | bootstrapped b =>
    obtain ⟨hwrite, hloaded⟩ := hdoes
    obtain ⟨organizations, user, memberships, horganizations, hmemberships, -, htoken, rfl⟩ :=
      Bootstrap.write_eq_some hwrite
    obtain ⟨row, rfl, -⟩ := Bootstrap.writeOrganization_eq_some horganizations
    obtain ⟨m, rfl, hkeys⟩ := Bootstrap.writeMembership_keys hloaded hmemberships
    refine Valid.addSession (s := { s with
        organizations := _, users := _, memberships := _ })
      (h.rewriteMembers _ ?_ hgrown.memberships) htoken ?_
    · intro k x hx
      rcases Table.get_set_eq_some hx with ⟨rfl, rfl⟩ | ⟨-, hold⟩
      · rw [hkeys.1]
        exact ⟨row, Table.get_set_self _ _ _⟩
      · obtain ⟨o, ho⟩ := h.members k x hold
        obtain ⟨o', ho', -⟩ := Table.exists_get_set (P := fun _ => True) ⟨o, ho, trivial⟩
          (k := b.request.organizationId) (v := row) fun _ => trivial
        exact ⟨o', ho'⟩
    · rw [hloaded.session_membership, hloaded.session_organization, hloaded.session_user]
      exact ⟨m, Table.get_set_self _ _ _, hkeys⟩
  | widened w =>
    obtain ⟨hwrite, -⟩ := hdoes
    rw [Widening.write] at hwrite
    split at hwrite
    next organization membership horganization hmembership =>
      obtain rfl := Option.some.inj hwrite
      refine h.rewriteMembers s.users (fun k x hx => ?_) hgrown.memberships
      have hold : ∃ m, s.memberships.get k = some m ∧ m.organizationId = x.organizationId := by
        rcases Table.get_set_eq_some hx with ⟨rfl, rfl⟩ | ⟨-, hold⟩
        · exact ⟨membership, hmembership, rfl⟩
        · exact ⟨x, hold, rfl⟩
      obtain ⟨m, hm, horganizationId⟩ := hold
      obtain ⟨o, ho⟩ := h.members k m hm
      rw [← horganizationId]
      exact hgrown.organization ho
    next => cases hwrite

/-! ### Locks -/

/-- A row is the same. An organization stands for its memberships too, as every commit that writes
one of them writes, or refers to, the organization. -/
def same : Row → Tables → Tables → Prop
  | .organization id, s, s' => s'.organizations.get id = s.organizations.get id ∧
      ∀ k m, m.organizationId = id →
        (s'.memberships.get k = some m ↔ s.memberships.get k = some m)
  | .grant id, s, s' => s'.grants.get id = s.grants.get id

/-- The effects of the identity service, and its locks. -/
def discipline : Discipline Tables Row Effect where
  does := does
  same := same
  Inv := Valid
  keeps := fun _ _ _ h hdoes => valid_of_does h hdoes

/-- Nothing is taken back later. -/
lemma grown_of_later {held : List Row} {s s' : Tables} (h : discipline.Later held s s') :
    Grown s s' := by
  induction h with
  | refl => exact .refl s
  | tail _ hapart ih =>
    obtain ⟨⟨e, hdoes⟩, -⟩ := hapart
    exact ih.trans (grown_of_does hdoes)

/-- A locked row is the same later. -/
lemma same_of_later {held : List Row} {row : Row} (hrow : row ∈ held) {s s' : Tables}
    (h : discipline.Later held s s') : same row s s' := by
  induction h with
  | refl => cases row <;> simp [same]
  | tail _ hapart ih =>
    have hsame := hapart.2 row hrow
    cases row with
    | organization id =>
      exact ⟨hsame.1.trans ih.1, fun k m hm => (hsame.2 k m hm).trans (ih.2 k m hm)⟩
    | grant id => exact hsame.trans ih

/-- The rows that a commit touches. -/
def Effect.touched : Effect → List Row
  | .issued id _ => [.grant id]
  | .minted grantId _ _ _ _ => [.grant grantId]
  | .revoked _ _ => []
  | .bootstrapped b => [.organization b.request.organizationId]
  | .widened w => [.organization w.organizationId]

/-- A membership that is not of the organization is as it was after a membership of the organization
was written. -/
lemma membership_iff_of_ne {t : Table Str Membership} {id other : Str} {row : Membership}
    (hrow : row.organizationId ≠ other)
    (hold : ∀ m, t.get id = some m → m.organizationId = row.organizationId) (k : Str)
    (m : Membership) (hm : m.organizationId = other) :
    (t.set id row).get k = some m ↔ t.get k = some m := by
  by_cases hk : k = id
  · subst hk
    rw [Table.get_set_self]
    constructor
    · intro h
      obtain rfl := Option.some.inj h
      exact absurd hm hrow
    · intro h
      exact absurd ((hold m h).symm.trans hm) hrow
  · rw [Table.get_set_of_ne _ _ hk]

/-- **A commit touches the rows it says.**

**Proof sketch.** By cases on the effect. A bootstrap and a push write memberships of their own
organization only, as a membership keeps its key columns. -/
theorem same_of_does {e : Effect} {s s' : Tables} (h : does e s s') {row : Row}
    (hrow : row ∉ e.touched) : same row s s' := by
  cases e with
  | issued id grant =>
    obtain ⟨-, -, rfl⟩ := insertGrant_eq_some h.1
    cases row with
    | organization other => simp [same]
    | grant other => exact Table.get_set_of_ne _ _ fun heq => hrow (by simp [Effect.touched, heq])
  | minted grantId codeHash consumedAt id session =>
    obtain ⟨grant, hgrant, -, -, -, hwrite⟩ := h
    obtain ⟨-, -, rfl⟩ := mint_eq_some hgrant hwrite
    cases row with
    | organization other => simp [same]
    | grant other => exact Table.get_set_of_ne _ _ fun heq => hrow (by simp [Effect.touched, heq])
  | revoked id revokedAt =>
    obtain ⟨session, -, rfl⟩ := revoke_eq_some h
    cases row <;> simp [same]
  | bootstrapped b =>
    obtain ⟨hwrite, hloaded⟩ := h
    obtain ⟨organizations, user, memberships, horganizations, hmemberships, -, -, rfl⟩ :=
      Bootstrap.write_eq_some hwrite
    obtain ⟨o, rfl, -⟩ := Bootstrap.writeOrganization_eq_some horganizations
    cases row with
    | organization other =>
      have hne : b.request.organizationId ≠ other := fun heq =>
        hrow (by simp [Effect.touched, heq])
      obtain ⟨m, rfl, hkeys⟩ := Bootstrap.writeMembership_keys hloaded hmemberships
      refine ⟨Table.get_set_of_ne _ _ hne.symm, fun k x hx => ?_⟩
      refine membership_iff_of_ne (by rw [hkeys.1]; exact hne) (fun old hold => ?_) k x hx
      obtain ⟨-, -, ⟨-, hnone, -, -⟩ | ⟨loaded, current, hm, hcurrent, -⟩⟩ :=
        Bootstrap.writeMembership_eq_some hmemberships
      · cases hnone.symm.trans hold
      · obtain ⟨current', hcurrent', hkeys'⟩ := hloaded.membership loaded hm
        obtain rfl := Option.some.inj (hold.symm.trans hcurrent')
        rw [hkeys.1, hkeys'.1]
    | grant other => rfl
  | widened w =>
    obtain ⟨hwrite, hloaded⟩ := h
    rw [Widening.write] at hwrite
    split at hwrite
    next organization membership horganization hmembership =>
      obtain rfl := Option.some.inj hwrite
      cases row with
      | organization other =>
        have hne : w.organizationId ≠ other := fun heq => hrow (by simp [Effect.touched, heq])
        refine ⟨Table.get_set_of_ne _ _ hne.symm, fun k x hx => ?_⟩
        have hmember : membership.organizationId = w.organizationId := by
          rw [hloaded.membership] at hmembership
          exact Option.some.inj hmembership ▸ hloaded.member
        refine membership_iff_of_ne (by simpa [hmember] using hne) (fun old hold => ?_) k x hx
        obtain rfl := Option.some.inj (hmembership.symm.trans hold)
        rfl
      | grant other => rfl
    next => cases hwrite

/-! ### Sound handlers -/

/-- What a call is answered, and what it commits. -/
abbrev Promise := Program.Promise Tables Effect Answer

/-- **A session was resumed**: it is live in the tables in which it was looked up, in those of the
second query its membership is active and the session its own, and the organization of the third
query has the revision of the principal. -/
def Resumed (found joined revised : Tables) (credentials : Credentials) (now : ℤ) (p : Principal) :
    Prop :=
  ∃ (x : AuthSession) (m : Membership) (o : Organization),
    found.sessions.get p.sessionId = some x ∧
      x.accessTokenHash = tokenHash credentials.credentials ∧ x.live now = true ∧
      joined.memberships.get x.membershipId = some m ∧ m.active = true ∧ x.belongsTo m = true ∧
      revised.organizations.get x.organizationId = some o ∧ p = principalOf p.sessionId x m o

/-- A session was resumed in tables that other calls may have made of the first ones. A call that
makes sure of what it commits knows no more than this; which tables the run went through is said by
the run. -/
def Authenticated (start : Tables) (credentials : Credentials) (now : ℤ) (p : Principal)
    (s : Tables) : Prop :=
  ∃ found joined, discipline.Later [] start found ∧ discipline.Later [] found joined ∧
    discipline.Later [] joined s ∧ Resumed found joined s credentials now p

/-- **Who is let in** has read the session, its membership and its organization.

**Proof sketch.** By the branches of `current_principal`. -/
lemma resumed_of_reads {found joined revised : Tables} {c : Credentials} {now : ℤ} {id : Str}
    {x : AuthSession} {m : Membership} {o : Organization}
    (hsession : found.sessionOf (tokenHash c.credentials) = some (id, x))
    (hlive : x.live now = true)
    (hm : joined.memberships.get x.membershipId = some m) (hactive : m.active = true)
    (hbelongs : x.belongsTo m = true) (ho : revised.organizations.get x.organizationId = some o) :
    Resumed found joined revised c now (principalOf id x m o) := by
  obtain ⟨hx, htoken⟩ := sessionOf_eq_some hsession
  exact ⟨x, m, o, hx, htoken, hlive, hm, hactive, hbelongs, ho, rfl⟩

/-- An answer that promises nothing, and is not the refusal of a session whose membership is not its
own. -/
def Answer.ordinary : Answer → Bool
  | .authenticated _ | .loggedOut | .revoked _ _ => false
  | .refused e => e.detail != Str.ofString "session membership mismatch"
  | _ => true

/-- The session has been revoked. -/
def RevokedSession (id : Str) (s : Tables) : Prop :=
  ∃ x, s.sessions.get id = some x ∧ x.revokedAt.isSome = true

/-- The session of the token has been revoked. -/
def RevokedToken (hash : Str) (s : Tables) : Prop :=
  ∃ id x, s.sessions.get id = some x ∧ x.accessTokenHash = hash ∧ x.revokedAt.isSome = true

/-- A session stays revoked. -/
lemma RevokedSession.grown {id : Str} {s s' : Tables} (h : RevokedSession id s)
    (hgrown : Grown s s') : RevokedSession id s' := by
  obtain ⟨x, hx, hrevoked⟩ := h
  obtain ⟨x', hx', -⟩ := hgrown.sessions id x hx
  exact ⟨x', hx', hgrown.revoked id x x' hx hrevoked hx'⟩

/-- A session keeps its token hash. -/
lemma Grown.session {s s' : Tables} (h : Grown s s') {id : Str} {x : AuthSession}
    (hx : s.sessions.get id = some x) :
    ∃ x', s'.sessions.get id = some x' ∧ x'.accessTokenHash = x.accessTokenHash := by
  obtain ⟨x', hx', hsame⟩ := h.sessions id x hx
  exact ⟨x', hx', (AuthSession.mk.inj hsame).2.2.2.1⟩

/-- A token stays revoked. -/
lemma RevokedToken.grown {hash : Str} {s s' : Tables} (h : RevokedToken hash s)
    (hgrown : Grown s s') : RevokedToken hash s' := by
  obtain ⟨id, x, hx, hhash, hrevoked⟩ := h
  obtain ⟨x', hx', hsame⟩ := hgrown.session hx
  exact ⟨id, x', hx', hsame.trans hhash, hgrown.revoked id x x' hx hrevoked hx'⟩

/-- The refusals of `current_principal`. -/
def authenticationRefusals : List String :=
  ["authentication required", "session expired or revoked", "membership inactive"]

section Sound

variable {promise : Promise} {held : List Row} {start s : Tables}

/-- An answer is sound when it is promised at any time. -/
lemma answer_sound {r : Answer} (h : ∀ s, promise.answers r s) :
    (Handler.answer r : Handler).Sound discipline promise held s :=
  fun s' _ => h s'

/-- Ordinary answers are promised at any time. -/
def Ordinary (promise : Promise) : Prop := ∀ r, r.ordinary = true → ∀ s, promise.answers r s

/-- A session belongs to the membership that is found for it later. -/
lemma belongsTo_of_joined {x : AuthSession} {m : Membership}
    (h : Joined s x.membershipId x.organizationId x.userId)
    (hm : s.memberships.get x.membershipId = some m) : x.belongsTo m = true := by
  obtain ⟨m', hm', horganization, huser⟩ := h
  obtain rfl := Option.some.inj (hm.symm.trans hm')
  simp [AuthSession.belongsTo, horganization, huser]

/-- **`current_principal`** is sound when what follows it is, for the principals that were
authenticated; it never finds a session whose membership is not its own.

**Proof sketch.** The tables are valid when the session is looked up, so it has a membership, which
keeps its key columns, and an organization, which stays. -/
theorem currentPrincipal_sound {credentials : Option Credentials} {now : ℤ}
    {next : Principal → Handler} (hvalid : Valid s)
    (hrefused : ∀ detail ∈ authenticationRefusals, ∀ s, promise.answers (.http 401 detail) s)
    (hnext : ∀ c, credentials = some c → ∀ p s', Authenticated s c now p s' → Valid s' →
      (next p).Sound discipline promise [] s') :
    (currentPrincipal credentials now next).Sound discipline promise [] s := by
  have hrequired : ∀ s, promise.answers (.http 401 "authentication required") s :=
    hrefused _ (by simp [authenticationRefusals])
  have hexpired : ∀ s, promise.answers (.http 401 "session expired or revoked") s :=
    hrefused _ (by simp [authenticationRefusals])
  have hinactive : ∀ s, promise.answers (.http 401 "membership inactive") s :=
    hrefused _ (by simp [authenticationRefusals])
  cases credentials with
  | none => exact answer_sound hrequired
  | some c =>
    simp only [currentPrincipal]
    split_ifs with hscheme
    · intro found hfound
      dsimp only
      split
      next id x hsession =>
        split_ifs with hlive
        · intro joined hjoined revised hrevised
          have hvalidFound := Discipline.later_inv hfound hvalid
          have hbelongs := (hvalidFound.sessions id x (sessionOf_eq_some hsession).1).grown
            (grown_of_later hjoined)
          dsimp only
          split
          next m o hm ho =>
            have hmine := belongsTo_of_joined hbelongs hm
            rw [if_pos hmine]
            split_ifs with hactive
            · refine hnext c rfl _ revised ⟨found, joined, hfound, hjoined, hrevised,
                resumed_of_reads hsession hlive hm hactive hmine ho⟩ ?_
              exact Discipline.later_inv hrevised (Discipline.later_inv hjoined hvalidFound)
            · exact answer_sound hinactive
          next => exact answer_sound hinactive
        · exact answer_sound hexpired
      next => exact answer_sound hexpired
    · exact answer_sound hrequired

/-- A commit is sound when it is promised, does what its effect says, and is followed by a sound
answer. -/
lemma commit_sound {effect : Effect} {write : Tables → Option Tables} {r : Answer}
    (hpromised : promise.commits effect) (hanswer : ∀ s, promise.answers r s)
    (hfailed : ∀ s, promise.answers .failed s)
    (hdoes : ∀ s', discipline.Later held s s' → ∀ s'', write s' = some s'' → does effect s' s'') :
    (Handler.commit effect effect.touched write (.answer r) (.answer .failed) :
      Handler).Sound discipline promise held s := by
  intro s' hlater
  refine ⟨fun s'' hwrite => ?_, fun _ => answer_sound hfailed⟩
  have hdone := hdoes s' hlater s'' hwrite
  exact ⟨hpromised, hdone, fun row hrow => same_of_does hdone hrow, answer_sound hanswer⟩

/-- The principal of a token has the session of the token. -/
lemma Authenticated.session {c : Credentials} {now : ℤ} {p : Principal}
    (h : Authenticated start c now p s) :
    ∃ x, s.sessions.get p.sessionId = some x ∧ x.accessTokenHash = tokenHash c.credentials := by
  obtain ⟨found, joined, -, hjoined, hs, x, m, o, hx, htoken, -⟩ := h
  obtain ⟨x', hx', hsame⟩ := (grown_of_later (hjoined.trans hs)).session hx
  exact ⟨x', hx', hsame.trans htoken⟩

/-- **A logout is sound**: when it is answered, the session of its token has been revoked.

**Proof sketch.** The session that was found for the token keeps its token hash, so it is the one
that the logout revokes, unless it has been revoked by then. -/
theorem logout_sound {c : Credentials} {now later : ℤ} {p : Principal}
    (hp : Authenticated start c now p s) (hpromised : promise.commits (.revoked p.sessionId later))
    (hanswers : Ordinary promise)
    (hout : ∀ s, RevokedToken (tokenHash c.credentials) s → promise.answers .loggedOut s) :
    (logout later p).Sound discipline promise [] s := by
  obtain ⟨x, hx, htoken⟩ := hp.session
  intro t ht
  obtain ⟨x', hx', hsame⟩ := (grown_of_later ht).session hx
  simp only [hx']
  split_ifs with hrevoked
  · intro u hu
    exact hout u (RevokedToken.grown ⟨_, x', hx', hsame.trans htoken, hrevoked⟩ (grown_of_later hu))
  · intro u hu
    refine ⟨fun u' hwrite => ?_, fun _ => answer_sound (hanswers _ rfl)⟩
    refine ⟨hpromised, hwrite, fun row hrow => same_of_does (e := .revoked p.sessionId later) hwrite
      hrow, fun v hv => ?_⟩
    obtain ⟨y, hy, rfl⟩ := revoke_eq_some hwrite
    obtain ⟨y', hy', hkept⟩ := (grown_of_later hu).session hx'
    obtain rfl := Option.some.inj (hy.symm.trans hy')
    refine hout v (RevokedToken.grown ⟨_, _, Table.get_set_self _ _ _, ?_, rfl⟩ (grown_of_later hv))
    exact hkept.trans (hsame.trans htoken)

/-- A revocation is sound: when it is answered, the session has been revoked. -/
theorem revokeSession_sound {sessionId organizationId : Str} {now : ℤ}
    (hpromised : promise.commits (.revoked sessionId now)) (hanswers : Ordinary promise)
    (hout : ∀ revokedAt s, RevokedSession sessionId s →
      promise.answers (.revoked sessionId revokedAt) s) :
    (revokeSession sessionId organizationId now).Sound discipline promise [] s := by
  intro t _
  dsimp only
  split
  · exact answer_sound (hanswers _ rfl)
  next x hx =>
    split_ifs
    · split
      next revokedAt hrevoked =>
        intro u hu
        exact hout _ u (RevokedSession.grown ⟨x, hx, by rw [hrevoked]; rfl⟩ (grown_of_later hu))
      · intro u _
        refine ⟨fun u' hwrite => ?_, fun _ => answer_sound (hanswers _ rfl)⟩
        refine ⟨hpromised, hwrite, fun row hrow => same_of_does (e := .revoked sessionId now) hwrite
          hrow, fun v hv => ?_⟩
        obtain ⟨y, -, rfl⟩ := revoke_eq_some hwrite
        exact hout _ v
          (RevokedSession.grown ⟨_, Table.get_set_self _ _ _, rfl⟩ (grown_of_later hv))
    · exact answer_sound (hanswers _ rfl)

/-- The key has the hash that is configured. -/
def Admitted (configured key : Option Str) : Prop :=
  ∃ c k, configured = some c ∧ c ≠ [] ∧ key = some k ∧ k ≠ [] ∧ tokenHash k = c.lower

/-- The check of the administrator's key is sound when what follows it is, for a key that has the
hash. -/
lemma requireAdminKey_sound {configured key : Option Str} {next : Handler}
    (hanswers : Ordinary promise)
    (hnext : Admitted configured key → next.Sound discipline promise [] s) :
    (requireAdminKey configured key next).Sound discipline promise [] s := by
  unfold requireAdminKey
  split
  · exact answer_sound (hanswers _ rfl)
  · exact answer_sound (hanswers _ rfl)
  next c hc =>
    split
    · exact answer_sound (hanswers _ rfl)
    · exact answer_sound (hanswers _ rfl)
    next k hk =>
      split_ifs with hhash
      · exact hnext ⟨c, k, rfl, hc, rfl, hk, beq_iff_eq.mp hhash⟩
      · exact answer_sound (hanswers _ rfl)

/-- The issue of a pairing grant is sound: the membership that it saw keeps its key columns. -/
lemma issuePairingGrant_sound {membershipId : Str} {grantTtlSeconds sessionTtlSeconds now : ℤ}
    {grantId pairingCode : Str} (hpromised : ∀ grant, promise.commits (.issued grantId grant))
    (hanswers : Ordinary promise) :
    (issuePairingGrant membershipId grantTtlSeconds sessionTtlSeconds now grantId
      pairingCode).Sound discipline promise [] s := by
  intro s' _
  dsimp only
  split
  · exact answer_sound (hanswers _ rfl)
  next m hm =>
    split_ifs
    · refine commit_sound (hpromised _) (hanswers _ rfl) (hanswers _ rfl)
        fun t hlater t' hwrite => ?_
      obtain ⟨m', hm', hkeys⟩ := (grown_of_later hlater).membership hm
      exact ⟨hwrite, rfl, m', hm', hkeys⟩
    · exact answer_sound (hanswers _ rfl)

/-- **An exchange is sound**: the grant that it locked is the same until it commits.

**Proof sketch.** The row of the grant is locked from the query that found it, so it is still open
when the session is made from it. -/
theorem exchangePairingCode_sound {pairingCode : Str} {now : ℤ} {sessionId accessToken : Str}
    (hpromised : ∀ grantId session, promise.commits
      (.minted grantId (tokenHash (normalizedCode pairingCode)) now sessionId session))
    (hanswers : Ordinary promise) :
    (exchangePairingCode pairingCode now sessionId accessToken).Sound discipline promise [] s := by
  rw [exchangePairingCode]
  split_ifs
  · exact answer_sound (hanswers _ rfl)
  · intro locked _
    dsimp only
    split
    · exact answer_sound (hanswers _ rfl)
    next grantId grant hfound =>
      obtain ⟨hgrant, hcode⟩ := grantOf_eq_some hfound
      split_ifs with hopen
      · intro joined hjoined
        dsimp only
        split
        · exact answer_sound (hanswers _ rfl)
        · split_ifs
          · refine commit_sound (by rw [hcode]; exact hpromised _ _) (hanswers _ rfl)
              (hanswers _ rfl) fun t hlater t' hwrite => ?_
            have hsame : same (.grant grantId) locked t :=
              same_of_later (by simp [hfound]) (hjoined.trans hlater)
            exact ⟨grant, hsame.trans hgrant, rfl, hopen, ⟨accessToken, rfl⟩, hwrite⟩
          · exact answer_sound (hanswers _ rfl)
      · exact answer_sound (hanswers _ rfl)

/-- A bootstrap is sound: the membership that it loaded is that of its user in its organization. -/
theorem bootstrapIdentity_sound {r : BootstrapRequest} {now : ℤ} {sessionId accessToken : Str}
    (hpromised : ∀ b, promise.commits (.bootstrapped b)) (hanswers : Ordinary promise) :
    (bootstrapIdentity r now sessionId accessToken).Sound discipline promise [] s := by
  intro _ _ _ _ _ _
  dsimp only
  split_ifs
  · exact answer_sound (hanswers _ rfl)
  · intro byId _ forPair hforPair
    dsimp only
    split_ifs with hforeign hother
    · exact answer_sound (hanswers _ rfl)
    · exact answer_sound (hanswers _ rfl)
    · intro checked hchecked
      dsimp only
      split_ifs
      · exact answer_sound (hanswers _ rfl)
      · refine commit_sound (hpromised _) (hanswers _ rfl) (hanswers _ rfl)
          fun t hlater t' hwrite => ⟨hwrite, rfl, rfl, rfl, rfl, fun m hm => ?_⟩
        rcases Option.or_eq_some_iff.mp hm with hm | ⟨-, hm⟩
        · have hmine : m.organizationId = r.organizationId ∧ m.userId = r.userId := by
            simpa [hm, BootstrapRequest.foreign] using hforeign
          obtain ⟨m', hm', hkeys⟩ :=
            (grown_of_later (hforPair.trans (hchecked.trans hlater))).membership hm
          exact ⟨m', hm', hkeys.1.trans hmine.1, hkeys.2.trans hmine.2⟩
        · obtain ⟨⟨id, x⟩, hpair, rfl⟩ := Option.map_eq_some_iff.mp hm
          obtain ⟨hx, hmine⟩ := membershipFor_eq_some hpair
          obtain rfl : id = r.membershipId := by simpa [hpair] using hother
          obtain ⟨m', hm', hkeys⟩ := (grown_of_later (hchecked.trans hlater)).membership hx
          exact ⟨m', hm', hkeys.1.trans hmine.1, hkeys.2.trans hmine.2⟩

/-- The grants of a push keep what was loaded. -/
lemma Widening.foldl_next (created : List Created) (w : Widening) : ∃ widened grants,
    created.foldl Widening.next w = { w with widened := widened, grants := grants } ∧
      w.grants ≤ grants := by
  induction created generalizing w with
  | nil => exact ⟨w.widened, w.grants, rfl, le_rfl⟩
  | cons c rest ih =>
    obtain ⟨widened, grants, hfold, hle⟩ := ih (w.next c)
    rw [List.foldl_cons, hfold]
    rw [Widening.next] at hle ⊢
    split_ifs at hle ⊢
    · exact ⟨widened, grants, rfl, (Nat.le_succ _).trans hle⟩
    · exact ⟨widened, grants, rfl, hle⟩

/-- The grants of a push are sound under the lock of its organization.

**Proof sketch.** By induction on the records that it created. The lock of the organization stands
for its memberships, so the membership that was loaded is the same at the commit. -/
lemma grantAll_sound {principal : Principal} {o : Organization} {locked : Tables}
    (hpromised : ∀ w, promise.commits (.widened w)) (hanswers : Ordinary promise)
    (ho : locked.organizations.get principal.organizationId = some o) (created : List Created)
    (hlocked : discipline.Later [.organization principal.organizationId] locked s) :
    (grantAll principal o.authorizationRevision created).Sound discipline promise
      [.organization principal.organizationId] s := by
  induction created generalizing s with
  | nil => exact answer_sound (hanswers _ rfl)
  | cons c rest ih =>
    intro loaded hloaded
    dsimp only
    split
    · exact ih (hlocked.trans hloaded)
    next m hm =>
      split_ifs with hcounts
      · obtain ⟨widened, grants, hfold, hle⟩ := Widening.foldl_next rest
          { organizationId := principal.organizationId
            membershipId := principal.membershipId
            loaded := m
            widened := m.grant c
            authorizationRevision := o.authorizationRevision
            grants := 1 }
        rw [hfold]
        refine commit_sound (hpromised _) (hanswers _ rfl) (hanswers _ rfl)
          fun t hlater t' hwrite => ⟨hwrite, ?_⟩
        have hmine : m.organizationId = principal.organizationId := by
          simp only [Membership.canonicalFor, Bool.and_eq_true, beq_iff_eq] at hcounts
          exact hcounts.1.1.2
        have hsame : same (.organization principal.organizationId) locked t :=
          same_of_later (List.mem_singleton_self _) (hlocked.trans (hloaded.trans hlater))
        have hkept : same (.organization principal.organizationId) loaded t :=
          same_of_later (List.mem_singleton_self _) hlater
        exact {
          organization := by
            rw [hsame.1, ho]
            rfl
          membership := (hkept.2 _ m hmine).mpr hm
          member := hmine
          counted := hle }
      · exact ih (hlocked.trans hloaded)

/-- A push is sound. -/
theorem pushGrants_sound {created : List Created} {principal : Principal}
    (hpromised : ∀ w, promise.commits (.widened w)) (hanswers : Ordinary promise) :
    (pushGrants created principal).Sound discipline promise [] s := by
  rw [pushGrants]
  split_ifs
  · intro locked _
    dsimp only
    split
    · exact answer_sound (hanswers _ rfl)
    next o ho =>
      simp only [ho, Option.map_some, Option.toList_some, List.append_nil]
      exact grantAll_sound hpromised hanswers ho created (discipline.later_refl _ _)
  · exact answer_sound (hanswers _ rfl)

end Sound

/-! ### Runs -/

/-- What a call may commit. -/
def Call.commits (configured : Option Str) : Call → Effect → Prop
  | authLogout .., .revoked .. => True
  | push .., .widened _ => True
  | authPair pairingCode now _ _, .minted _ codeHash consumedAt _ _ =>
    codeHash = tokenHash (normalizedCode pairingCode) ∧ consumedAt = now
  | adminPairingGrant key .., .issued .. => Admitted configured key
  | adminRevokeSession key .., .revoked .. => Admitted configured key
  | adminBootstrap key .., .bootstrapped _ => Admitted configured key
  | _, _ => False

/-- What a call that began with these rows may be answered: a principal was authenticated, a logout
has revoked the session of its token, and a revocation its session. -/
def Call.answers (start : Tables) (call : Call) : Answer → Tables → Prop
  | .authenticated p, s => ∃ credentials now s', call = .authenticate (some credentials) now ∧
      Authenticated start credentials now p s' ∧ discipline.Later [] s' s
  | .loggedOut, s => ∃ credentials now later, call = .authLogout (some credentials) now later ∧
      RevokedToken (tokenHash credentials.credentials) s
  | .revoked id _, s => RevokedSession id s
  | r, _ => r.ordinary = true

/-- What is promised of a call that begins with these rows. -/
def Call.promise (configured : Option Str) (start : Tables) (call : Call) : Promise where
  commits := call.commits configured
  answers := call.answers start

/-- Ordinary answers are promised of every call. -/
lemma Call.ordinary (configured : Option Str) (start : Tables) (call : Call) :
    Ordinary (call.promise configured start) := by
  intro r hr s
  cases r with
  | authenticated | loggedOut | revoked => cases hr
  | _ => exact hr

/-- The refusals of `current_principal` are ordinary. -/
lemma ordinary_of_mem {detail : String} (h : detail ∈ authenticationRefusals) :
    (Answer.http 401 detail).ordinary = true := by
  simp only [authenticationRefusals, List.mem_cons, List.not_mem_nil, or_false] at h
  rcases h with rfl | rfl | rfl <;> rfl

/-- **Every call is sound**, whatever other calls commit between its queries. -/
theorem Call.sound (configured : Option Str) {start : Tables} (hvalid : Valid start) (call : Call) :
    (call.handler configured).Sound discipline (call.promise configured start) [] start := by
  have hordinary := call.ordinary configured start
  have hrefused : ∀ detail ∈ authenticationRefusals, ∀ s,
      (call.promise configured start).answers (.http 401 detail) s :=
    fun detail h => hordinary _ (ordinary_of_mem h)
  cases call with
  | authenticate credentials now =>
    refine currentPrincipal_sound hvalid hrefused fun c hc p s' hp _ => fun t hlater => ?_
    exact ⟨c, now, s', by rw [hc], hp, hlater⟩
  | authLogout credentials now later =>
    refine currentPrincipal_sound hvalid hrefused fun c hc p s' hp _ =>
      logout_sound hp trivial hordinary fun t hrevoked => ?_
    exact ⟨c, now, later, by rw [hc], hrevoked⟩
  | push credentials now created =>
    exact currentPrincipal_sound hvalid hrefused fun _ _ _ _ _ _ =>
      pushGrants_sound (fun _ => trivial) hordinary
  | authPair pairingCode now sessionId accessToken =>
    exact exchangePairingCode_sound (fun _ _ => ⟨rfl, rfl⟩) hordinary
  | adminPairingGrant key membershipId grantTtlSeconds sessionTtlSeconds now grantId pairingCode =>
    exact requireAdminKey_sound hordinary fun h => issuePairingGrant_sound (fun _ => h) hordinary
  | adminRevokeSession key sessionId organizationId now =>
    exact requireAdminKey_sound hordinary fun h =>
      revokeSession_sound h hordinary fun _ _ hrevoked => hrevoked
  | adminBootstrap key request now sessionId accessToken =>
    exact requireAdminKey_sound hordinary fun h => bootstrapIdentity_sound (fun _ => h) hordinary

end VitrialSync.Identity
