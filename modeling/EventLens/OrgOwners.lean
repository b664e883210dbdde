import EventLens.OrgClosure
import EventLens.Pools

/-!
Members of an organisation changed by overlapping requests. A member is not to
lose the owner's role, or their membership, while no other owner is left. Two
of the three requests check this on a list read before they write; the one that
adds a member sets the role of whoever is a member already, and checks nothing.
-/

namespace EventLens.Auth

open Programs Contract

inductive MemberOp
  | getOrg (orgId : String)
  | getByEmail (email : String)
  | createUser (user : NewUser)
  | getMembership (orgId userId : String)
  | listMembers (orgId : String)
  | putMember (orgId userId : String) (role : OrgRole)
  | dropMember (orgId userId : String)
deriving DecidableEq, Repr

/-- A user is not created where the email is taken. -/
abbrev MemberRes : MemberOp → Type
  | .getOrg _ => Option Organization
  | .getByEmail _ | .createUser _ => Option User
  | .getMembership _ _ => Option OrganizationUser
  | .listMembers _ => List OrganizationUser
  | _ => Unit

abbrev MemberEvent := Event MemberOp MemberRes

abbrev MemberAttempt := ExceptT OrgError (Prog MemberOp MemberRes)

def callMember (o : MemberOp) : MemberAttempt (MemberRes o) :=
    .mk (.perform o fun r => .done (.ok r))

/-! The service. -/

def getOrg (orgId : String) : MemberAttempt Organization := do
  match ← callMember (.getOrg orgId) with
  | some org => pure org
  | none => throw (.notFound "Organization not found")

def resolveUser (user : NewUser) : MemberAttempt User := do
  match ← callMember (.getByEmail user.email) with
  | some existing => pure existing
  | none =>
    match user.password with
    | none => throw (.badRequest
        s!"User {user.email} does not exist — provide a password to create them")
    | some _ =>
      match ← callMember (.createUser user) with
      | some created => pure created
      | none => throw .emailConstraint

/-- The users of the owners in the list. -/
def ownersIn (members : List OrganizationUser) : List String :=
  (members.filter (fun m => m.role = .owner)).map (fun m => m.userId)

def ensureNotLastOwner (orgId userId : String) (newRole : Option OrgRole) : MemberAttempt Unit :=
  if newRole = some .owner then pure ()
  else do
    let members ← callMember (.listMembers orgId)
    if ownersIn members =
      [userId] then throw (.badRequest "Cannot remove the last owner") else pure ()

def addMember (orgId : String) (user : NewUser) (role : OrgRole) : MemberAttempt Unit := do
  let _ ← getOrg orgId
  let found ← resolveUser user
  callMember (.putMember orgId found.id role)

def updateMember (orgId userId : String) (role : OrgRole) : MemberAttempt Unit := do
  match ← callMember (.getMembership orgId userId) with
  | none => throw (.notFound "Member not found")
  | some _ =>
    ensureNotLastOwner orgId userId (some role)
    callMember (.putMember orgId userId role)

def removeMember (orgId userId : String) : MemberAttempt Unit := do
  match ← callMember (.getMembership orgId userId) with
  | none => throw (.notFound "Member not found")
  | some _ =>
    ensureNotLastOwner orgId userId none
    callMember (.dropMember orgId userId)

inductive MemberCall
  | addMember (orgId : String) (user : NewUser) (role : OrgRole)
  | updateMember (orgId userId : String) (role : OrgRole)
  | removeMember (orgId userId : String)
deriving DecidableEq, Repr

def MemberCall.prog : MemberCall → Prog MemberOp MemberRes (Except OrgError Unit)
  | .addMember orgId user role => (Auth.addMember orgId user role).run
  | .updateMember orgId userId role => (Auth.updateMember orgId userId role).run
  | .removeMember orgId userId => (Auth.removeMember orgId userId).run

/-! The tables. -/

def OrganizationUser.key (m : OrganizationUser) : String × String := (m.orgId, m.userId)

theorem keys_putMember (w : OrgWorld) (orgId userId : String) (role : OrgRole)
    (h : (w.members.map OrganizationUser.key).Nodup) :
    ((w.putMember orgId userId role).members.map OrganizationUser.key).Nodup := by
  unfold OrgWorld.putMember
  split
  · have hsame : (w.members.map (fun m =>
        if m.orgId = orgId ∧ m.userId = userId then { m with role := role } else m)).map
          OrganizationUser.key = w.members.map OrganizationUser.key := by
      rw [List.map_map]
      refine List.map_congr_left fun m _ => ?_
      rw [Function.comp_apply]
      split <;> rfl
    exact hsame ▸ h
  · rename_i hnew
    rw [List.map_append]
    refine h.append (List.nodup_singleton _) fun k hk hnew' => hnew ?_
    obtain ⟨m, hm, rfl⟩ := List.mem_map.mp hk
    obtain ⟨horg, huser⟩ := Prod.mk.inj (List.mem_singleton.mp hnew')
    exact List.any_eq_true.mpr ⟨m, hm, decide_eq_true ⟨horg, huser⟩⟩

/-- The primary key of a membership is its organisation and its user. -/
structure MemberTables where
  world : OrgWorld
  unique : (world.members.map OrganizationUser.key).Nodup

namespace MemberTables

variable (s : MemberTables)

def createUser (user : NewUser) : Option User × MemberTables :=
  if s.world.users.any (fun u => u.email.toLower = user.email.toLower) then (none, s)
  else
    let created : User := { id := user.id, email := user.email }
    (some created, ⟨{ s.world with users := s.world.users ++ [created] }, s.unique⟩)

def putMember (orgId userId : String) (role : OrgRole) : MemberTables :=
  ⟨s.world.putMember orgId userId role, keys_putMember s.world orgId userId role s.unique⟩

def dropMember (orgId userId : String) : MemberTables :=
  ⟨s.world.dropMember orgId userId, s.unique.sublist (List.filter_sublist.map _)⟩

end MemberTables

def memberHandler : Handler MemberOp MemberRes MemberTables := fun o _ s =>
  match o with
  | .getOrg orgId => (s.world.getById orgId, s)
  | .getByEmail email => (s.world.getByEmail email, s)
  | .createUser user => s.createUser user
  | .getMembership orgId userId => (s.world.getMembership orgId userId, s)
  | .listMembers orgId => (s.world.listMembers orgId, s)
  | .putMember orgId userId role => ((), s.putMember orgId userId role)
  | .dropMember orgId userId => ((), s.dropMember orgId userId)

def memberServer : Server MemberCall MemberOp MemberRes MemberTables (Except OrgError Unit) where
  handler := memberHandler
  prog := MemberCall.prog
  accept _ s := some s
  release _ _ _ s := some s

/-- The change that a request makes when no other is under way. -/
def MemberCall.change : MemberCall → OrgChange
  | .addMember orgId user role => .addMember orgId user role
  | .updateMember orgId userId role => .updateMember orgId userId role
  | .removeMember orgId userId => .removeMember orgId userId

theorem ensureNotLastOwner_eq {w : OrgWorld} {orgId userId : String} {newRole : Option OrgRole}
    (h : newRole ≠ some .owner) : w.ensureNotLastOwner orgId userId newRole =
      if ownersIn (w.listMembers orgId) = [userId] then
        .error (.badRequest "Cannot remove the last owner")
      else .ok () := by
  rw [OrgWorld.ensureNotLastOwner, if_neg h, ownersIn]
  cases (w.listMembers orgId).filter (fun m => m.role = .owner) with
  | nil => rfl
  | cons owner owners =>
    cases owners with
    | nil => simp
    | cons other owners => simp

/-- Alone, a request is the change as a whole. -/
theorem run_alone (c : MemberCall) (ω : Oracle MemberOp MemberRes) (s : MemberTables) :
    (run memberHandler c.prog ω s).state.world =
    (c.change.apply s.world).toOption.getD s.world := by
  cases c with
  | addMember orgId user role =>
    rw [MemberCall.change, OrgChange.apply, OrgWorld.addMember, OrgWorld.get]
    cases horg : s.world.getById orgId with
    | none =>
      simp [MemberCall.prog, addMember, getOrg, callMember, run, memberHandler, horg]
      rfl
    | some org =>
      rw [OrgWorld.resolveUser]
      cases hfound : s.world.getByEmail user.email with
      | some existing =>
        simp [MemberCall.prog, addMember, getOrg, resolveUser, callMember, run, memberHandler,
          horg, hfound]
        rfl
      | none =>
        cases hpassword : user.password with
        | none =>
          simp [MemberCall.prog, addMember, getOrg, resolveUser, callMember, run, memberHandler,
            horg, hfound,
            hpassword]
          rfl
        | some password =>
          by_cases htaken :
            s.world.users.any (fun u => u.email.toLower = user.email.toLower) = true <;>
          · simp [MemberCall.prog, addMember, getOrg, resolveUser, callMember, run, memberHandler,
              horg, hfound,
              hpassword, MemberTables.createUser, htaken]
            rfl
  | updateMember orgId userId role =>
    rw [MemberCall.change, OrgChange.apply, OrgWorld.updateMember]
    cases hmember : s.world.getMembership orgId userId with
    | none =>
      simp [MemberCall.prog, updateMember, callMember, run, memberHandler, hmember]
      rfl
    | some m =>
      by_cases howner : role = .owner
      · subst howner
        simp [MemberCall.prog, updateMember, ensureNotLastOwner, OrgWorld.ensureNotLastOwner,
          callMember,
          run, memberHandler, hmember]
        rfl
      · have hrole : some role ≠ some OrgRole.owner := fun h => howner (Option.some.inj h)
        by_cases hlast : ownersIn (s.world.listMembers orgId) = [userId] <;>
        · simp [MemberCall.prog, updateMember, ensureNotLastOwner, ensureNotLastOwner_eq hrole,
            callMember,
            run, memberHandler, hmember, howner, hlast]
          rfl
  | removeMember orgId userId =>
    have hrole : none ≠ some OrgRole.owner := (Option.some_ne_none _).symm
    rw [MemberCall.change, OrgChange.apply, OrgWorld.removeMember]
    cases hmember : s.world.getMembership orgId userId with
    | none =>
      simp [MemberCall.prog, removeMember, callMember, run, memberHandler, hmember]
      rfl
    | some m =>
      by_cases hlast : ownersIn (s.world.listMembers orgId) = [userId] <;>
      · simp [MemberCall.prog, removeMember, ensureNotLastOwner, ensureNotLastOwner_eq hrole,
          callMember,
          run, memberHandler, hmember, hlast]
        rfl

/-! Owners. -/

/-- The user owns the organisation, and their account is live. -/
def OrgWorld.LiveOwner (w : OrgWorld) (orgId userId : String) : Prop :=
  userId ∈ ownersIn (w.listMembers orgId)

instance (w : OrgWorld) (orgId userId : String) : Decidable (w.LiveOwner orgId userId) :=
  inferInstanceAs (Decidable (_ ∈ _))

/-- What a call has read before it writes: one that adds a member nothing, one
that changes a member the owners. -/
inductive Guard
  | adding
  | asking
  | checked (orgId : String) (owners : List String)
deriving DecidableEq

def Guard.note : Guard → MemberEvent → Guard
  | .asking, ⟨.listMembers orgId, members⟩ => .checked orgId (ownersIn members)
  | g, _ => g

def Guard.Permits : Guard → MemberOp → Prop
  | .adding, .dropMember _ _ => False
  | .asking, .putMember _ _ role => role = .owner
  | .asking, .dropMember _ _ => False
  | .checked k owners, .putMember orgId userId _ => orgId = k ∧ owners ≠ [userId]
  | .checked k owners, .dropMember orgId userId => orgId = k ∧ owners ≠ [userId]
  | _, _ => True

def guarding : Contract MemberOp MemberRes Guard where
  note := Guard.note
  expects _ _ := True
  permits := Guard.Permits

def MemberCall.first : MemberCall → Guard
  | .addMember _ _ _ => .adding
  | _ => .asking

/-- The role of an owner is not lowered by adding them again, and the owners
that a change of a member has seen are still owners when it writes. -/
def Guard.Safe (orgId : String) (w : OrgWorld) : Guard → MemberOp → Prop
  | .adding, .putMember k userId role => k = orgId → role = .owner ∨ ¬ w.LiveOwner orgId userId
  | .checked k owners, .putMember _ _ role =>
    k = orgId → role = .owner ∨ ∀ u ∈ owners, w.LiveOwner orgId u
  | .checked k owners, .dropMember _ _ => k = orgId → ∀ u ∈ owners, w.LiveOwner orgId u
  | _, _ => True

def SafelyWritten (orgId : String)
    (p : Pool MemberCall MemberOp MemberRes MemberTables (Except OrgError Unit))
    (t : Thread MemberCall MemberOp MemberRes (Except OrgError Unit)) (e : MemberEvent) : Prop :=
  (t.past.foldl Guard.note t.call.first).Safe orgId p.state.world e.1

section Follows

variable {α : Type} {Q : Except OrgError α → Guard → Prop} {g : Guard}

theorem follows_callMember {o : MemberOp} {f : MemberRes o → MemberAttempt α} (ho : g.Permits o)
    (h : ∀ r, guarding.Follows (f r).run Q (g.note ⟨o, r⟩)) :
    guarding.Follows (callMember o >>= f).run Q g :=
  ⟨ho, fun r _ => h r⟩

theorem addMember_follows (orgId : String) (user : NewUser) (role : OrgRole) :
    guarding.Follows (addMember orgId user role).run (fun _ _ => True) .adding := by
  refine (follows_attempt _ _ _ _ _).mpr (follows_callMember trivial fun org => ?_)
  cases org with
  | none => trivial
  | some org =>
    refine (follows_attempt _ _ _ _ _).mpr (follows_callMember trivial fun found => ?_)
    cases found with
    | some existing => exact ⟨trivial, fun _ _ => trivial⟩
    | none =>
      simp only
      cases user.password with
      | none => trivial
      | some password =>
        refine follows_callMember trivial fun created => ?_
        cases created with
        | none => trivial
        | some created => exact ⟨trivial, fun _ _ => trivial⟩

theorem ensureNotLastOwner_follows {orgId userId : String} {newRole : Option OrgRole} {o : MemberOp}
    (howner : newRole = some .owner → Guard.asking.Permits o)
    (hchecked : ∀ owners, owners ≠ [userId] → (Guard.checked orgId owners).Permits o) :
    guarding.Follows (ensureNotLastOwner orgId userId newRole >>= fun _ => callMember o).run
      (fun _ _ => True) .asking := by
  unfold ensureNotLastOwner
  split
  · rename_i h
    exact ⟨howner h, fun _ _ => trivial⟩
  · rw [bind_assoc]
    refine follows_callMember trivial fun members => ?_
    split
    · trivial
    · rename_i h
      exact ⟨hchecked _ h, fun _ _ => trivial⟩

theorem updateMember_follows (orgId userId : String) (role : OrgRole) :
    guarding.Follows (updateMember orgId userId role).run (fun _ _ => True) .asking := by
  refine follows_callMember trivial fun membership => ?_
  cases membership with
  | none => trivial
  | some m => exact ensureNotLastOwner_follows Option.some.inj fun _ h => ⟨rfl, h⟩

theorem removeMember_follows (orgId userId : String) :
    guarding.Follows (removeMember orgId userId).run (fun _ _ => True) .asking := by
  refine follows_callMember trivial fun membership => ?_
  cases membership with
  | none => trivial
  | some m =>
    have hrole : none = some OrgRole.owner → Guard.asking.Permits (.dropMember orgId userId) :=
      fun h => absurd h.symm (Option.some_ne_none _)
    exact ensureNotLastOwner_follows hrole fun _ h => ⟨rfl, h⟩

theorem member_follows (c : MemberCall) :
    guarding.Follows c.prog (fun _ _ => True) c.first := by
  cases c with
  | addMember orgId user role => exact addMember_follows orgId user role
  | updateMember orgId userId role => exact updateMember_follows orgId userId role
  | removeMember orgId userId => exact removeMember_follows orgId userId

end Follows

/-! What the statements do to the owners. -/

section Statements

variable {w : OrgWorld} {orgId userId k u : String} {role : OrgRole}

theorem liveOwner_iff : w.LiveOwner orgId userId ↔
    (w.getUser userId).isSome ∧ ⟨orgId, userId, .owner⟩ ∈ w.members := by
  unfold OrgWorld.LiveOwner ownersIn
  rw [List.mem_map]
  constructor
  · rintro ⟨m, hm, rfl⟩
    obtain ⟨hm, hrole⟩ := List.mem_filter.mp hm
    obtain ⟨hmem, hlisted⟩ := List.mem_filter.mp hm
    obtain ⟨rfl, hlive⟩ := of_decide_eq_true hlisted
    obtain ⟨orgId, userId, role⟩ := m
    obtain rfl : role = .owner := of_decide_eq_true hrole
    exact ⟨hlive, hmem⟩
  · rintro ⟨hlive, hmem⟩
    refine ⟨⟨orgId, userId, .owner⟩, List.mem_filter.mpr ⟨List.mem_filter.mpr ⟨hmem, ?_⟩, ?_⟩, rfl⟩
    · exact decide_eq_true ⟨rfl, hlive⟩
    · exact decide_eq_true rfl

theorem mem_putMember_other {m : OrganizationUser} (hm : m ∈ w.members) (hne : m.key ≠ (k, u)) :
    m ∈ (w.putMember k u role).members := by
  unfold OrgWorld.putMember
  split
  · refine List.mem_map.mpr ⟨m, hm, if_neg ?_⟩
    rintro ⟨rfl, rfl⟩
    exact hne rfl
  · exact List.mem_append_left _ hm

theorem mem_putMember_self : ⟨k, u, role⟩ ∈ (w.putMember k u role).members := by
  unfold OrgWorld.putMember
  split
  · rename_i hthere
    obtain ⟨m, hm, hkey⟩ := List.any_eq_true.mp hthere
    obtain ⟨rfl, rfl⟩ := of_decide_eq_true hkey
    exact List.mem_map.mpr ⟨m, hm, if_pos ⟨rfl, rfl⟩⟩
  · exact List.mem_append_right _ (List.mem_singleton_self _)

theorem getUser_putMember : (w.putMember k u role).getUser userId = w.getUser userId := by
  unfold OrgWorld.putMember
  split <;> rfl

theorem LiveOwner.put_other (h : w.LiveOwner orgId userId) (hne : (orgId, userId) ≠ (k, u)) :
    (w.putMember k u role).LiveOwner orgId userId := by
  obtain ⟨hlive, hmem⟩ := liveOwner_iff.mp h
  refine liveOwner_iff.mpr ⟨?_, mem_putMember_other hmem hne⟩
  rwa [getUser_putMember]

theorem LiveOwner.put_owner (h : w.LiveOwner orgId userId) :
    (w.putMember k u .owner).LiveOwner orgId userId := by
  by_cases hsame : (orgId, userId) = (k, u)
  · obtain ⟨rfl, rfl⟩ := Prod.mk.inj hsame
    refine liveOwner_iff.mpr ⟨?_, mem_putMember_self⟩
    rw [getUser_putMember]
    exact (liveOwner_iff.mp h).1
  · exact LiveOwner.put_other h hsame

theorem LiveOwner.drop_other (h : w.LiveOwner orgId userId) (hne : (orgId, userId) ≠ (k, u)) :
    (w.dropMember k u).LiveOwner orgId userId := by
  obtain ⟨hlive, hmem⟩ := liveOwner_iff.mp h
  refine liveOwner_iff.mpr ⟨hlive, List.mem_filter.mpr ⟨hmem, decide_eq_true ?_⟩⟩
  rintro ⟨rfl, rfl⟩
  exact hne rfl

theorem LiveOwner.users {user : User} (h : w.LiveOwner orgId userId) :
    ({ w with users := w.users ++ [user] } : OrgWorld).LiveOwner orgId userId := by
  obtain ⟨hlive, hmem⟩ := liveOwner_iff.mp h
  obtain ⟨found, hfound⟩ := Option.isSome_iff_exists.mp hlive
  refine liveOwner_iff.mpr ⟨?_, hmem⟩
  have hfirst : ({ w with users := w.users ++ [user] } : OrgWorld).getUser userId = some found := by
    rw [AuthStore.getUser] at hfound ⊢
    rw [List.find?_append, hfound]
    rfl
  rw [hfirst]
  rfl

theorem nodup_owners (s : MemberTables) (orgId : String) :
    (ownersIn (s.world.listMembers orgId)).Nodup := by
  unfold ownersIn
  refine List.Nodup.of_map (fun userId => (orgId, userId)) ?_
  rw [List.map_map]
  have hkeys : ∀ m ∈ (s.world.listMembers orgId).filter (fun m => m.role = .owner),
      ((fun userId => (orgId, userId)) ∘ fun m : OrganizationUser => m.userId) m = m.key := by
    intro m hm
    obtain ⟨-, hlive⟩ := List.mem_filter.mp (List.mem_filter.mp hm).1
    obtain ⟨rfl, -⟩ := of_decide_eq_true hlive
    rfl
  rw [List.map_congr_left hkeys]
  exact s.unique.sublist ((List.filter_sublist.trans List.filter_sublist).map _)

end Statements

/-! The invariant. -/

/-- An owner is left, and whoever has seen the owners has seen one or more. -/
structure Owned (orgId : String) (S : Multiset Guard) (s : MemberTables) : Prop where
  owner : ∃ u, s.world.LiveOwner orgId u
  seen : ∀ owners, .checked orgId owners ∈ S → owners ≠ [] ∧ owners.Nodup

section Steps

variable {orgId : String} {g : Guard} {N S : Multiset Guard} {s : MemberTables}

/-- One of the owners seen is not the user concerned. -/
theorem other_owner {owners : List String} {u : String} (hseen : owners ≠ [] ∧ owners.Nodup)
    (hne : owners ≠ [u]) : ∃ v ∈ owners, v ≠ u := by
  by_contra hall
  have hsame : ∀ v ∈ owners, v = u := fun v hv => by_contra fun h => hall ⟨v, hv, h⟩
  obtain ⟨v, rest, rfl⟩ := List.exists_cons_of_ne_nil hseen.1
  obtain rfl := hsame v List.mem_cons_self
  cases rest with
  | nil => exact hne rfl
  | cons w rest =>
    obtain rfl := hsame w (List.mem_cons_of_mem _ List.mem_cons_self)
    exact (List.nodup_cons.mp hseen.2).1 List.mem_cons_self

def MemberOp.lists : MemberOp → Bool
  | .listMembers _ => true
  | _ => false

theorem note_same {o : MemberOp} {r : MemberRes o} (ho : o.lists = false) : g.note ⟨o, r⟩ = g := by
  cases o with
  | listMembers k => cases ho
  | _ => cases g <;> rfl

theorem owned_listMembers (h : Owned orgId (g ::ₘ N) s) (k : String) :
    Owned orgId (g.note ⟨.listMembers k, s.world.listMembers k⟩ ::ₘ N) s := by
  refine ⟨h.owner, fun owners hin => ?_⟩
  rcases Multiset.mem_cons.mp hin with hg | hin
  · cases g with
    | asking =>
      obtain ⟨rfl, rfl⟩ := Guard.checked.inj hg
      obtain ⟨u, hu⟩ := h.owner
      exact ⟨List.ne_nil_of_mem hu, nodup_owners s orgId⟩
    | adding => cases hg
    | checked k' found => exact h.seen owners (hg ▸ Multiset.mem_cons_self ..)
  · exact h.seen owners (Multiset.mem_cons_of_mem hin)

/-- An owner is left after a role was set. -/
theorem owner_after_put (h : Owned orgId (g ::ₘ N) s) {k u : String} {role : OrgRole}
    (hpermit : g.Permits (.putMember k u role))
    (hsafe : g.Safe orgId s.world (.putMember k u role)) :
    ∃ v, (s.world.putMember k u role).LiveOwner orgId v := by
  obtain ⟨v, hv⟩ := h.owner
  by_cases hrole : role = .owner
  · subst hrole
    exact ⟨v, LiveOwner.put_owner hv⟩
  by_cases hk : k = orgId
  · subst hk
    cases g with
    | adding =>
      have hnot := (hsafe rfl).resolve_left hrole
      refine ⟨v, LiveOwner.put_other hv fun hsame => hnot ?_⟩
      rwa [← (Prod.mk.inj hsame).2]
    | asking => exact absurd hpermit hrole
    | checked k' owners =>
      obtain ⟨rfl, hne⟩ := hpermit
      obtain ⟨w, hw, hother⟩ := other_owner (h.seen owners (Multiset.mem_cons_self ..)) hne
      exact ⟨w, LiveOwner.put_other ((hsafe rfl).resolve_left hrole w hw)
        fun hsame => hother (Prod.mk.inj hsame).2⟩
  · exact ⟨v, LiveOwner.put_other hv fun hsame => hk (Prod.mk.inj hsame).1.symm⟩

/-- An owner is left after a membership was removed. -/
theorem owner_after_drop (h : Owned orgId (g ::ₘ N) s) {k u : String}
    (hpermit : g.Permits (.dropMember k u)) (hsafe : g.Safe orgId s.world (.dropMember k u)) :
    ∃ v, (s.world.dropMember k u).LiveOwner orgId v := by
  by_cases hk : k = orgId
  · subst hk
    cases g with
    | adding => exact hpermit.elim
    | asking => exact hpermit.elim
    | checked k' owners =>
      obtain ⟨rfl, hne⟩ := hpermit
      obtain ⟨v, hv, hother⟩ := other_owner (h.seen owners (Multiset.mem_cons_self ..)) hne
      exact ⟨v, LiveOwner.drop_other (hsafe rfl v hv) fun hsame => hother (Prod.mk.inj hsame).2⟩
  · obtain ⟨v, hv⟩ := h.owner
    exact ⟨v, LiveOwner.drop_other hv fun hsame => hk (Prod.mk.inj hsame).1.symm⟩

theorem owned_step (h : Owned orgId (g ::ₘ N) s) {o : MemberOp} (r : MemberRes o)
    (hpermit : g.Permits o)
    (hsafe : g.Safe orgId s.world o) :
    Owned orgId (g.note ⟨o, (memberHandler o r s).1⟩ ::ₘ N) (memberHandler o r s).2 := by
  cases o with
  | listMembers k => exact owned_listMembers h k
  | createUser user =>
    rw [note_same rfl]
    change Owned orgId (g ::ₘ N) (s.createUser user).2
    rw [MemberTables.createUser]
    split
    · exact h
    · obtain ⟨v, hv⟩ := h.owner
      exact ⟨⟨v, LiveOwner.users hv⟩, h.seen⟩
  | putMember k u role =>
    rw [note_same rfl]
    exact ⟨owner_after_put h hpermit hsafe, h.seen⟩
  | dropMember k u =>
    rw [note_same rfl]
    exact ⟨owner_after_drop h hpermit hsafe, h.seen⟩
  | _ =>
    rw [note_same rfl]
    exact h

theorem preserves_owned (orgId : String) :
    Preserves memberServer (SafelyWritten orgId) guarding MemberCall.first (fun _ _ _ => True)
      (Owned orgId) where
  accept c N s s' h hs := by
    cases hs
    refine ⟨h.owner, fun owners hin => ?_⟩
    rcases Multiset.mem_cons.mp hin with hg | hin
    · cases c <;> cases hg
    · exact h.seen owners hin
  perform p t N o r hnotes h hpermit hsafe := ⟨trivial, owned_step h r hpermit hsafe⟩
  release _ _ _ _ _ _ _ h _ hs := by
    cases hs
    exact ⟨h.owner, fun owners hin => h.seen owners (Multiset.mem_cons_of_mem hin)⟩

end Steps

/-! The only owner is added again, as a member. -/

instance (orgId : String) (w : OrgWorld) (g : Guard) (o : MemberOp) :
    Decidable (g.Safe orgId w o) := by
  cases g <;> cases o <;> dsimp only [Guard.Safe] <;> infer_instance

instance (orgId : String)
    (p : Pool MemberCall MemberOp MemberRes MemberTables (Except OrgError Unit))
    (t : Thread MemberCall MemberOp MemberRes (Except OrgError Unit)) (e : MemberEvent) :
    Decidable (SafelyWritten orgId p t e) := by
  unfold SafelyWritten
  infer_instance

def atelier : OrgWorld :=
  { users := [{ id := "ann", email := "ann@atelier" }, { id := "bob", email := "bob@atelier" }]
    orgs := [{ id := "atelier", plan := .starter, name := "Atelier", slug := "atelier" }]
    members := [⟨"atelier", "ann", .owner⟩] }

/-- Ann is the only owner. -/
def annOwns : MemberTables := ⟨atelier, by decide⟩

def annAndBobOwn : MemberTables :=
  ⟨atelier.putMember "atelier" "bob" .owner, by decide⟩

def unasked : (o : MemberOp) → MemberRes o
  | .getOrg _ | .getByEmail _ | .createUser _ | .getMembership _ _ => none
  | .listMembers _ => []
  | .putMember _ _ _ | .dropMember _ _ => ()

def performs (i count : ℕ) : List (Move MemberCall MemberOp MemberRes) :=
  List.replicate count (.perform i unasked)

def demotion : List (Move MemberCall MemberOp MemberRes) :=
  .start (.addMember "atelier" { id := "new", email := "Ann@atelier" } .member) ::
    (performs 0 3 ++ [.leave 0 false])

/-- Two owners step down at once: each check sees the other. -/
def steppingDown : List (Move MemberCall MemberOp MemberRes) :=
  [.start (.updateMember "atelier" "ann" .member), .start (.removeMember "atelier" "bob")] ++
    performs 0 2 ++ performs 1 2 ++ performs 0 1 ++ performs 1 1

example : (memberServer.play (fun _ _ _ => True) steppingDown ⟨[], annAndBobOwn⟩).map
    (fun p => ownersIn (p.state.world.listMembers "atelier")) = some [] := by decide

/-- One after the other, the second is refused. -/
def inTurn : List (Move MemberCall MemberOp MemberRes) :=
  .start (.updateMember "atelier" "ann" .member) :: (performs 0 3 ++ [.leave 0 false]) ++
    .start (.removeMember "atelier" "bob") :: performs 0 2

end EventLens.Auth
