import EventLens.OrgClosure
import EventLens.Pools

/-!
Plan changes that overlap. A change reads the organisation, works out the plan
and the limits and writes all three back in one statement. So limits and plan
always fit together. The plan is written back also by a change that submits
none, and takes along what was submitted since its read; it leaves the plan
alone when no plan is changed between its read and its write.
-/

namespace EventLens.Auth

open Ingest (OrgPlan)
open Programs Contract

/-- What a plan change writes; a limit may be left as it is. -/
structure PlanPatch where
  plan : OrgPlan
  storageLimitBytes : Option (Option ℕ) := none
  eventLimit : Option (Option ℕ) := none
deriving DecidableEq, Repr

/-- The plan and the limits of an organisation in an audit record. -/
structure PlanTerms where
  plan : OrgPlan
  storageLimitBytes : Option ℕ
  eventLimit : Option ℕ
deriving DecidableEq, Repr

structure PlanAudit where
  action : String
  before : PlanTerms
  after : PlanTerms
  orgId : String
  userId : String
deriving DecidableEq, Repr

inductive PlanOp
  | getById (orgId : String)
  | update (orgId : String) (patch : PlanPatch)
  | record (entry : PlanAudit)
deriving DecidableEq, Repr

abbrev PlanRes : PlanOp → Type
  | .getById _ => Option Organization
  | .update _ _ => Option Organization
  | .record _ => Unit

abbrev PlanProg := Prog PlanOp PlanRes
abbrev PlanEvent := Event PlanOp PlanRes

/-- A request to change a plan. -/
structure PlanCall where
  orgId : String
  dto : UpdatePlan
  actorId : String
deriving DecidableEq, Repr

inductive PlanError
  | refused (error : OrgError)
  | noResult
deriving DecidableEq, Repr

def PlanPatch.apply (patch : PlanPatch) (org : Organization) : Organization :=
  { org with
    plan := patch.plan
    storageLimitBytes := patch.storageLimitBytes.getD org.storageLimitBytes
    eventLimit := patch.eventLimit.getD org.eventLimit }

/-- The effect of each statement on the organisations. -/
def planHandler : Handler PlanOp PlanRes (List Organization)
  | .getById orgId, _, orgs => (orgs.find? (fun org => org.id = orgId ∧ org.deleted = false), orgs)
  | .update orgId patch, _, orgs =>
    let orgs := orgs.map (fun org => if org.id = orgId then patch.apply org else org)
    (orgs.find? (fun org => org.id = orgId), orgs)
  | .record _, _, orgs => ((), orgs)

def Organization.terms (org : Organization) : PlanTerms :=
  { plan := org.plan, storageLimitBytes := org.storageLimitBytes, eventLimit := org.eventLimit }

/-- A limit is submitted, not null, for a plan that is not Enterprise. -/
def UpdatePlan.overreaches (dto : UpdatePlan) (plan : OrgPlan) : Bool :=
  (dto.storageLimitBytes.join.isSome || dto.eventLimit.join.isSome) && plan ≠ .enterprise

/-- The patch of a change that results in the plan. -/
def UpdatePlan.patch (dto : UpdatePlan) (plan : OrgPlan) : PlanPatch :=
  if plan = .enterprise then
    { plan := plan, storageLimitBytes := dto.storageLimitBytes, eventLimit := dto.eventLimit }
  else { plan := plan, storageLimitBytes := some none, eventLimit := some none }

/-- `OrganizationService.updatePlan`. -/
def updatePlan (c : PlanCall) : PlanProg (Except PlanError Organization) :=
  .perform (.getById c.orgId) fun found =>
    match (found : Option Organization) with
    | none => .done (.error (.refused (.notFound "Organization not found")))
    | some before =>
      let plan := c.dto.plan.getD before.plan
      if c.dto.overreaches plan then
        .done (.error
          (.refused (.badRequest ("Custom storage and event limits are only available " ++
          "on the Enterprise plan. Change the plan first."))))
      else
        .perform (.update c.orgId (c.dto.patch plan)) fun updated =>
          match (updated : Option Organization) with
          | none => .done (.error .noResult)
          | some after =>
            .perform (.record
              { action := if before.plan = after.plan then "subscription.limits.changed"
                  else "subscription.plan.changed"
                before := before.terms, after := after.terms
                orgId := c.orgId, userId := c.actorId }) fun _ => .done (.ok after)

def planServer :
    Server PlanCall PlanOp PlanRes (List Organization) (Except PlanError Organization) where
  handler := planHandler
  prog := updatePlan
  accept _ orgs := some orgs
  release _ _ _ orgs := some orgs

abbrev PlanPool := Pool PlanCall PlanOp PlanRes (List Organization) (Except PlanError Organization)
abbrev PlanThread := Thread PlanCall PlanOp PlanRes (Except PlanError Organization)
abbrev PlanMove := Move PlanCall PlanOp PlanRes

/-- Only an organisation on Enterprise has limits of its own. -/
def LimitsFit (orgs : List Organization) : Prop :=
  ∀ org ∈ orgs, org.plan ≠ .enterprise → org.storageLimitBytes = none ∧ org.eventLimit = none

/-- The plans of the organisations. -/
def plansOf (orgs : List Organization) : List (String × OrgPlan) :=
    orgs.map (fun org => (org.id, org.plan))

/-- A call and the plan it has read and is going to write from. -/
structure PlanNote where
  call : PlanCall
  held : Option OrgPlan := none

def PlanNote.note (g : PlanNote) : PlanEvent → PlanNote
  | ⟨.getById _, r⟩ =>
    { g with
      held := ((r : Option Organization).map (fun org => org.plan)).filter
        (fun plan => ¬ g.call.dto.overreaches (g.call.dto.plan.getD plan)) }
  | ⟨.update _ _, _⟩ => { g with held := none }
  | ⟨.record _, _⟩ => g

def PlanNote.Permits (g : PlanNote) : PlanOp → Prop
  | .getById orgId => orgId = g.call.orgId
  | .update orgId patch => orgId = g.call.orgId ∧
      ∃ plan, g.held = some plan ∧ patch = g.call.dto.patch (g.call.dto.plan.getD plan)
  | .record _ => True

def planning : Contract PlanOp PlanRes PlanNote where
  note := PlanNote.note
  expects _ _ := True
  permits := PlanNote.Permits

/-- What the calls in progress have read. -/
def noteOf (t : PlanThread) : PlanNote := t.notes planning (fun c => { call := c })

/-- No plan is changed to a submitted one while a change of the organisation
that submits none is between its read and its write. -/
def Undisturbed (p : PlanPool) (t : PlanThread) (e : PlanEvent) : Prop :=
  match e.1 with
  | .update orgId patch =>
    (t.call.dto.plan ≠ none ∧ ∃ org ∈ p.state, org.id = orgId ∧ patch.plan ≠ org.plan) →
      ∀ t' ∈ p.threads, t'.call.orgId = orgId → t'.call.dto.plan = none → (noteOf t').held = none
  | _ => True

instance (p : PlanPool) (t : PlanThread) (e : PlanEvent) : Decidable (Undisturbed p t e) := by
  obtain ⟨o, r⟩ := e
  cases o <;> dsimp only [Undisturbed] <;> infer_instance

section Calls

theorem updatePlan_follows (c : PlanCall) :
    planning.Follows (updatePlan c) (fun _ _ => True) { call := c } := by
  refine ⟨rfl, fun found _ => ?_⟩
  cases found with
  | none => trivial
  | some before =>
    change planning.Follows (if c.dto.overreaches (c.dto.plan.getD before.plan) =
      true then _ else _) _ _
    split
    · trivial
    next hok =>
      refine ⟨⟨rfl, before.plan, ?_, rfl⟩, fun updated _ => ?_⟩
      · simp [planning, PlanNote.note, hok]
      · cases updated with
        | none => trivial
        | some after => exact ⟨trivial, fun _ _ => trivial⟩

theorem noteOf_call (t : PlanThread) : (noteOf t).call = t.call := by
  have hfold :
    ∀ (past : List PlanEvent) (g : PlanNote), (past.foldl PlanNote.note g).call = g.call := by
    intro past
    induction past with
    | nil => exact fun _ => rfl
    | cons e past ih =>
      intro g
      obtain ⟨o, r⟩ := e
      rw [List.foldl_cons, ih]
      cases o <;> rfl
  exact hfold t.past _

end Calls

section Limits

variable {orgs : List Organization} {orgId : String}

theorem mem_updated {f : Organization → Organization} {org : Organization}
    (h : org ∈ orgs.map (fun org => if org.id = orgId then f org else org)) :
    (∃ old ∈ orgs, old.id = orgId ∧ org = f old) ∨ (org ∈ orgs ∧ org.id ≠ orgId) := by
  obtain ⟨old, hold, rfl⟩ := List.mem_map.mp h
  by_cases hid : old.id = orgId
  · exact .inl ⟨old, hold, hid, if_pos hid⟩
  · rw [if_neg hid]
    exact .inr ⟨hold, hid⟩

/-- What a change writes fits together. -/
theorem LimitsFit.patched (h : LimitsFit orgs) (dto : UpdatePlan) (plan : OrgPlan) :
    LimitsFit
    (orgs.map (fun org => if org.id = orgId then (dto.patch plan).apply org else org)) := by
  intro org horg hplan
  rcases mem_updated horg with ⟨old, -, -, rfl⟩ | ⟨horg, -⟩
  · by_cases hent : plan = .enterprise
    · simp [UpdatePlan.patch, PlanPatch.apply, hent] at hplan
    · simp [UpdatePlan.patch, PlanPatch.apply, hent]
  · exact h org horg hplan

theorem limits_preserved :
    Preserves planServer (fun _ _ _ => True) planning (fun c => { call := c }) (fun _ _ _ => True)
      (fun _ orgs => LimitsFit orgs) where
  accept := by
    intro c N orgs orgs' h horgs
    cases horgs
    exact h
  perform := by
    intro p t N o r hnotes h hpermit _
    refine ⟨trivial, ?_⟩
    cases o with
    | getById orgId => exact h
    | record entry => exact h
    | update orgId patch =>
      obtain ⟨-, plan, -, rfl⟩ := hpermit
      exact h.patched _ _
  release := by
    intro c value g again N orgs orgs' h _ horgs
    cases horgs
    exact h

end Limits

/-- A change that submits no plan still finds the plan it has read. -/
structure PlansHeld (N : Multiset PlanNote) (orgs : List Organization) : Prop where
  ids : (orgs.map (fun org => org.id)).Nodup
  held : ∀ g ∈ N, g.call.dto.plan = none → ∀ plan, g.held = some plan →
    ∀ org ∈ orgs, org.id = g.call.orgId → org.plan = plan

section Plans

variable {N : Multiset PlanNote} {orgs : List Organization} {g g' : PlanNote} {orgId : String}

theorem PlansHeld.noted (h : PlansHeld (g ::ₘ N) orgs) (hheld : g'.call.dto.plan = none → ∀ plan,
    g'.held = some plan → ∀ org ∈ orgs, org.id = g'.call.orgId → org.plan = plan) :
    PlansHeld (g' ::ₘ N) orgs where
  ids := h.ids
  held := by
    intro g₁ hg₁
    rcases Multiset.mem_cons.mp hg₁ with rfl | hg₁
    · exact hheld
    · exact h.held g₁ (Multiset.mem_cons_of_mem hg₁)

/-- The plan read is that of the organisation's one row. -/
theorem PlansHeld.read (h : PlansHeld (g ::ₘ N) orgs)
    {found : Option Organization}
    (hfound : found = orgs.find? (fun org => org.id = g.call.orgId ∧ org.deleted = false)) :
    PlansHeld (g.note ⟨.getById g.call.orgId, found⟩ ::ₘ N) orgs := by
  refine h.noted fun _ plan hplan org horg hid => ?_
  obtain ⟨hread, -⟩ := Option.filter_eq_some_iff.mp hplan
  obtain ⟨before, hbefore, rfl⟩ := Option.map_eq_some_iff.mp hread
  rw [hfound] at hbefore
  have hmem := List.mem_of_find?_eq_some hbefore
  have hids : before.id = g.call.orgId ∧ before.deleted = false := by
    simpa using List.find?_some hbefore
  rw [List.inj_on_of_nodup_map h.ids horg hmem (hid.trans hids.1.symm)]

/-- A write that no change is disturbed by leaves the plans read in place. -/
theorem PlansHeld.written (h : PlansHeld (g ::ₘ N) orgs) {patch : PlanPatch}
    (hcalm : ∀ old ∈ orgs, old.id = orgId → patch.plan = old.plan ∨
      ∀ g' ∈ N, g'.call.orgId = orgId → g'.call.dto.plan = none → g'.held = none)
    (hnote : g'.held = none) :
    PlansHeld (g' ::ₘ N)
    (orgs.map (fun org => if org.id = orgId then patch.apply org else org)) where
  ids := by
    have hsame : (orgs.map (fun org => if org.id = orgId then patch.apply org else org)).map
        (fun org => org.id) = orgs.map (fun org => org.id) := by
      rw [List.map_map]
      apply List.map_congr_left
      intro org _
      simp only [Function.comp_apply]
      split <;> rfl
    rw [hsame]
    exact h.ids
  held := by
    intro g₁ hg₁ hnone plan hplan org horg hid
    rcases Multiset.mem_cons.mp hg₁ with rfl | hg₁
    · rw [hnote] at hplan
      cases hplan
    · have hold := h.held g₁ (Multiset.mem_cons_of_mem hg₁) hnone plan hplan
      rcases mem_updated horg with ⟨old, hmem, holdId, rfl⟩ | ⟨horg, -⟩
      · have hg₁Id : g₁.call.orgId = orgId := hid.symm.trans holdId
        rcases hcalm old hmem holdId with hsame | hcalm
        · exact hsame.trans (hold old hmem (holdId.trans hg₁Id.symm))
        · rw [hcalm g₁ hg₁ hg₁Id hnone] at hplan
          cases hplan
      · exact hold org horg hid

theorem patch_plan (dto : UpdatePlan) (plan : OrgPlan) : (dto.patch plan).plan = plan := by
  unfold UpdatePlan.patch
  split <;> rfl

theorem plans_preserved :
    Preserves planServer Undisturbed planning (fun c => { call := c })
    (fun _ _ _ => True) PlansHeld where
  accept := by
    intro c N orgs orgs' h horgs
    cases horgs
    refine ⟨h.ids, fun g hg => ?_⟩
    rcases Multiset.mem_cons.mp hg with rfl | hg
    · intro _ plan hplan
      cases hplan
    · exact h.held g hg
  perform := by
    intro p t N o r hnotes h hpermit hcalm
    refine ⟨trivial, ?_⟩
    cases o with
    | record entry => exact h
    | getById orgId =>
      cases hpermit
      exact h.read rfl
    | update orgId patch =>
      obtain ⟨hid, plan, hplan, hpatch⟩ := hpermit
      refine h.written ?_ rfl
      intro old hold holdId
      by_cases hsame : patch.plan = old.plan
      · exact .inl hsame
      · refine .inr fun g' hg' hg'Id hnone => ?_
        have hmem : g' ∈ notesOf planning (fun c => { call := c }) p.threads := by
          rw [hnotes]
          exact Multiset.mem_cons_of_mem hg'
        obtain ⟨t', ht', rfl⟩ := mem_notesOf.mp hmem
        have hcall : ∀ t : PlanThread, (t.notes planning (fun c => { call := c })).call = t.call :=
          noteOf_call
        rw [hcall] at hg'Id hnone
        refine hcalm ⟨fun hplanless => hsame ?_, old, hold, holdId, hsame⟩ t' ht' hg'Id hnone
        have hheld :=
          h.held _ (Multiset.mem_cons_self _ N) ((hcall t).symm ▸ hplanless) plan hplan old hold
          (holdId.trans hid)
        rw [hpatch, patch_plan, hcall, hplanless]
        exact hheld.symm
  release := by
    intro c value g again N orgs orgs' h _ horgs
    cases horgs
    exact ⟨h.ids, fun g hg => h.held g (Multiset.mem_cons_of_mem hg)⟩

theorem plansOf_updated {patch : PlanPatch}
    (h : ∀ org ∈ orgs, org.id = orgId → patch.plan = org.plan) :
    plansOf (orgs.map (fun org => if org.id = orgId then patch.apply org else org)) =
    plansOf orgs := by
  rw [plansOf, plansOf, List.map_map]
  apply List.map_congr_left
  intro org horg
  by_cases hid : org.id = orgId
  · simp [hid, PlanPatch.apply, ← h org horg hid]
  · simp [hid]

end Plans

section Runs

variable {orgs : List Organization} {p p' : PlanPool} {m : PlanMove} {t : PlanThread}
  {e : PlanEvent}

theorem limits_fit (hfit : LimitsFit orgs)
    (h : planServer.Reaches (fun _ _ _ => True) ⟨[], orgs⟩ p) :
    LimitsFit p.state :=
  (h.invariant updatePlan_follows limits_preserved rfl hfit).2

/-- A change that submits no plan leaves all plans as they are. -/
theorem plans_untouched (hids : (orgs.map (fun org => org.id)).Nodup)
    (h : planServer.Reaches Undisturbed ⟨[], orgs⟩ p) (hevent : planServer.event m p = some (t, e))
    (hstep : planServer.step m p = some p') (hplanless : t.call.dto.plan = none) :
    plansOf p'.state = plansOf p.state := by
  obtain ⟨N, -, -, hheld, hpermit, -⟩ := h.event updatePlan_follows plans_preserved rfl
    ⟨hids, by simp⟩ hevent
  have hcall : (t.notes planning (fun c => { call := c })).call = t.call := noteOf_call t
  cases m with
  | start c => cases hevent
  | leave i again => cases hevent
  | perform i answers =>
    obtain ⟨before, after, c, past, o, next, -, hevent', rfl⟩ := Server.step_perform hstep
    rw [hevent'] at hevent
    cases hevent
    cases o with
    | getById orgId => rfl
    | record entry => rfl
    | update orgId patch =>
      obtain ⟨hid, plan, hplan, hpatch⟩ := hpermit
      refine plansOf_updated fun org horg horgId => ?_
      rw [hpatch, patch_plan, hcall, hplanless]
      exact (hheld.held _ (Multiset.mem_cons_self _ N) (hcall.symm ▸ hplanless) plan hplan org horg
        (horgId.trans hid)).symm

end Runs

/-- In every run limits and plan fit together. In a run where no plan changes
between the read and the write of a change that submits none, such a change
leaves the plan as it is. -/
theorem plan_changes_consistent (orgs : List Organization)
    (hids : (orgs.map (fun org => org.id)).Nodup)
    (hfit : LimitsFit orgs) :
    (∀ p, planServer.Reaches (fun _ _ _ => True) ⟨[], orgs⟩ p → LimitsFit p.state) ∧
      ∀ p, planServer.Reaches Undisturbed ⟨[], orgs⟩ p → ∀ m t e p',
        planServer.event m p = some (t, e) → planServer.step m p = some p' →
        t.call.dto.plan = none →
        plansOf p'.state = plansOf p.state := by
  refine ⟨fun p h => limits_fit hfit h, ?_⟩
  intro p h m t e p' hevent hstep hplanless
  exact plans_untouched hids h hevent hstep hplanless

def starterOrg : Organization :=
    { id := "atelier", plan := .starter, name := "Atelier", slug := "atelier" }

def upgrade : PlanCall :=
    { orgId := "atelier", dto := { plan := some .enterprise }, actorId := "admin" }

/-- Limits are cleared, whatever the plan is. -/
def clearLimits : PlanCall :=
  { orgId := "atelier", dto := { storageLimitBytes := some none }, actorId := "support" }

def noAnswer : (o : PlanOp) → PlanRes o
  | .getById _ => none
  | .update _ _ => none
  | .record _ => ()

/-- The organisation is upgraded and then has its limits cleared. -/
def upgradedFirst : List PlanMove :=
  [.start upgrade, .perform 0 noAnswer, .perform 0 noAnswer, .start clearLimits,
    .perform 1 noAnswer]

theorem plan_changes_consistent_upgradedFirst :
    ∃ p, planServer.play Undisturbed upgradedFirst ⟨[], [starterOrg]⟩ = some p ∧ LimitsFit p.state ∧
      ∀ p', planServer.step (.perform 1 noAnswer) p = some p' →
      plansOf p'.state = plansOf p.state := by
  let p := (planServer.play Undisturbed upgradedFirst ⟨[], [starterOrg]⟩).get (by decide)
  have hplay : planServer.play Undisturbed upgradedFirst ⟨[], [starterOrg]⟩ = some p :=
    (Option.some_get _).symm
  have hreached : planServer.Reaches Undisturbed ⟨[], [starterOrg]⟩ p :=
    Server.Reaches.start.play upgradedFirst hplay
  have hids : ([starterOrg].map (fun org => org.id)).Nodup := by decide
  have hfit : LimitsFit [starterOrg] := by simp [LimitsFit, starterOrg]
  have hnext : ((planServer.event (.perform 1 noAnswer) p).map (fun te => te.1.call.dto.plan)) =
      some none := by decide
  obtain ⟨⟨t, e⟩, hevent, hplanless⟩ := Option.map_eq_some_iff.mp hnext
  obtain ⟨hlimits, hplans⟩ := plan_changes_consistent [starterOrg] hids hfit
  exact ⟨p, hplay, hlimits p (hreached.mono fun _ _ _ _ => trivial),
    fun p' hstep => hplans p hreached _ t e p' hevent hstep hplanless⟩

/-- The organisation is upgraded after its limits were looked at to be cleared. -/
def upgradedBetween : List PlanMove :=
  [.start clearLimits, .perform 0 noAnswer, .start upgrade, .perform 1 noAnswer,
    .perform 1 noAnswer]

/-- Clearing the limits takes the upgrade back. -/
theorem not_plan_changes_consistent :
    ¬ ∀ (orgs : List Organization), (orgs.map (fun org => org.id)).Nodup → LimitsFit orgs →
      ∀ p, planServer.Reaches (fun _ _ _ => True) ⟨[], orgs⟩ p → LimitsFit p.state ∧ ∀ m t e p',
        planServer.event m p = some (t, e) → planServer.step m p = some p' →
        t.call.dto.plan = none →
        plansOf p'.state = plansOf p.state := by
  intro h
  let p := (planServer.play (fun _ _ _ => True) upgradedBetween ⟨[], [starterOrg]⟩).get (by decide)
  have hplay : planServer.play (fun _ _ _ => True) upgradedBetween ⟨[], [starterOrg]⟩ = some p :=
    (Option.some_get _).symm
  let p' := (planServer.step (.perform 0 noAnswer) p).get (by decide)
  have hnext : ((planServer.event (.perform 0 noAnswer) p).map (fun te => te.1.call.dto.plan)) =
      some none := by decide
  obtain ⟨⟨t, e⟩, hevent, hplanless⟩ := Option.map_eq_some_iff.mp hnext
  have hsame := (h [starterOrg] (by decide) (by simp [LimitsFit, starterOrg]) p
    (Server.Reaches.start.play upgradedBetween hplay)).2 _ t e p' hevent (Option.some_get _).symm
      hplanless
  exact absurd hsame (by decide)

end EventLens.Auth
