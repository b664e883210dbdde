import EventLens.AuditTrail
import EventLens.Pools

/-!
How long rows of the audit log are kept. Each is written with its class; a daily
sweep drops the rows of two classes by their age, and an administrator may flush
a class or everything. No row goes otherwise, and a flush that takes in the rows
that are never deleted leaves a row of its own that tells of it.
-/

namespace EventLens.Audits

open Programs

inductive AuditRetention
  | sameDay | thirtyDays | never
deriving DecidableEq, Repr

def AuditRetention.text : AuditRetention → String
  | .sameDay => "same_day"
  | .thirtyDays => "thirty_days"
  | .never => "never"

/-- `AUDIT_DEFAULT_RETENTION`. -/
def defaultRetention : AuditCategory → AuditRetention
  | .auth | .organization | .event | .retention | .subscription => .never
  | .gpu | .job => .thirtyDays
  | .system => .sameDay

inductive AuditDetail
  | flush (retention : String) (removed : ℕ)
  | other (json : String)
deriving DecidableEq, Repr

structure AuditEntry where
  category : AuditCategory
  action : String
  message : String
  level : Option AuditLevel := none
  retention : Option AuditRetention := none
  detail : Option AuditDetail := none
  orgId : Option String := none
  userId : Option String := none
deriving DecidableEq, Repr

/-- The values of a row that is inserted. -/
structure NewAuditLog where
  category : AuditCategory
  action : String
  message : String
  level : AuditLevel
  retention : AuditRetention
  detail : Option AuditDetail
  orgId : Option String
  userId : Option String
deriving DecidableEq, Repr

def AuditEntry.values (entry : AuditEntry) : NewAuditLog where
  category := entry.category
  action := entry.action
  message := entry.message
  level := entry.level.getD .info
  retention := entry.retention.getD (defaultRetention entry.category)
  detail := entry.detail
  orgId := entry.orgId
  userId := entry.userId

/-- Its id and its time, in microseconds, are the database's. -/
structure AuditRow extends NewAuditLog where
  id : ℕ
  createdAt : ℤ
deriving DecidableEq, Repr

/-- How a row went: older than a date, or in a flush. -/
inductive Removal
  | swept (cutoff : ℤ)
  | flushed (retention : Option AuditRetention)
deriving DecidableEq, Repr

/-- A flush: its class, or all, and how many rows it removed. -/
abbrev Purge := Option AuditRetention × ℕ

/-- The table and the clock. The rest only keeps count: what went and how, the
dates that rows were swept up to, and the last flush to take in the rows that are
never deleted. -/
structure AuditStore where
  log : List AuditRow := []
  clock : ℤ := 0
  nextId : ℕ := 0
  gone : List (AuditRow × Removal) := []
  cutoffs : List (AuditRetention × ℤ) := []
  purged : Option Purge := none
deriving DecidableEq

inductive AuditOp
  | now
  | create (values : NewAuditLog)
  | deleteOlderThan (retention : AuditRetention) (cutoff : ℤ)
  | flush (retention : Option AuditRetention)
deriving DecidableEq

def AuditRes : AuditOp → Type
  | .now => ℤ
  | .create _ => Except String Unit
  | .deleteOlderThan _ _ | .flush _ => Except String ℕ

abbrev AuditProg := Prog AuditOp AuditRes
abbrev AuditEvent := Event AuditOp AuditRes

section Code

def now : AuditProg ℤ := .perform .now .done

def create (values : NewAuditLog) : AuditProg (Except String Unit) :=
    .perform (.create values) .done

def deleteOlderThan (retention : AuditRetention) (cutoff : ℤ) : AuditProg (Except String ℕ) :=
  .perform (.deleteOlderThan retention cutoff) .done

def flushRows (retention : Option AuditRetention) : AuditProg (Except String ℕ) :=
  .perform (.flush retention) .done

/-- `AuditLogService.record`: a failure goes to the process log only. -/
def record (entry : AuditEntry) : AuditProg Unit := do
  let _ ← create entry.values
  pure ()

def flushMessage (retention : Option AuditRetention) (removed : ℕ) : String :=
  match retention with
  | some retention => s!"Manually flushed {removed} \"{retention.text}\" audit entries"
  | none => s!"Manually flushed all {removed} audit entries, including never-delete"

def flushText (retention : Option AuditRetention) : String :=
    (retention.map AuditRetention.text).getD "all"

def flushEntry (retention : Option AuditRetention) (userId : String) (removed : ℕ) :
    AuditEntry where
  category := .retention
  action := "audit.flush"
  level := some .warning
  message := flushMessage retention removed
  detail := some (.flush (flushText retention) removed)
  userId := some userId

/-- `AuditLogService.flush`. -/
def flush (retention : Option AuditRetention) (userId : String) : AuditProg (Except String ℕ) := do
  match ← flushRows retention with
  | .error e => pure (.error e)
  | .ok removed => do
    record (flushEntry retention userId removed)
    pure (.ok removed)

def THIRTY_DAYS_MS : ℤ := 30 * 24 * 60 * 60 * 1000

/-- The two deletions do not wait for each other: either may come first. -/
def deleteBoth (startOfToday cutoff : ℤ) (thirtyFirst : Bool) :
    AuditProg (Except String ℕ × Except String ℕ) :=
  if thirtyFirst then do
    let thirtyDays ← deleteOlderThan .thirtyDays cutoff
    let sameDay ← deleteOlderThan .sameDay startOfToday
    pure (sameDay, thirtyDays)
  else do
    let sameDay ← deleteOlderThan .sameDay startOfToday
    let thirtyDays ← deleteOlderThan .thirtyDays cutoff
    pure (sameDay, thirtyDays)

/-- `handleAuditRetentionSweep`; `midnight` is the start of the day of an instant, where the
server is. Either deletion that fails fails the job. -/
def handleAuditRetentionSweep (midnight : ℤ → ℤ) (thirtyFirst : Bool) :
    AuditProg (Except String ℕ) := do
  let now ← now
  let (sameDay, thirtyDays) ← deleteBoth (midnight now) (now - THIRTY_DAYS_MS) thirtyFirst
  match sameDay, thirtyDays with
  | .ok n, .ok m => pure (.ok (n + m))
  | .error e, _ | _, .error e => pure (.error e)

end Code

section System

/-- The rows of a kind go. -/
def AuditStore.without (s : AuditStore) (selects : AuditRow → Bool) (removal : Removal) :
    AuditStore :=
  { s with
    log := s.log.filter fun row => !selects row
    gone := s.gone ++ (s.log.filter selects).map fun row => (row, removal) }

def isOlder (retention : AuditRetention) (cutoff : ℤ) (row : AuditRow) : Bool :=
  row.retention = retention ∧ row.createdAt < cutoff * 1000

def isOf (retention : Option AuditRetention) (row : AuditRow) : Bool :=
  retention.all fun retention => row.retention = retention

/-- A statement that fails does nothing. -/
def auditHandler : Handler AuditOp AuditRes AuditStore
  | .now, _, s => (s.clock / 1000, s)
  | .create _, .error e, s => (.error e, s)
  | .create values, .ok _, s =>
    (.ok (), { s with log :=
      s.log ++ [{ values with id := s.nextId, createdAt := s.clock }], nextId := s.nextId + 1 })
  | .deleteOlderThan _ _, .error e, s => (.error e, s)
  | .deleteOlderThan retention cutoff, .ok _, s =>
    (.ok (s.log.countP (isOlder retention cutoff)),
      { s.without (isOlder retention cutoff) (.swept cutoff) with cutoffs :=
        s.cutoffs ++ [(retention, cutoff)] })
  | .flush _, .error e, s => (.error e, s)
  | .flush retention, .ok _, s =>
    (.ok (s.log.countP (isOf retention)),
      { s.without (isOf retention) (.flushed retention) with
        purged :=
          if retention.all (· = .never) then some (retention, s.log.countP (isOf retention))
          else s.purged })

inductive AuditCall
  | record (entry : AuditEntry)
  | flush (retention : Option AuditRetention) (userId : String)
  | sweep (thirtyFirst : Bool)
  | elapse (us : ℕ)
deriving DecidableEq

def AuditCall.prog (midnight : ℤ → ℤ) : AuditCall → AuditProg (Except String ℕ)
  | .record entry => do
    Audits.record entry
    pure (.ok 0)
  | .flush retention userId => Audits.flush retention userId
  | .sweep thirtyFirst => handleAuditRetentionSweep midnight thirtyFirst
  | .elapse _ => pure (.ok 0)

/-- Anyone records, administrators flush, and sweeps run, side by side. -/
def auditServer (midnight : ℤ → ℤ) :
    Server AuditCall AuditOp AuditRes AuditStore (Except String ℕ) where
  handler := auditHandler
  prog := AuditCall.prog midnight
  accept c s :=
    match c with
    | .elapse us => some { s with clock := s.clock + us }
    | _ => some s
  release _ _ _ s := some s

abbrev AuditPool := Pool AuditCall AuditOp AuditRes AuditStore (Except String ℕ)
abbrev AuditThread := Thread AuditCall AuditOp AuditRes (Except String ℕ)

def auditStart : AuditPool := { threads := [], state := {} }

/-- The row that tells of a flush is written. -/
def tells : AuditEvent → Bool
  | ⟨.create values, r⟩ => values.action ≠ "audit.flush" || (r : Except String Unit).isOk
  | _ => true

abbrev Tells (_ : AuditPool) (_ : AuditThread) (e : AuditEvent) : Prop := tells e = true

end System

/-! What a call has done. -/

structure Flushing where
  call : AuditCall
  now : Option ℤ := none
  /-- The flush that it has yet to tell of. -/
  owes : Option (Option AuditRetention × ℕ) := none

def Flushing.first (c : AuditCall) : Flushing := { call := c }

/-- A row tells of a flush. -/
def NewAuditLog.tellsOf (values : NewAuditLog) (purge : Purge) : Prop :=
  values.retention = .never ∧ values.action = "audit.flush" ∧
    values.detail = some (.flush (flushText purge.1) purge.2)

def flushing (midnight : ℤ → ℤ) : Contract AuditOp AuditRes Flushing where
  note g
    | ⟨.now, t⟩ => { g with now := some t }
    | ⟨.create _, _⟩ => { g with owes := none }
    | ⟨.deleteOlderThan _ _, _⟩ => g
    | ⟨.flush retention, r⟩ =>
      match (r : Except String ℕ) with
      | .ok removed => { g with owes := some (retention, removed) }
      | .error _ => g
  expects _ _ := True
  permits g
    | .now => True
    | .create values => ∀ purge, g.owes = some purge → values.tellsOf purge
    | .deleteOlderThan retention cutoff => ∃ now, g.now = some now ∧
        (retention = .sameDay ∧ cutoff = midnight now ∨ retention = .thirtyDays ∧
          cutoff = now - THIRTY_DAYS_MS)
    | .flush retention => g.owes = none ∧ ∃ userId, g.call = .flush retention userId

section Calls

variable {midnight : ℤ → ℤ} {g : Flushing}

theorem tellsOf_flushEntry (retention : Option AuditRetention) (userId : String) (removed : ℕ) :
    (flushEntry retention userId removed).values.tellsOf (retention, removed) :=
  ⟨rfl, rfl, rfl⟩

/-- A call leaves with every flush told. -/
theorem calls_flushing (c : AuditCall) :
    (flushing midnight).Follows (c.prog midnight) (fun _ g => g.owes = none) (.first c) := by
  cases c with
  | record entry => exact ⟨fun _ h => (by cases h), fun _ _ => rfl⟩
  | elapse us => exact rfl
  | sweep thirtyFirst =>
    cases thirtyFirst with
    | true =>
      refine ⟨trivial,
        fun now _ =>
        ⟨⟨now, rfl, .inr ⟨rfl, rfl⟩⟩, fun thirtyDays _ => ⟨⟨now, rfl, .inl ⟨rfl, rfl⟩⟩, ?_⟩⟩⟩
      intro sameDay _
      cases sameDay <;> cases thirtyDays <;> exact rfl
    | false =>
      refine ⟨trivial,
        fun now _ =>
        ⟨⟨now, rfl, .inl ⟨rfl, rfl⟩⟩, fun sameDay _ => ⟨⟨now, rfl, .inr ⟨rfl, rfl⟩⟩, ?_⟩⟩⟩
      intro thirtyDays _
      cases sameDay <;> cases thirtyDays <;> exact rfl
  | flush retention userId =>
    refine ⟨⟨rfl, userId, rfl⟩, fun r _ => ?_⟩
    cases r with
    | error e => exact rfl
    | ok removed =>
      refine ⟨fun purge h => ?_, fun _ _ => rfl⟩
      cases h
      exact tellsOf_flushEntry retention userId removed

end Calls

/-! What holds at every moment. -/

/-- Why a row may be gone. -/
def Justified (midnight : ℤ → ℤ) (clock : ℤ) (row : AuditRow) : Removal → Prop
  | .swept cutoff => row.createdAt < cutoff * 1000 ∧ ∃ now, now * 1000 ≤ clock ∧
      (row.retention = .sameDay ∧ cutoff = midnight now ∨
        row.retention = .thirtyDays ∧ cutoff = now - THIRTY_DAYS_MS)
  | .flushed retention => isOf retention row = true

/-- Every row written is there or gone, for a reason; none is there that a sweep should have
taken. -/
structure Accounted (midnight : ℤ → ℤ) (s : AuditStore) : Prop where
  once : (s.log.map AuditRow.id ++ s.gone.map (fun x => x.1.id)).Perm (List.range s.nextId)
  justified : ∀ x ∈ s.gone, Justified midnight s.clock x.1 x.2
  swept : ∀ x ∈ s.cutoffs, ∀ row ∈ s.log, row.retention = x.1 → x.2 * 1000 ≤ row.createdAt

/-- The log tells of the last flush to take in the rows that are never deleted. -/
def AuditStore.Told (s : AuditStore) : Prop :=
  ∀ purge, s.purged = some purge → ∃ row ∈ s.log, row.tellsOf purge

structure Keeping (midnight : ℤ → ℤ) (N : Multiset Flushing) (s : AuditStore) : Prop where
  accounted : Accounted midnight s
  passed : ∀ x ∈ s.cutoffs, x.2 * 1000 ≤ s.clock
  clocked : ∀ g ∈ N, ∀ now, g.now = some now → now * 1000 ≤ s.clock
  called : ∀ g ∈ N, g.owes ≠ none → ∃ retention userId, g.call = .flush retention userId
  told : ∀ purge, s.purged = some purge → (∃ row ∈ s.log, row.tellsOf purge) ∨
    ∃ g ∈ N, g.owes = some purge
  purged : ∀ x ∈ s.gone, x.1.retention = .never → s.purged ≠ none

section Steps

variable {midnight : ℤ → ℤ} {N : Multiset Flushing} {s : AuditStore} {g : Flushing}

theorem Justified.later {clock clock' : ℤ} {row : AuditRow} {removal : Removal}
    (hle : clock ≤ clock')
    (h : Justified midnight clock row removal) : Justified midnight clock' row removal := by
  cases removal with
  | flushed retention => exact h
  | swept cutoff =>
    obtain ⟨hold, now, hnow, hclass⟩ := h
    exact ⟨hold, now, hnow.trans hle, hclass⟩

/-- A row is in one of the two lists as before. -/
theorem Accounted.without (h : Accounted midnight s) {selects : AuditRow → Bool} {removal : Removal}
    (hwhy : ∀ row ∈ s.log, selects row = true → Justified midnight s.clock row removal) :
    Accounted midnight (s.without selects removal) := by
  refine ⟨?_, ?_, fun x hx row hrow => h.swept x hx row (List.mem_of_mem_filter hrow)⟩
  · refine List.Perm.trans ?_ h.once
    have hsplit := (List.filter_append_perm selects s.log).map AuditRow.id
    rw [List.map_append] at hsplit
    simp only [AuditStore.without, List.map_append, List.map_map]
    refine List.Perm.trans (List.Perm.append_left _ List.perm_append_comm) ?_
    rw [← List.append_assoc]
    exact List.Perm.append_right _ (List.Perm.trans List.perm_append_comm hsplit)
  · intro x hx
    rcases List.mem_append.mp hx with hx | hx
    · exact h.justified x hx
    · obtain ⟨row, hrow, rfl⟩ := List.mem_map.mp hx
      obtain ⟨hrow, hselects⟩ := List.mem_filter.mp hrow
      exact hwhy row hrow hselects

theorem keeping_accept {c : AuditCall} {s' : AuditStore} (h : Keeping midnight N s)
    (hs : (auditServer midnight).accept c s = some s') : Keeping midnight (.first c ::ₘ N) s' := by
  have hsame : ∃ clock, s.clock ≤ clock ∧ s' = { s with clock := clock } := by
    cases c with
    | elapse us => exact ⟨s.clock + us, by omega, (Option.some.inj hs).symm⟩
    | _ => exact ⟨s.clock, le_rfl, (Option.some.inj hs).symm⟩
  obtain ⟨clock, hle, rfl⟩ := hsame
  refine ⟨⟨h.accounted.once, fun x hx => (h.accounted.justified x hx).later hle, h.accounted.swept⟩,
    fun x hx => (h.passed x hx).trans hle, ?_, ?_, ?_, h.purged⟩
  · intro g hg now hnow
    rcases Multiset.mem_cons.mp hg with rfl | hg
    · cases hnow
    · exact (h.clocked g hg now hnow).trans hle
  · intro g hg howes
    rcases Multiset.mem_cons.mp hg with rfl | hg
    · exact absurd rfl howes
    · exact h.called g hg howes
  · intro purge hpurge
    refine (h.told purge hpurge).imp_right fun ⟨g, hg, howes⟩ =>
      ⟨g, Multiset.mem_cons_of_mem hg, howes⟩

theorem keeping_release (h : Keeping midnight (g ::ₘ N) s) (hpost : g.owes = none) :
    Keeping midnight N s := by
  refine ⟨h.accounted, h.passed, fun g hg => h.clocked g (Multiset.mem_cons_of_mem hg),
    fun g hg => h.called g (Multiset.mem_cons_of_mem hg), ?_, h.purged⟩
  intro purge hpurge
  refine (h.told purge hpurge).imp_right fun ⟨g', hg', howes⟩ => ?_
  rcases Multiset.mem_cons.mp hg' with rfl | hg'
  · rw [hpost] at howes
    cases howes
  · exact ⟨g', hg', howes⟩

/-- What holds of the notes of every call holds still when those of one are
others of which it holds. -/
theorem replaced {holds : Flushing → Prop} {g' : Flushing} (hg' : holds g')
    (h : ∀ g'' ∈ g ::ₘ N, holds g'') :
    ∀ g'' ∈ g' ::ₘ N, holds g'' :=
  Multiset.forall_mem_cons.mpr ⟨hg', fun g'' hg => h g'' (Multiset.mem_cons_of_mem hg)⟩

/-- The notes of a call change, and it owes what it owed or has told it. -/
theorem Keeping.noted {g' : Flushing} (h : Keeping midnight (g ::ₘ N) s)
    (hclocked : ∀ now, g'.now = some now → now * 1000 ≤ s.clock)
    (hcalled : g'.owes ≠ none → ∃ retention userId, g'.call = .flush retention userId)
    (howes : ∀ purge, g.owes = some purge → g'.owes = some purge ∨
    ∃ row ∈ s.log, row.tellsOf purge) :
    Keeping midnight (g' ::ₘ N) s := by
  refine ⟨h.accounted, h.passed, replaced hclocked h.clocked, replaced hcalled h.called, ?_,
    h.purged⟩
  intro purge hpurge
  rcases h.told purge hpurge with hrow | ⟨g'', hg, howed⟩
  · exact .inl hrow
  · rcases Multiset.mem_cons.mp hg with rfl | hg
    · rcases howes purge howed with hsame | hrow
      · exact .inr ⟨g', Multiset.mem_cons_self _ _, hsame⟩
      · exact .inl hrow
    · exact .inr ⟨g'', Multiset.mem_cons_of_mem hg, howed⟩

theorem Keeping.written (h : Keeping midnight N s) (values : NewAuditLog) :
    Keeping midnight N
      { s with log := s.log ++ [{ values with id := s.nextId, createdAt := s.clock }], nextId :=
      s.nextId + 1 } := by
  refine ⟨⟨?_, h.accounted.justified, ?_⟩, h.passed, h.clocked, h.called, ?_, h.purged⟩
  · rw [List.range_succ, List.map_append, List.append_assoc]
    refine List.Perm.trans (List.Perm.append_left _ List.perm_append_comm) ?_
    rw [← List.append_assoc]
    exact List.Perm.append_right _ h.accounted.once
  · intro x hx row hrow hclass
    rcases List.mem_append.mp hrow with hrow | hrow
    · exact h.accounted.swept x hx row hrow hclass
    · obtain rfl := List.mem_singleton.mp hrow
      exact h.passed x hx
  · intro purge hpurge
    exact (h.told purge hpurge).imp_left fun ⟨row, hrow, htells⟩ =>
      ⟨row, List.mem_append_left _ hrow, htells⟩

/-- Rows that are never deleted stay in a sweep. -/
theorem Keeping.swept (h : Keeping midnight N s) (hmidnight : ∀ t, midnight t ≤ t)
    {retention : AuditRetention}
    {cutoff now : ℤ} (hnow : now * 1000 ≤ s.clock)
    (hclass : retention = .sameDay ∧ cutoff = midnight now ∨
      retention = .thirtyDays ∧ cutoff = now - THIRTY_DAYS_MS) :
    Keeping midnight N
      { s.without (isOlder retention cutoff) (.swept cutoff) with cutoffs :=
      s.cutoffs ++ [(retention, cutoff)] } := by
  have hold : ∀ {row : AuditRow}, isOlder retention cutoff row = true →
      row.retention = retention ∧ row.createdAt < cutoff * 1000 := of_decide_eq_true
  have hnever : retention ≠ .never := by
    rcases hclass with ⟨rfl, -⟩ | ⟨rfl, -⟩ <;> exact fun h => by cases h
  have hwithout : Accounted midnight (s.without (isOlder retention cutoff) (.swept cutoff)) := by
    refine h.accounted.without fun row _ hrow => ⟨(hold hrow).2, now, hnow, ?_⟩
    rw [(hold hrow).1]
    exact hclass
  refine ⟨⟨hwithout.once, hwithout.justified, ?_⟩, ?_, h.clocked, h.called, ?_, ?_⟩
  · intro x hx row hrow hrowclass
    rcases List.mem_append.mp hx with hx | hx
    · exact hwithout.swept x hx row hrow hrowclass
    · obtain rfl := List.mem_singleton.mp hx
      have hnot := (List.mem_filter.mp hrow).2
      rw [Bool.not_eq_true', isOlder, decide_eq_false_iff_not] at hnot
      exact not_lt.mp fun hlt => hnot ⟨hrowclass, hlt⟩
  · intro x hx
    rcases List.mem_append.mp hx with hx | hx
    · exact h.passed x hx
    · obtain rfl := List.mem_singleton.mp hx
      have hle : cutoff ≤ now := by
        rcases hclass with ⟨-, rfl⟩ | ⟨-, rfl⟩
        · exact hmidnight now
        · unfold THIRTY_DAYS_MS
          omega
      change cutoff * 1000 ≤ s.clock
      omega
  · intro purge hpurge
    refine (h.told purge hpurge).imp_left fun ⟨row, hrow, htells⟩ =>
      ⟨row, List.mem_filter.mpr ⟨hrow, ?_⟩, htells⟩
    rw [Bool.not_eq_true', isOlder, decide_eq_false_iff_not]
    exact fun hrow => hnever (hrow.1.symm.trans htells.1)
  · intro x hx hclass'
    rcases List.mem_append.mp hx with hx | hx
    · exact h.purged x hx hclass'
    · obtain ⟨row, hrow, rfl⟩ := List.mem_map.mp hx
      exact absurd ((hold (List.mem_filter.mp hrow).2).1.symm.trans hclass') hnever

theorem all_never {retention : Option AuditRetention} {row : AuditRow}
    (h : isOf retention row = true)
    (hnever : row.retention = .never) : retention.all (· = .never) = true := by
  cases retention with
  | none => rfl
  | some retention => simpa [isOf, hnever, eq_comm] using h

/-- After a flush that takes in the rows that are never deleted, its call owes the row. -/
theorem Keeping.flushed {retention : Option AuditRetention} {userId : String}
    (h : Keeping midnight (g ::ₘ N) s) (hcall : g.call = .flush retention userId)
    (howes : g.owes = none) :
    Keeping midnight ({ g with owes := some (retention, s.log.countP (isOf retention)) } ::ₘ N)
      { s.without (isOf retention) (.flushed retention) with
        purged := if retention.all (· = .never) then some (retention, s.log.countP (isOf retention))
          else s.purged } := by
  have hwithout : Accounted midnight (s.without (isOf retention) (.flushed retention)) :=
    h.accounted.without fun row _ hrow => hrow
  refine ⟨⟨hwithout.once, hwithout.justified, hwithout.swept⟩, h.passed, ?_, ?_, ?_, ?_⟩
  · exact replaced (h.clocked g (Multiset.mem_cons_self _ _)) h.clocked
  · exact replaced (fun _ => ⟨retention, userId, hcall⟩) h.called
  · intro purge hpurge
    by_cases hall : retention.all (· = .never) = true
    · have hnew : some (retention, s.log.countP (isOf retention)) = some purge := by
        rw [← hpurge]
        exact (if_pos hall).symm
      exact .inr ⟨_, Multiset.mem_cons_self _ _, hnew⟩
    · have hsame : s.purged = some purge := by
        rw [← hpurge]
        exact (if_neg hall).symm
      rcases h.told purge hsame with ⟨row, hrow, htells⟩ | ⟨g', hg, howed⟩
      · refine .inl ⟨row, List.mem_filter.mpr ⟨hrow, ?_⟩, htells⟩
        rw [Bool.not_eq_true', Bool.eq_false_iff]
        exact fun hof => hall (all_never hof htells.1)
      · rcases Multiset.mem_cons.mp hg with rfl | hg
        · rw [howes] at howed
          cases howed
        · exact .inr ⟨g', Multiset.mem_cons_of_mem hg, howed⟩
  · intro x hx hnever
    change (if retention.all (· = .never) then some (retention, s.log.countP (isOf retention))
      else s.purged) ≠ none
    split
    · exact Option.some_ne_none _
    · next hall =>
      rcases List.mem_append.mp hx with hx | hx
      · exact h.purged x hx hnever
      · obtain ⟨row, hrow, rfl⟩ := List.mem_map.mp hx
        exact absurd (all_never (List.mem_filter.mp hrow).2 hnever) hall

/-- Each operation of a call keeps the invariant, as long as flushes are told. -/
theorem keeping_perform {p : AuditPool} {t : AuditThread} {o : AuditOp} {r : AuditRes o}
    (hmidnight : ∀ t, midnight t ≤ t) (h : Keeping midnight (g ::ₘ N) s)
    (hpermit : (flushing midnight).permits g o)
    (htells : Tells p t ⟨o, (auditHandler o r s).1⟩) :
    Keeping midnight ((flushing midnight).note g ⟨o, (auditHandler o r s).1⟩ ::ₘ N)
    (auditHandler o r s).2 := by
  have hclocked := h.clocked g (Multiset.mem_cons_self _ _)
  have hcalled := h.called g (Multiset.mem_cons_self _ _)
  cases o with
  | now =>
    refine h.noted (fun now hnow => ?_) hcalled fun purge howes => .inl howes
    obtain rfl := Option.some.inj hnow
    exact Int.ediv_mul_le _ (by decide)
  | create values =>
    cases r with
    | error e =>
      have hother : values.action ≠ "audit.flush" := by
        simpa [Tells, tells, auditHandler, Except.isOk, Except.toBool] using htells
      exact h.noted hclocked (fun howes => absurd rfl howes) fun purge howes =>
        absurd (hpermit purge howes).2.1 hother
    | ok _ =>
      refine (h.written values).noted hclocked (fun howes => absurd rfl howes) fun purge howes =>
        .inr ?_
      exact ⟨_, List.mem_append_right _ (List.mem_singleton.mpr rfl), hpermit purge howes⟩
  | deleteOlderThan retention cutoff =>
    cases r with
    | error e => exact h
    | ok _ =>
      obtain ⟨now, hnow, hclass⟩ := hpermit
      exact h.swept hmidnight (hclocked now hnow) hclass
  | flush retention =>
    cases r with
    | error e => exact h
    | ok _ =>
      obtain ⟨howes, userId, hcall⟩ := hpermit
      exact h.flushed hcall howes

theorem note_call (g : Flushing) (e : AuditEvent) :
    ((flushing midnight).note g e).call = g.call := by
  obtain ⟨o, r⟩ := e
  cases o with
  | flush retention => cases r <;> rfl
  | _ => rfl

theorem notes_call (t : AuditThread) : (t.notes (flushing midnight) .first).call = t.call := by
  have hpast : ∀ (past : List AuditEvent) (g : Flushing),
      (past.foldl (flushing midnight).note g).call = g.call := by
    intro past
    induction past with
    | nil => exact fun _ => rfl
    | cons e past ih => exact fun g => (ih _).trans (note_call g e)
  exact hpast t.past _

theorem keeps (hmidnight : ∀ t, midnight t ≤ t) :
    Preserves (auditServer midnight) Tells (flushing midnight) .first (fun _ _ g => g.owes = none)
      (Keeping midnight) where
  accept _ _ _ _ h hs := keeping_accept h hs
  perform _ _ _ _ _ _ h hpermit htells := ⟨trivial, keeping_perform hmidnight h hpermit htells⟩
  release _ _ _ _ _ _ _ h hpost hs := by
    cases hs
    exact keeping_release h hpost

end Steps

/-- However records, flushes and sweeps interleave and whatever fails, every row written is in
the log or went for a reason, none is there that a sweep should have taken, and once a row that
is never deleted is gone, the log tells of the last flush to take in such rows, or that flush is
about to. -/
theorem audit_kept {midnight : ℤ → ℤ} (hmidnight : ∀ t, midnight t ≤ t) {p : AuditPool}
    (h : (auditServer midnight).Reaches Tells auditStart p) :
    Accounted midnight p.state ∧
      ((∃ x ∈ p.state.gone, x.1.retention = .never) → ∃ purge, p.state.purged = some purge ∧
        ((∃ row ∈ p.state.log, row.tellsOf purge) ∨
          ∃ t ∈ p.threads, ∃ retention userId, t.call = .flush retention userId)) := by
  have hstart : Keeping midnight 0 auditStart.state :=
    ⟨⟨List.Perm.refl _, fun _ h => absurd h List.not_mem_nil, fun _ h => absurd h List.not_mem_nil⟩,
      fun _ h => absurd h List.not_mem_nil, fun _ h => absurd h (Multiset.notMem_zero _),
      fun _ h => absurd h (Multiset.notMem_zero _), (fun _ h => by cases h), fun _ h =>
        absurd h List.not_mem_nil⟩
  obtain ⟨-, hkeeping⟩ := h.invariant calls_flushing (keeps hmidnight) rfl hstart
  refine ⟨hkeeping.accounted, fun ⟨x, hx, hnever⟩ => ?_⟩
  obtain ⟨purge, hpurge⟩ := Option.ne_none_iff_exists'.mp (hkeeping.purged x hx hnever)
  refine ⟨purge, hpurge, (hkeeping.told purge hpurge).imp_right fun ⟨g, hg, howes⟩ => ?_⟩
  obtain ⟨retention, userId, hcall⟩ :=
    hkeeping.called g hg (by rw [howes]; exact Option.some_ne_none _)
  obtain ⟨t, ht, rfl⟩ := mem_notesOf.mp hg
  exact ⟨t, ht, retention, userId, (notes_call t).symm.trans hcall⟩

def utcMidnight (t : ℤ) : ℤ := t / 86400000 * 86400000

def succeed : (o : AuditOp) → AuditRes o
  | .now => (0 : ℤ)
  | .create _ => (.ok () : Except String Unit)
  | .deleteOlderThan _ _ | .flush _ => (.ok 0 : Except String ℕ)

/-- A call that performs so many operations and leaves. -/
def wholeCall (c : AuditCall) (n : ℕ) : List (Move AuditCall AuditOp AuditRes) :=
  .start c :: (List.replicate n (.perform 0 succeed) ++ [.leave 0 false])

/-- An organisation is renamed and a trace is written; two days later the sweep drops the trace,
and an administrator flushes everything. -/
def flushedLater : List (Move AuditCall AuditOp AuditRes) :=
  wholeCall (.record { category := .organization, action := "organization.update", message :=
    "Renamed" }) 1 ++
    wholeCall (.record { category := .system, action := "system.trace", message := "Trace" }) 1 ++
    wholeCall (.elapse 172800000000) 0 ++ wholeCall (.sweep true) 3 ++
      wholeCall (.flush none "admin") 2

theorem audit_kept_flushedLater :
    ∃ p, (auditServer utcMidnight).play Tells flushedLater auditStart = some p ∧
      p.state.gone.map (fun x => (x.1.action, x.2)) =
        [("system.trace", .swept 172800000), ("organization.update", .flushed none)] ∧
      p.state.log.map (fun row => row.action) = ["audit.flush"] ∧ Accounted utcMidnight p.state ∧
      ∃ purge, p.state.purged = some purge ∧ ((∃ row ∈ p.state.log, row.tellsOf purge) ∨
        ∃ t ∈ p.threads, ∃ retention userId, t.call = .flush retention userId) := by
  let p := ((auditServer utcMidnight).play Tells flushedLater auditStart).get (by decide)
  have hplay : (auditServer utcMidnight).play Tells flushedLater auditStart = some p :=
    (Option.some_get _).symm
  have hmidnight : ∀ t, utcMidnight t ≤ t := fun t => Int.ediv_mul_le t (by decide)
  obtain ⟨haccounted, htold⟩ := audit_kept hmidnight (Server.Reaches.start.play _ hplay)
  have hgone : ∃ x ∈ p.state.gone, x.1.retention = .never := by decide
  exact ⟨p, hplay, by decide, by decide, haccounted, htold hgone⟩

end EventLens.Audits
