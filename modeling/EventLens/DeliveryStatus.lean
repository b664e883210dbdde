import EventLens.LastWrite
import Mathlib.Data.Rat.Floor

/-!
The log of sent mails and the provider's reports on them. A report finds its
mail by the provider's id, which the log has once the mail is marked as sent,
and is applied if it is newer than the last one that was. Reports that come
before the mail is marked find no row and are not kept. What the log ends up
with is the newest of the later ones, and nothing but sent if there are none.
-/

namespace EventLens.Emails

open LastWrite

abbrev LogId := ℕ
/-- Milliseconds. -/
abbrev Date := ℤ

inductive EmailStatus
  | queued | sent | delivered | bounced | complained | failed
deriving DecidableEq, Repr

/-- A row of `email_log`. -/
structure EmailLog where
  id : LogId
  status : EmailStatus := .queued
  messageId : Option String := none
  sentAt : Option Date := none
  statusAt : Option Date := none
  error : Option String := none
deriving DecidableEq, Repr

/-- `text.slice(0, 1000)`. -/
def sliced (text : String) : String := String.ofList (text.toList.take 1000)

def create (id : LogId) (log : List EmailLog) : List EmailLog := log ++ [{ id := id }]

def markSent (id : LogId) (messageId : String) (now : Date) (log : List EmailLog) : List EmailLog :=
  log.map (fun row => if row.id = id then
    { row with status := .sent, messageId := some messageId, sentAt := some now } else row)

def markFailed (id : LogId) (error : String) (log : List EmailLog) : List EmailLog :=
  log.map (fun row => if row.id = id then
    { row with status := .failed, error := some (sliced error) } else row)

/-- The rows a report is applied to. -/
def EmailLog.awaits (row : EmailLog) (messageId : String) (occurredAt : Date) : Bool :=
  row.messageId = some messageId ∧ (row.statusAt = none ∨ ∃ t ∈ row.statusAt, t < occurredAt)

def applyProviderStatus (messageId : String) (status : EmailStatus) (occurredAt : Date)
    (detail : Option String) (log : List EmailLog) : Bool × List EmailLog :=
  (log.any (fun row => row.awaits messageId occurredAt),
    log.map (fun row => if row.awaits messageId occurredAt then
      { row with
        status := status
        statusAt := some occurredAt
        error := ((detail.filter (fun text => text ≠ "")).map sliced).or row.error } else row))

/-- `STATUS_BY_EVENT`. -/
def statusByEvent : String → Option EmailStatus
  | "email.delivered" => some .delivered
  | "email.bounced" => some .bounced
  | "email.complained" => some .complained
  | "email.failed" => some .failed
  | _ => none

/-- The body of a report. A date is the instant its text names, if it names one. -/
structure ResendEvent where
  type : Option String := none
  created_at : Option (Option ℚ) := none
  email_id : Option String := none
  bounceMessage : Option String := none
  reason : Option String := none
deriving DecidableEq, Repr

/-- A report, with the secret set when it comes in, whether its signature is
found valid, and the clock. -/
structure ResendRequest where
  webhookSecret : Option String
  rawBody : Option String
  verified : Bool
  body : ResendEvent
  now : Date
deriving DecidableEq, Repr

inductive WebhookError
  | unauthorized
deriving DecidableEq, Repr

def ResendEvent.status (body : ResendEvent) : Option EmailStatus := body.type.bind statusByEvent

def ResendEvent.messageId (body : ResendEvent) : Option String :=
    body.email_id.filter (fun id => id ≠ "")

/-- A date keeps whole milliseconds. -/
def ResendRequest.occurredAt (request : ResendRequest) : Date :=
  match request.body.created_at with
  | some (some t) => ⌊t⌋
  | _ => request.now

/-- Whether a text is there and not empty. -/
def given (text : Option String) : Bool := text.getD "" ≠ ""

/-- `WebhookController.resend`. -/
def resend (request : ResendRequest) (log : List EmailLog) :
    Except WebhookError Unit × List EmailLog :=
  if ¬ given request.webhookSecret then (.error .unauthorized, log)
  else if ¬ given request.rawBody then (.error .unauthorized, log)
  else if ¬ request.verified then (.error .unauthorized, log)
  else
    match request.body.status, request.body.messageId with
    | some status, some messageId =>
      let detail := request.body.bounceMessage.or request.body.reason
      (.ok (), (applyProviderStatus messageId status request.occurredAt detail log).2)
    | _, _ => (.ok (), log)

inductive MailStep
  | create (id : LogId)
  | markSent (id : LogId) (messageId : String) (now : Date)
  | markFailed (id : LogId) (error : String)
  | resend (request : ResendRequest)
deriving DecidableEq, Repr

def MailStep.apply (log : List EmailLog) : MailStep → List EmailLog
  | .create id => Emails.create id log
  | .markSent id messageId now => Emails.markSent id messageId now log
  | .markFailed id error => Emails.markFailed id error log
  | .resend request => (Emails.resend request log).2

def run (steps : List MailStep) (log : List EmailLog) : List EmailLog :=
    steps.foldl MailStep.apply log

/-- `send`: what becomes of its row when the provider takes the mail, or does not. -/
def send (id : LogId) (now : Date) : Except String String → List MailStep
  | .ok messageId => [.create id, .markSent id messageId now]
  | .error error => [.create id, .markFailed id error]

/-- The row a step is about, other than a report. -/
def MailStep.logId : MailStep → Option LogId
  | .create id | .markSent id _ _ | .markFailed id _ => some id
  | .resend _ => none

def rowOf (id : LogId) (log : List EmailLog) : Option EmailLog := log.find? (fun row => row.id = id)

def statusOf (id : LogId) (log : List EmailLog) : Option EmailStatus :=
    (rowOf id log).map EmailLog.status

/-- What the provider reports of a mail, and when it happened. -/
structure Delivery where
  status : EmailStatus
  createdAt : ℚ
deriving DecidableEq

/-- A delivery as the log dates it. -/
def Delivery.cell (d : Delivery) : EmailStatus × Date := (d.status, ⌊d.createdAt⌋)

def ResendRequest.createdAt (request : ResendRequest) : ℚ :=
  match request.body.created_at with
  | some (some t) => t
  | _ => request.now

/-- The mail and the status that an accepted request reports. -/
def ResendRequest.report (request : ResendRequest) : Option (String × EmailStatus) :=
  if given request.webhookSecret ∧ given request.rawBody ∧ request.verified then
    request.body.status.bind fun status => request.body.messageId.map fun messageId =>
      (messageId, status)
  else none

def MailStep.delivery (messageId : String) : MailStep → Option Delivery
  | .resend request =>
    (request.report.filter (fun report => report.1 = messageId)).map
      (fun report => { status := report.2, createdAt := request.createdAt })
  | _ => none

/-- The deliveries of a mail's events, in the order they are processed. -/
def deliveries (messageId : String) (steps : List MailStep) : List Delivery :=
  steps.filterMap (MailStep.delivery messageId)

/-- What comes after the mail is marked as sent. -/
def afterSent (id : LogId) : List MailStep → List MailStep
  | [] => []
  | .markSent sentId _ _ :: rest => if sentId = id then rest else afterSent id rest
  | _ :: rest => afterSent id rest

/-- The event with the latest timestamp. -/
def IsLatest (latest : Delivery) (events : List Delivery) : Prop :=
  latest ∈ events ∧ ∀ d ∈ events, d.createdAt ≤ latest.createdAt

/-- What a step does to a row that is there. -/
def MailStep.effect (row : EmailLog) : MailStep → EmailLog
  | .create _ => row
  | .markSent id messageId now => if row.id = id then
      { row with status := .sent, messageId := some messageId, sentAt := some now } else row
  | .markFailed id error => if row.id = id then
      { row with status := .failed, error := some (sliced error) } else row
  | .resend request =>
    match request.report with
    | none => row
    | some (messageId, status) => if row.awaits messageId request.occurredAt then
        { row with
          status := status
          statusAt := some request.occurredAt
          error := (((request.body.bounceMessage.or request.body.reason).filter
            (fun text => text ≠ "")).map sliced).or row.error } else row

section Rows

variable {id : LogId} {messageId : String} {log : List EmailLog} {row : EmailLog} {s : MailStep}
  {request : ResendRequest}

theorem effect_id (row : EmailLog) (s : MailStep) : (s.effect row).id = row.id := by
  cases s with
  | create id => rfl
  | markSent id messageId now => simp only [MailStep.effect]; split <;> rfl
  | markFailed id error => simp only [MailStep.effect]; split <;> rfl
  | resend request =>
    simp only [MailStep.effect]
    split
    · rfl
    · split <;> rfl

/-- Every step but the making of a row works on each row for itself. -/
theorem apply_eq_map (h : ∀ id, s ≠ .create id) : s.apply log =
    log.map (fun row => s.effect row) := by
  cases s with
  | create id => exact absurd rfl (h id)
  | markSent id messageId now => rfl
  | markFailed id error => rfl
  | resend request =>
    have hsame : log.map (fun row => row) = log := List.map_id' log
    by_cases haccepted : given request.webhookSecret ∧ given request.rawBody ∧ request.verified
    · obtain ⟨hsecret, hbody, hverified⟩ := haccepted
      cases hstatus : request.body.status <;> cases hid : request.body.messageId <;>
        simp [MailStep.apply, resend, MailStep.effect, ResendRequest.report, applyProviderStatus,
          hsecret, hbody, hverified, hstatus, hid]
    · have hnone : request.report = none := if_neg haccepted
      have hrejected : (resend request log).2 = log := by
        unfold resend
        split
        · rfl
        split
        · rfl
        split
        · rfl
        next hsecret hbody hverified =>
          exact absurd ⟨not_not.mp hsecret, not_not.mp hbody, not_not.mp hverified⟩ haccepted
      simp only [MailStep.apply, MailStep.effect, hnone, hrejected, hsame]

theorem rowOf_apply (h : s ≠ .create id) :
    rowOf id (s.apply log) = (rowOf id log).map (fun row => s.effect row) := by
  by_cases hcreate : ∃ newId, s = .create newId
  · obtain ⟨newId, rfl⟩ := hcreate
    have hne : newId ≠ id := fun hid => h (hid ▸ rfl)
    simp [MailStep.apply, create, rowOf, MailStep.effect, hne]
  · rw [apply_eq_map fun newId hs => hcreate ⟨newId, hs⟩, rowOf, rowOf, List.find?_map]
    congr 2
    funext row
    simp only [Function.comp_apply, effect_id]

theorem rowOf_create (h : rowOf id log = none) : rowOf id (create id log) = some { id := id } := by
  rw [rowOf] at h
  rw [rowOf, create, List.find?_append, h]
  simp

theorem rowOf_run {steps : List MailStep} (h : ∀ s ∈ steps, s.logId ≠ some id) :
    rowOf id (run steps log) = (rowOf id log).map (fun row => steps.foldl MailStep.effect row) := by
  induction steps generalizing log with
  | nil => simp [run]
  | cons s rest ih =>
    have hs : s ≠ .create id := fun hs => h s List.mem_cons_self (hs ▸ rfl)
    have hrun : run (s :: rest) log = run rest (s.apply log) := rfl
    rw [hrun, ih fun s hs => h s (List.mem_cons_of_mem _ hs), rowOf_apply hs, Option.map_map]
    rfl

end Rows

/-- The row of a mail marked as sent, and the report it shows. -/
structure Tracks (id : LogId) (messageId : String) (cell : Option (EmailStatus × Date))
    (row : EmailLog) :
    Prop where
  id : row.id = id
  messageId : row.messageId = some messageId
  unreported : cell = none → row.status = .sent ∧ row.statusAt = none
  reported : ∀ a, cell = some a → row.status = a.1 ∧ row.statusAt = some a.2

/-- The deliveries offered one by one. -/
def offered (events : List Delivery) (cell : Option (EmailStatus × Date)) :
    Option (EmailStatus × Date) :=
  events.foldl (fun cell d => offer (some d.cell) cell) cell

section Reports

variable {id : LogId} {messageId : String} {cell : Option (EmailStatus × Date)} {row : EmailLog}
  {s : MailStep} {request : ResendRequest}

theorem occurredAt_eq (request : ResendRequest) : request.occurredAt = ⌊request.createdAt⌋ := by
  unfold ResendRequest.occurredAt ResendRequest.createdAt
  split
  · rfl
  · exact (Int.floor_intCast _).symm

theorem Tracks.awaits_iff (h : Tracks id messageId cell row) {d : Delivery} :
    row.awaits messageId ⌊d.createdAt⌋ = newer cell d.cell := by
  cases cell with
  | none =>
    obtain ⟨-, hat⟩ := h.unreported rfl
    simp [EmailLog.awaits, h.messageId, hat, newer]
  | some a =>
    obtain ⟨-, hat⟩ := h.reported a rfl
    have hawaits : row.awaits messageId ⌊d.createdAt⌋ = true ↔ a.2 < ⌊d.createdAt⌋ := by
      simp [EmailLog.awaits, h.messageId, hat]
    exact Bool.eq_iff_iff.mpr (hawaits.trans decide_eq_true_iff.symm)

/-- Only the mail's own reports change its row, and each as an offer. -/
theorem Tracks.effect (h : Tracks id messageId cell row) (hs : s.logId ≠ some id) :
    Tracks id messageId (offered (s.delivery messageId).toList cell) (s.effect row) := by
  cases s with
  | create newId => exact h
  | markSent sentId newMessageId now =>
    have hne : row.id ≠ sentId := fun hid => hs (congrArg some (hid.symm.trans h.id))
    rw [MailStep.effect, if_neg hne]
    exact h
  | markFailed failedId error =>
    have hne : row.id ≠ failedId := fun hid => hs (congrArg some (hid.symm.trans h.id))
    rw [MailStep.effect, if_neg hne]
    exact h
  | resend request =>
    cases hreport : request.report with
    | none =>
      simp only [MailStep.effect, MailStep.delivery, hreport]
      exact h
    | some report =>
      obtain ⟨reportId, status⟩ := report
      by_cases hid : reportId = messageId
      · have hdelivery : (MailStep.resend request).delivery messageId =
            some { status := status, createdAt := request.createdAt } := by
          simp [MailStep.delivery, hreport, hid]
        have hawaits := h.awaits_iff (d := { status := status, createdAt := request.createdAt })
        rw [← occurredAt_eq] at hawaits
        simp only [MailStep.effect, hreport, hid, hawaits]
        by_cases hnew :
          newer cell (Delivery.cell { status := status, createdAt := request.createdAt }) = true
        · have hoffered : offered ((MailStep.resend request).delivery messageId).toList cell =
              some (Delivery.cell { status := status, createdAt := request.createdAt }) := by
            rw [hdelivery]
            exact if_pos hnew
          rw [hoffered, if_pos hnew]
          refine ⟨h.id, h.messageId, fun hnone => ?_, fun a ha => ?_⟩
          · cases hnone
          · cases ha
            exact ⟨rfl, congrArg some (occurredAt_eq request)⟩
        · have hoffered :
            offered ((MailStep.resend request).delivery messageId).toList cell = cell := by
            rw [hdelivery]
            exact if_neg hnew
          rw [hoffered, if_neg hnew]
          exact h
      · have hother : row.awaits reportId request.occurredAt = false := by
          simp [EmailLog.awaits, h.messageId, Ne.symm hid]
        have hdelivery : (MailStep.resend request).delivery messageId = none := by
          simp [MailStep.delivery, hreport, hid]
        simp only [MailStep.effect, hreport, hother, hdelivery]
        exact h

theorem Tracks.run {steps : List MailStep} (h : Tracks id messageId cell row)
    (hs : ∀ s ∈ steps, s.logId ≠ some id) :
    Tracks id messageId (offered (deliveries messageId steps) cell)
    (steps.foldl MailStep.effect row) := by
  induction steps generalizing cell row with
  | nil => exact h
  | cons s rest ih =>
    have hstep :=
      ih (h.effect (hs s List.mem_cons_self)) fun s hs' => hs s (List.mem_cons_of_mem _ hs')
    have hoffered : offered (deliveries messageId (s :: rest)) cell =
        offered (deliveries messageId rest) (offered (s.delivery messageId).toList cell) := by
      cases hd : s.delivery messageId <;> simp [deliveries, offered, hd]
    rw [hoffered]
    exact hstep

/-- Before it is marked as sent no report finds the row. -/
theorem effect_unsent (hid : row.id = id) (hunsent : row.messageId = none)
    (hs : s.logId ≠ some id) :
    s.effect row = row := by
  cases s with
  | create newId => rfl
  | markSent sentId newMessageId now =>
    exact if_neg fun h => hs (congrArg some (h.symm.trans hid))
  | markFailed failedId error =>
    exact if_neg fun h => hs (congrArg some (h.symm.trans hid))
  | resend request =>
    simp only [MailStep.effect]
    split
    · rfl
    · exact if_neg (by simp [EmailLog.awaits, hunsent])

theorem foldl_effect_unsent {steps : List MailStep} (hid : row.id = id)
    (hunsent : row.messageId = none)
    (hs : ∀ s ∈ steps, s.logId ≠ some id) : steps.foldl MailStep.effect row = row := by
  induction steps with
  | nil => rfl
  | cons s rest ih =>
    rw [List.foldl_cons, effect_unsent hid hunsent (hs s List.mem_cons_self)]
    exact ih fun s hs' => hs s (List.mem_cons_of_mem _ hs')

/-- A report never says that the mail was sent. -/
theorem delivery_status {d : Delivery} (h : s.delivery messageId = some d) : d.status ≠ .sent := by
  cases s with
  | create id => cases h
  | markSent id messageId now => cases h
  | markFailed id error => cases h
  | resend request =>
    obtain ⟨report, hreport, rfl⟩ := Option.map_eq_some_iff.mp h
    have hreported := (Option.filter_eq_some_iff.mp hreport).1
    unfold ResendRequest.report at hreported
    split at hreported
    · obtain ⟨status, hstatus, hmessage⟩ := Option.bind_eq_some_iff.mp hreported
      obtain ⟨_, _, rfl⟩ := Option.map_eq_some_iff.mp hmessage
      obtain ⟨type, _, htype⟩ := Option.bind_eq_some_iff.mp hstatus
      intro hsent
      cases hsent
      unfold statusByEvent at htype
      split at htype <;> cases htype
    · cases hreported

end Reports

def sentRow (id : LogId) (messageId : String) (sentAt : Date) : EmailLog :=
  { id := id, status := .sent, messageId := some messageId, sentAt := some sentAt }

section Runs

variable {id : LogId} {messageId : String} {log : List EmailLog} {steps : List MailStep}
  {sentAt : Date}

theorem run_append (steps rest : List MailStep) (log : List EmailLog) :
    run (steps ++ rest) log = run rest (run steps log) :=
  List.foldl_append

theorem afterSent_append {rest : List MailStep} (h : ∀ s ∈ steps, ∀ m t, s ≠ .markSent id m t) :
    afterSent id (steps ++ rest) = afterSent id rest := by
  induction steps with
  | nil => rfl
  | cons s steps ih =>
    have hrest := ih fun s hs => h s (List.mem_cons_of_mem _ hs)
    have hs := h s List.mem_cons_self
    cases s with
    | create newId => exact hrest
    | markFailed failedId error => exact hrest
    | resend request => exact hrest
    | markSent sentId m t =>
      have hne : sentId ≠ id := fun hid => hs m t (hid ▸ rfl)
      exact (if_neg hne).trans hrest

/-- Where the two steps of a mail that the provider takes stand in a run. -/
theorem send_split
    (h : steps.filter (fun s => s.logId = some id) = send id sentAt (.ok messageId)) :
    ∃ before between after,
      steps = before ++ .create id :: (between ++ .markSent id messageId sentAt :: after) ∧
      (∀ s ∈ before, s.logId ≠ some id) ∧ (∀ s ∈ between, s.logId ≠ some id) ∧
      ∀ s ∈ after, s.logId ≠ some id := by
  obtain ⟨before, rest, rfl, hbefore, -, hrest⟩ := List.filter_eq_cons_iff.mp h
  obtain ⟨between, after, rfl, hbetween, -, hafter⟩ := List.filter_eq_cons_iff.mp hrest
  refine ⟨before, between, after, rfl, ?_, ?_, ?_⟩
  · exact fun s hs => by simpa using hbefore s hs
  · exact fun s hs => by simpa using hbetween s hs
  · exact fun s hs => by simpa using List.filter_eq_nil_iff.mp hafter s hs

/-- When the mail is marked as sent its row has seen no report. -/
theorem rowOf_sent {before between : List MailStep} (hfresh : ∀ row ∈ log, row.id ≠ id)
    (hbefore : ∀ s ∈ before, s.logId ≠ some id) (hbetween : ∀ s ∈ between, s.logId ≠ some id) :
    rowOf id (run (before ++ .create id :: (between ++ [.markSent id messageId sentAt])) log) =
      some (sentRow id messageId sentAt) := by
  have hnone : rowOf id (run before log) = none := by
    rw [rowOf_run hbefore, rowOf, List.find?_eq_none.mpr (by simpa using hfresh)]
    rfl
  have hcreated : rowOf id (run [.create id] (run before log)) = some { id := id } :=
    rowOf_create hnone
  rw [List.append_cons, run_append, run_append, run_append]
  change rowOf id (MailStep.apply _ (.markSent id messageId sentAt)) = _
  rw [rowOf_apply (fun h => by cases h), rowOf_run hbetween, hcreated, Option.map_some,
    foldl_effect_unsent rfl rfl hbetween]
  exact congrArg some (if_pos rfl)

/-- A mail's row ends up with the newest of what is delivered after it is marked as sent. -/
theorem statusOf_run (hfresh : ∀ row ∈ log, row.id ≠ id)
    (hsend : steps.filter (fun s => s.logId = some id) = send id sentAt (.ok messageId)) :
    statusOf id (run steps log) =
      some ((newest (fun _ _ => true)
      ((deliveries messageId (afterSent id steps)).map Delivery.cell)).elim
        .sent Prod.fst) := by
  obtain ⟨before, between, after, rfl, hbefore, hbetween, hafter⟩ := send_split hsend
  have hunmarked : ∀ steps : List MailStep, (∀ s ∈ steps, s.logId ≠ some id) →
      ∀ s ∈ steps, ∀ m t, s ≠ .markSent id m t :=
    fun steps hsteps s hs m t hmark => hsteps s hs (hmark ▸ rfl)
  have hafterSent :
      afterSent id (before ++ .create id :: (between ++ .markSent id messageId sentAt :: after)) =
        after := by
    rw [afterSent_append (hunmarked before hbefore)]
    change afterSent id (between ++ _) = after
    rw [afterSent_append (hunmarked between hbetween)]
    exact if_pos rfl
  have hrow :
    rowOf id (run (before ++ .create id :: (between ++ [.markSent id messageId sentAt])) log) =
      some (sentRow id messageId sentAt) := rowOf_sent hfresh hbefore hbetween
  have htracks : Tracks id messageId (offered (deliveries messageId after) none)
      (after.foldl MailStep.effect (sentRow id messageId sentAt)) :=
    Tracks.run ⟨rfl, rfl, fun _ => ⟨rfl, rfl⟩, fun a ha => by cases ha⟩ hafter
  have hnewest : offered (deliveries messageId after) none =
      newest (fun _ _ => true) ((deliveries messageId after).map Delivery.cell) := by
    rw [← foldl_offer, List.foldl_map]
    rfl
  have hsteps : before ++ .create id :: (between ++ .markSent id messageId sentAt :: after) =
      (before ++ .create id :: (between ++ [.markSent id messageId sentAt])) ++ after := by
    simp
  rw [hafterSent, ← hnewest, hsteps, run_append, statusOf, rowOf_run hafter, hrow, Option.map_some,
    Option.map_some]
  cases hcell : offered (deliveries messageId after) none with
  | none => rw [(htracks.unreported hcell).1]; rfl
  | some a => rw [(htracks.reported a hcell).1]; rfl

end Runs

/-- Of the deliveries after the mail is marked as sent the newest decides: the log
shows the latest event's status exactly when that one has it too. -/
theorem delivery_status_iff {log : List EmailLog} {steps : List MailStep} {id : LogId}
    {messageId : String}
    {sentAt : Date} {latest : Delivery} (hfresh : ∀ row ∈ log, row.id ≠ id)
    (hsend : steps.filter (fun s => s.logId = some id) = send id sentAt (.ok messageId))
    (hlatest : IsLatest latest (deliveries messageId steps)) :
    statusOf id (run steps log) = some latest.status ↔
      (newest (fun _ _ => true)
        ((deliveries messageId (afterSent id steps)).map Delivery.cell)).map Prod.fst =
        some latest.status := by
  obtain ⟨s, -, hdelivery⟩ := List.mem_filterMap.mp hlatest.1
  have hnotSent : latest.status ≠ .sent := delivery_status hdelivery
  rw [statusOf_run hfresh hsend]
  cases newest (fun _ _ => true)
    ((deliveries messageId (afterSent id steps)).map Delivery.cell) with
  | none => simpa using hnotSent.symm
  | some a => simp

/-- An accepted report of an event of the mail. -/
def reported (type : String) (createdAt : ℚ) : MailStep :=
  .resend
    { webhookSecret := some "secret", rawBody := some "event", verified := true, now := 100
      body :=
        { type := some type, created_at := some (some createdAt), email_id := some "message" } }

/-- The mail bounces after all, but the reports come the other way round, one of them twice. -/
def bouncedFirst : List MailStep :=
  [.create 0, .markSent 0 "message" 10, reported "email.bounced" 30, reported "email.delivered" 20,
    reported "email.bounced" 30]

theorem delivery_status_iff_bounced : statusOf 0 (run bouncedFirst []) = some .bounced := by
  have hsend : bouncedFirst.filter (fun s => s.logId = some 0) =
      send 0 10 (.ok "message") := by decide
  have hdeliveries : deliveries "message" bouncedFirst =
      [⟨.bounced, 30⟩, ⟨.delivered, 20⟩, ⟨.bounced, 30⟩] := by decide
  have hlatest : IsLatest ⟨.bounced, 30⟩ (deliveries "message" bouncedFirst) := by
    rw [hdeliveries]
    constructor <;> norm_num
  exact (delivery_status_iff (by simp) hsend hlatest).mpr (by decide)

/-- The delivery is reported before the mail is marked as sent. -/
def deliveredEarly : List MailStep :=
    [.create 0, reported "email.delivered" 20, .markSent 0 "message" 30]

/-- A delivery reported too early is lost. -/
theorem not_delivery_status :
    ¬ ∀ (log : List EmailLog) (steps : List MailStep) (id : LogId)
      (messageId : String) (sentAt : Date)
        (latest : Delivery), (∀ row ∈ log, row.id ≠ id) →
      steps.filter (fun s => s.logId = some id) = send id sentAt (.ok messageId) →
      (∀ d ∈ deliveries messageId steps, ∀ e ∈ deliveries messageId steps,
        d.createdAt = e.createdAt → d = e) →
      IsLatest latest (deliveries messageId steps) →
      statusOf id (run steps log) = some latest.status := by
  intro h
  have hdeliveries : deliveries "message" deliveredEarly = [⟨.delivered, 20⟩] := by decide
  have hstatus := h [] deliveredEarly 0 "message" 30 ⟨.delivered, 20⟩ (by simp) (by decide)
    (by rw [hdeliveries]; simp) (by rw [hdeliveries]; simp [IsLatest])
  exact absurd hstatus (by decide)

end EventLens.Emails
