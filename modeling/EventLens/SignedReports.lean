import EventLens.WebhookSignatures

/-!
What the log of mails shows when anybody may post reports: what the provider's
own messages tell, in whatever order they come, repeated or late, and whatever
else is posted between them.
-/

namespace EventLens.Emails

open JsonTexts LastWrite

section Reports

/-- The posts that come after a mail is marked as sent. -/
def MailEvent.posted : MailEvent → Option Post
  | .post p => some p
  | _ => none

def postsAfter (id : LogId) : List MailEvent → List Post
  | [] => []
  | .markSent sentId _ _ :: rest =>
    if sentId = id then rest.filterMap MailEvent.posted else postsAfter id rest
  | _ :: rest => postsAfter id rest

/-- A post tells of a mail, as of a date, if it is a message of the provider that does. -/
def Tells (c : Crypto) (parsers : Parsers) (signed : Set Message) (messageId : String) (post : Post)
    (cell : EmailStatus × Date) : Prop :=
  (∃ m ∈ signed, post.Delivers c m) ∧ ∃ request, post.request c parsers = some request ∧
    request.body.status = some cell.1 ∧ request.body.messageId = some messageId ∧
      request.occurredAt = cell.2

/-- What a post is to a mail, in the log's terms. -/
def Post.told (c : Crypto) (parsers : Parsers) (messageId : String) (post : Post) :
    Option (EmailStatus × Date) :=
  (post.request c parsers).bind fun request =>
    ((MailStep.resend request).delivery messageId).map Delivery.cell

variable {c : Crypto} {parsers : Parsers} {signed : Set Message} {post : Post} {messageId : String}
  {id : LogId}
  {request : ResendRequest} {cell : EmailStatus × Date}

theorem delivery_cell_iff :
    ((MailStep.resend request).delivery messageId).map Delivery.cell = some cell ↔
    (resend request []).1.isOk = true ∧ request.body.status = some cell.1 ∧
      request.body.messageId = some messageId ∧ request.occurredAt = cell.2 := by
  rw [resend_isOk, MailStep.delivery, Option.map_map, Option.map_eq_some_iff]
  constructor
  · rintro ⟨⟨reportId, status⟩, hreport, rfl⟩
    obtain ⟨hreport, hid⟩ := Option.filter_eq_some_iff.mp hreport
    unfold ResendRequest.report at hreport
    split at hreport
    · next haccepted =>
      obtain ⟨status', hstatus, hmessage⟩ := Option.bind_eq_some_iff.mp hreport
      obtain ⟨messageId', hmessageId, heq⟩ := Option.map_eq_some_iff.mp hmessage
      cases heq
      have hsame : reportId = messageId := of_decide_eq_true hid
      exact ⟨haccepted, hstatus, hsame ▸ hmessageId, occurredAt_eq request⟩
    · cases hreport
  · rintro ⟨haccepted, hstatus, hmessageId, hdate⟩
    refine ⟨(messageId, cell.1), Option.filter_eq_some_iff.mpr ⟨?_, decide_eq_true rfl⟩, ?_⟩
    · rw [ResendRequest.report, if_pos haccepted, hstatus, hmessageId]
      rfl
    · rw [occurredAt_eq] at hdate
      exact Prod.ext rfl hdate

theorem cell_iff (hjson : post.contentType = .json)
    (hparser : ∀ text event, parsers.json text = some event → MarkedJson text)
    (hunforged : Unforged c signed post) :
    post.told c parsers messageId = some cell ↔ Tells c parsers signed messageId post cell := by
  constructor
  · intro h
    obtain ⟨request, hrequest, hdelivery⟩ := Option.bind_eq_some_iff.mp h
    obtain ⟨hok, hrest⟩ := delivery_cell_iff.mp hdelivery
    exact ⟨(resend_ok_iff hjson hparser hunforged hrequest).mp hok, request, hrequest, hrest⟩
  · rintro ⟨hm, request, hrequest, hrest⟩
    refine Option.bind_eq_some_iff.mpr ⟨request, hrequest, delivery_cell_iff.mpr ⟨?_, hrest⟩⟩
    exact (resend_ok_iff hjson hparser hunforged hrequest).mpr hm

theorem deliveries_posts (events : List MailEvent) :
    (deliveries messageId (stepsOf c parsers events)).map Delivery.cell =
      (events.filterMap MailEvent.posted).filterMap (Post.told c parsers messageId) := by
  rw [deliveries, stepsOf, List.filterMap_filterMap, List.map_filterMap, List.filterMap_filterMap]
  refine List.filterMap_congr fun e _ => ?_
  cases e with
  | create _ | markSent _ _ _ | markFailed _ _ => rfl
  | post p =>
    simp only [MailEvent.step, MailEvent.posted, Post.told, Option.bind_some]
    cases p.request c parsers <;> rfl

theorem afterSent_steps (events : List MailEvent) :
    (deliveries messageId (afterSent id (stepsOf c parsers events))).map Delivery.cell =
      (postsAfter id events).filterMap (Post.told c parsers messageId) := by
  induction events with
  | nil => rfl
  | cons e events ih =>
    cases e with
    | create _ | markFailed _ _ => exact ih
    | markSent sentId m t =>
      simp only [stepsOf, List.filterMap_cons, MailEvent.step, afterSent, postsAfter]
      split
      · exact deliveries_posts events
      · exact ih
    | post p =>
      simp only [stepsOf, List.filterMap_cons, MailEvent.step, postsAfter]
      cases p.request c parsers <;> exact ih

end Reports

/-- Whatever is posted in JSON, and by whom, the log shows of a mail marked as sent
the latest of what the provider's own messages told since then, or sent if they
told nothing. -/
theorem status_told {c : Crypto} {parsers : Parsers} {signed : Set Message}
    {events : List MailEvent}
    {log : List EmailLog} {id : LogId} {messageId : String} {sentAt : Date}
    (hparser : ∀ text event, parsers.json text = some event → MarkedJson text)
    (hjson : ∀ p ∈ postsAfter id events, p.contentType = .json)
    (hunforged : ∀ p ∈ postsAfter id events, Unforged c signed p)
    (hfresh : ∀ row ∈ log, row.id ≠ id)
    (hsend : (stepsOf c parsers events).filter (fun s => s.logId = some id) =
    send id sentAt (.ok messageId)) :
    (statusOf id (run (stepsOf c parsers events) log) = some .sent ∧
        ∀ p ∈ postsAfter id events, ∀ cell, ¬ Tells c parsers signed messageId p cell) ∨
      ∃ p ∈ postsAfter id events, ∃ cell, Tells c parsers signed messageId p cell ∧
        statusOf id (run (stepsOf c parsers events) log) = some cell.1 ∧
        ∀ p' ∈ postsAfter id events, ∀ cell', Tells c parsers signed messageId p' cell' →
        cell'.2 ≤ cell.2 := by
  have hcell : ∀ p ∈ postsAfter id events, ∀ cell,
      Tells c parsers signed messageId p cell ↔ p.told c parsers messageId = some cell :=
    fun p hp cell => (cell_iff (hjson p hp) hparser (hunforged p hp)).symm
  have hmem : ∀ p ∈ postsAfter id events, ∀ cell, Tells c parsers signed messageId p cell →
      cell ∈ (postsAfter id events).filterMap (Post.told c parsers messageId) :=
    fun p hp cell htells => List.mem_filterMap.mpr ⟨p, hp, (hcell p hp cell).mp htells⟩
  rw [statusOf_run hfresh hsend, afterSent_steps]
  cases hnewest :
    newest (fun _ _ => true) ((postsAfter id events).filterMap (Post.told c parsers messageId)) with
  | none =>
    refine .inl ⟨rfl, fun p hp cell htells => ?_⟩
    have hin := hmem p hp cell htells
    rw [newest_eq_none hnewest] at hin
    exact absurd hin List.not_mem_nil
  | some cell =>
    obtain ⟨p, hp, hpcell⟩ := List.mem_filterMap.mp (newest_mem hnewest)
    exact .inr ⟨p, hp, cell, (hcell p hp cell).mpr hpcell, rfl, fun p' hp' cell' htells =>
      le_newest hnewest cell' (hmem p' hp' cell' htells)⟩

/-- A delivery is made up before the bounce comes in, and the bounce is captured and
posted again. -/
def forgedBefore : List MailEvent :=
  [.create 0, .markSent 0 "m1" 1700000001000, .post (postedAs "email.delivered"),
    .post (postedAs "email.bounced"),
    .post (postedAs "email.bounced")]

theorem posts_forgedBefore : postsAfter 0 forgedBefore =
    [postedAs "email.delivered", postedAs "email.bounced", postedAs "email.bounced"] :=
  rfl

theorem bounced_of_tells {p : Post} {cell : EmailStatus × Date} (hp : p ∈ postsAfter 0 forgedBefore)
    (h : Tells knownCrypto knownParsers {bounce} "m1" p cell) : cell.1 = .bounced := by
  obtain ⟨⟨m, hm, hdelivers⟩, request, hrequest, hstatus, -, -⟩ := h
  obtain rfl : m = bounce := hm
  rw [posts_forgedBefore] at hp
  simp only [List.mem_cons, List.not_mem_nil, or_false] at hp
  rcases hp with rfl | rfl | rfl
  · exact absurd hdelivers.vouched not_vouched_delivered
  all_goals
    rw [Post.request, parsed_bounced] at hrequest
    obtain rfl := Option.some.inj hrequest
    exact (Option.some.inj hstatus).symm

theorem tells_bounced : Tells knownCrypto knownParsers {bounce} "m1" (postedAs "email.bounced")
    (.bounced, 1700000060000) :=
  ⟨⟨bounce, rfl, delivers_bounced⟩, _, rfl, rfl, rfl, rfl⟩

theorem status_told_forged :
    statusOf 0 (run (stepsOf knownCrypto knownParsers forgedBefore) []) = some .bounced := by
  have hposts :
    ∀ p ∈ postsAfter 0 forgedBefore, p = postedAs "email.delivered" ∨
    p = postedAs "email.bounced" := by
    simp [posts_forgedBefore]
  have hjson : ∀ p ∈ postsAfter 0 forgedBefore, p.contentType = .json := by
    intro p hp
    rcases hposts p hp with rfl | rfl <;> rfl
  have hunforged : ∀ p ∈ postsAfter 0 forgedBefore, Unforged knownCrypto {bounce} p := by
    intro p hp
    rcases hposts p hp with rfl | rfl
    · exact unforged_delivered
    · exact unforged_bounced
  have hsend : (stepsOf knownCrypto knownParsers forgedBefore).filter (fun s => s.logId = some 0) =
      send 0 1700000001000 (.ok "m1") := rfl
  have hfresh : ∀ row ∈ ([] : List EmailLog), row.id ≠ 0 := fun _ h => absurd h List.not_mem_nil
  rcases status_told markedJson_known hjson hunforged hfresh hsend with
    ⟨-, hnone⟩ | ⟨p, hp, cell, htells, hstatus, -⟩
  · exact absurd tells_bounced (hnone (postedAs "email.bounced") (by simp [posts_forgedBefore]) _)
  · rw [hstatus, bounced_of_tells hp htells]

end EventLens.Emails
