import EventLens.MatchDigests
import Mathlib

/-!
The cadence of the mails about matches. Six hours are to lie between two mails
to a participant, unless they submitted a selfie in between. A digest compares
the time of the last mail before it sends and notes the new one after; the mail
about a gallery that was opened while it was pending looks at no time at all.
-/

namespace EventLens.Selfies

open Programs Contract

/-! The gallery. -/

/-- `PublicService.getGallery`, as far as it writes: who opens the gallery while
it is pending is told when it is not. -/
def openGallery (participantId : ParticipantId) : Attempt Unit := do
  match ← call (.getById participantId) with
  | none => throw (.notFound "Gallery not found")
  | some participant =>
    if ← call (.eventExists participant.eventId) then
      if (participant.status = .processing ∨ participant.status = .pendingMatch) ∧
          ¬ participant.awaitingResultNotice then
        call (.update participantId { awaitingResultNotice := some true })
      else pure ()
    else throw (.notFound "Gallery not found")

/-- An organiser has the mail about the gallery sent again. -/
def resend (eventId : String) (participantId : ParticipantId) : Attempt Unit := do
  let participant ← getScoped eventId participantId
  call (.update participant.id {})
  call (.queue (.sendGalleryEmail participant.id))

/-! Calls beside the mails that were posted. -/

inductive Posting
  | submitted (id : ParticipantId)
  | mailed (id : ParticipantId) (sentAt : Date)
deriving DecidableEq, Repr

/-- The tables, what was posted so far, and how many jobs of the notification
queue are running. -/
structure Mailbox where
  store : ParticipantStore
  posted : List Posting := []
  running : ℕ := 0
deriving DecidableEq, Repr

def posting : (o : ParticipantOp) → ParticipantRes o → Date → List Posting
  | .upsert _, participant, _ => [.submitted (participant : Participant).id]
  | .send id _ _, sent, t => if (sent : Bool) then [.mailed id t] else []
  | _, _, _ => []

/-- Time passes in a call of its own. -/
inductive MailCall
  | participant (c : ParticipantCall)
  | openGallery (id : ParticipantId)
  | resend (eventId : String) (id : ParticipantId)
  | wait
deriving DecidableEq, Repr

abbrev MailAnswer := Answer ⊕ Except HttpError Unit

def MailCall.prog (V : Services) : MailCall → ParticipantProg MailAnswer
  | .participant c => Sum.inl <$> c.prog V
  | .openGallery id => Sum.inr <$> (Selfies.openGallery id).run
  | .resend eventId id => Sum.inr <$> (Selfies.resend eventId id).run
  | .wait => Sum.inr <$> ((fun _ => ()) <$> call .now).run

def notificationConcurrency : ℕ := 2

/-- The jobs of the notification queue. -/
def ParticipantCall.notifies : ParticipantCall → Bool
  | .sendGalleryEmail _ | .sendDigest _ => true
  | _ => false

def mailHandler (V : Services) : Handler ParticipantOp ParticipantRes Mailbox := fun o r s =>
  let a := participantHandler V o r s.store
  (a.1, { s with store := a.2, posted := s.posted ++ posting o a.1 s.store.clock })

def mailServer (V : Services) :
    Server MailCall ParticipantOp ParticipantRes Mailbox MailAnswer where
  handler := mailHandler V
  prog := MailCall.prog V
  accept
    | .participant c, s =>
      if c.notifies ∧ notificationConcurrency ≤ s.running then none
      else ((participantServer V).accept c s.store).map fun store =>
        { s with store := store, running := s.running + c.notifies.toNat }
    | _, s => some s
  release
    | .participant c, .inl answer, again, s =>
      ((participantServer V).release c answer again s.store).map fun store =>
        { s with store := store, running := s.running - c.notifies.toNat }
    | _, _, _, s => some s

/-! The cadence. -/

def since? (k : ParticipantId) (mails : List Date) : Posting → List Date
  | .submitted id => if id = k then [] else mails
  | .mailed id t => if id = k then mails ++ [t] else mails

/-- The mails to the participant since their last submission. -/
def mailsSince (k : ParticipantId) (posted : List Posting) : List Date := posted.foldl (since? k) []

/-- Six hours lie between two mails, unless a selfie was submitted in between. -/
def Cadence (k : ParticipantId) (posted : List Posting) : Prop :=
  ∀ earlier between later t u,
    posted = earlier ++ .mailed k t :: (between ++ .mailed k u :: later) →
    .submitted k ∉ between → t + digestThrottleMs ≤ u

theorem mailsSince_snoc (k : ParticipantId) (posted : List Posting) (entry : Posting) :
    mailsSince k (posted ++ [entry]) = since? k (mailsSince k posted) entry := by
  rw [mailsSince, List.foldl_append]
  rfl

theorem mem_mailsSince {k : ParticipantId} {t : Date} (earlier : List Posting)
    {between : List Posting}
    (h : .submitted k ∉ between) : t ∈ mailsSince k (earlier ++ .mailed k t :: between) := by
  induction between using List.reverseRecOn with
  | nil =>
    rw [mailsSince_snoc, since?, if_pos rfl]
    exact List.mem_append_right _ (List.mem_singleton_self t)
  | append_singleton between entry ih =>
    have hmem := ih fun hin => h (List.mem_append_left _ hin)
    rw [← List.cons_append, ← List.append_assoc, mailsSince_snoc]
    cases entry with
    | submitted id =>
      have hid : id ≠ k := by
        rintro rfl
        exact h (List.mem_append_right _ (List.mem_singleton_self _))
      rw [since?, if_neg hid]
      exact hmem
    | mailed id u =>
      rw [since?]
      split
      · exact List.mem_append_left _ hmem
      · exact hmem

theorem cadence_nil (k : ParticipantId) : Cadence k [] := by
  intro earlier between later t u h
  exact absurd h.symm (List.append_ne_nil_of_right_ne_nil _ (List.cons_ne_nil _ _))

theorem cadence_snoc {k : ParticipantId} {posted : List Posting} {entry : Posting}
    (h : Cadence k posted)
    (hentry : ∀ u, entry = .mailed k u → ∀ t ∈ mailsSince k posted, t + digestThrottleMs ≤ u) :
    Cadence k (posted ++ [entry]) := by
  intro earlier between later t u hposted hbetween
  rcases List.eq_nil_or_concat later with rfl | ⟨later, last, rfl⟩
  · have hsplit : posted ++ [entry] = (earlier ++ .mailed k t :: between) ++ [.mailed k u] := by
      rw [hposted, List.append_assoc, List.cons_append]
    obtain ⟨rfl, hlast⟩ := List.append_inj' hsplit rfl
    exact hentry u (List.singleton_inj.mp hlast) t (mem_mailsSince earlier hbetween)
  · have hsplit : posted ++ [entry] =
        (earlier ++ .mailed k t :: (between ++ .mailed k u :: later)) ++ [last] := by
      rw [hposted]
      simp
    obtain ⟨rfl, -⟩ := List.append_inj' hsplit rfl
    exact h earlier between later t u rfl hbetween

theorem cadence_other {k : ParticipantId} {posted entries : List Posting} (h : Cadence k posted)
    (hentries : ∀ u, .mailed k u ∉ entries) : Cadence k (posted ++ entries) := by
  induction entries using List.reverseRecOn with
  | nil => rwa [List.append_nil]
  | append_singleton entries entry ih =>
    rw [← List.append_assoc]
    refine cadence_snoc (ih fun u hu => hentries u (List.mem_append_left _ hu)) fun u hu => ?_
    exact absurd (List.mem_append_right _ (hu ▸ List.mem_singleton_self _)) (hentries u)

/-! The stages of a mail. -/

inductive MailStage
  | aside
  | reading (id : ParticipantId)
  | read (p : Participant)
  | due (p : Participant) (since : Date)
  | sent (id : ParticipantId)
  | noting (id : ParticipantId) (sentAt : Date)
  | over
deriving DecidableEq

namespace MailStage

/-- The mail has been sent and is still to be noted. -/
def unnoted : MailStage → Option ParticipantId
  | .sent id | .noting id _ => some id
  | _ => none

/-- The stage holds no time. -/
def timeless : MailStage → Bool
  | .due _ _ | .noting _ _ => false
  | _ => true

def opened : Option Participant → MailStage
  | some p => .read p
  | none => .over

/-- The comparison of a digest. -/
def compared (p : Participant) (t : Date) : MailStage :=
  match p.notifiedFirstAt with
  | none => .read p
  | some first =>
    if t - p.lastNotifiedAt.getD first < digestThrottleMs then .over
    else .due p (p.lastNotifiedAt.getD first)

def note : MailStage → ParticipantEvent → MailStage
  | .reading _, ⟨.getById _, r⟩ => opened r
  | .read _, ⟨.getById _, r⟩ => opened r
  | .read p, ⟨.now, t⟩ => compared p t
  | .read p, ⟨.send _ _ _, r⟩ => if (r : Bool) then .sent p.id else .over
  | .due p _, ⟨.send _ _ _, r⟩ => if (r : Bool) then .sent p.id else .over
  | .sent id, ⟨.now, t⟩ => .noting id t
  | .noting _ _, ⟨.update _ _, _⟩ => .over
  | g, _ => g

/-- Mails go to the participant that was read, and only a job that has sent one
notes a time of mailing. -/
def Permits : MailStage → ParticipantOp → Prop
  | .read p, .send id template _ => id = p.id ∧ template = .galleryReady
  | .due p _, .send id template _ => id = p.id ∧ template = .galleryUpdate
  | _, .send _ _ _ => False
  | .noting id sentAt, .update id' dto => id' = id ∧ dto.lastNotifiedAt = some sentAt
  | _, .update _ dto => dto.lastNotifiedAt = none
  | _, _ => True

end MailStage

def mailing (V : Services) : Contract ParticipantOp ParticipantRes MailStage where
  note := MailStage.note
  expects _ := Expects V
  permits := MailStage.Permits

def MailCall.first : MailCall → MailStage
  | .participant (.sendGalleryEmail id) | .participant (.sendDigest id) => .reading id
  | _ => .aside

def MailCall.Post (_ : MailCall) (_ : MailAnswer) (g : MailStage) : Prop := g.unnoted = none

section Follows

variable {V : Services}

theorem follows_answer {α β : Type} {f : α → β} {p : ParticipantProg α} {Q : β → MailStage → Prop}
    {g : MailStage} (h : (mailing V).Follows p (fun value => Q (f value)) g) :
    (mailing V).Follows (f <$> p) Q g :=
  (follows_bind _ p (fun value => .done (f value)) Q g).mpr h

theorem follows_status {α β : Type} {f : α → β} {p : Attempt α} {Q : MailStage → Prop}
    {g : MailStage}
    (h : (mailing V).Follows p.run (fun _ => Q) g) : (mailing V).Follows (f <$> p).run
    (fun _ => Q) g := by
  refine (follows_bind _ _ _ _ _).mpr (follows_mono _ ?_ _ _ h)
  intro r g hg
  cases r <;> exact hg

/-- The stages of a call that sends a mail about matches. -/
def Stage.mails : Stage → Bool
  | .mailing _ _ | .loading _ | .throttling _ _ | .due _ _ | .counted _ _ | .sent _ _ |
    .stamping _ _ _
  | .refused _ | .over _ => true
  | _ => false

theorem mails_next (todo : List Participant) : (Stage.next todo).mails = false := by
  induction todo with
  | nil => rfl
  | cons p todo ih =>
    rw [Stage.next]
    cases truthy p.selfieEmbedding with
    | none => exact ih
    | some primary => rfl

theorem mails_resume (after : After) : (Stage.resume after).mails = false := by
  cases after with
  | none => rfl
  | some todo => exact mails_next todo

theorem mails_chosen (p : Participant) (after : After) : (Stage.chosen p after).mails = false := by
  rw [Stage.chosen]
  cases truthy p.selfieEmbedding with
  | none => exact mails_resume after
  | some primary => rfl

theorem mails_note {g : Stage} (hg : g.mails = false) (e : ParticipantEvent) :
    (g.note e).mails = false := by
  fun_cases Stage.note g e <;>
    first | exact hg | rfl | exact mails_next _ | exact mails_chosen _ _ | exact mails_resume _

/-- A call that sends no mail about matches keeps aside. -/
theorem follows_aside {α : Type} {prog : ParticipantProg α} {Q : α → Stage → Prop} {g : Stage}
    (hg : g.mails = false) (h : (stages V).Follows prog Q g) :
    (mailing V).Follows prog (fun _ m => m = .aside) .aside := by
  induction prog generalizing g with
  | done value => rfl
  | perform o next ih =>
    obtain ⟨hpermit, hnext⟩ := h
    refine ⟨?_, fun r hr => ?_⟩
    · cases o with
      | send id template counted => cases g <;> first | exact hpermit | cases hg
      | update id dto =>
        cases g with
        | embedding id' stored selfies =>
          obtain ⟨-, ⟨selfie, face, -, rfl⟩ | ⟨-, rfl⟩⟩ := hpermit <;> rfl
        | matched p inserted after =>
          obtain ⟨-, status, rfl⟩ := hpermit
          rfl
        | _ => first | exact hpermit.elim | cases hg
      | _ => trivial
    · exact ih r (mails_note hg _) (hnext r hr)

theorem handleSendGalleryEmail_mailing {id : ParticipantId} {g : MailStage}
    (hread : ∀ r, g.note ⟨.getById id, r⟩ = .opened r) (hgetById : g.Permits (.getById id)) :
    (mailing V).Follows (handleSendGalleryEmail id).run (fun _ g => g.unnoted = none) g := by
  refine ⟨hgetById, fun r hid => ?_⟩
  have hnote : (mailing V).note g ⟨.getById id, r⟩ = .opened r := hread r
  rw [hnote]
  cases r with
  | none => rfl
  | some participant =>
    obtain rfl : participant.id = id := hid participant rfl
    refine ⟨trivial, fun there _ => ?_⟩
    cases there with
    | false => rfl
    | true =>
      refine ⟨trivial, fun counted _ => ?_⟩
      change (mailing V).Follows (ExceptT.run (if counted = [] then _ else _)) _ (.read participant)
      split
      · rfl
      split
      · rfl
      · refine ⟨⟨rfl, rfl⟩, fun sent _ => ?_⟩
        cases sent with
        | false => rfl
        | true => exact ⟨trivial, fun t _ => ⟨⟨rfl, rfl⟩, fun _ _ => rfl⟩⟩

theorem handleSendDigest_mailing (id : ParticipantId) :
    (mailing V).Follows (handleSendDigest id).run (fun _ g => g.unnoted = none) (.reading id) := by
  refine ⟨trivial, fun r hid => ?_⟩
  cases r with
  | none => rfl
  | some participant =>
    obtain rfl : participant.id = id := hid participant rfl
    refine ⟨trivial, fun there _ => ?_⟩
    cases there with
    | false => rfl
    | true =>
      change (mailing V).Follows (ExceptT.run (match participant.notifiedFirstAt with
        | none => _ | some first => _)) _ (.read participant)
      cases hfirst : participant.notifiedFirstAt with
      | none => exact handleSendGalleryEmail_mailing (fun _ => rfl) trivial
      | some first =>
        refine ⟨trivial, fun t _ => ?_⟩
        change (mailing V).Follows (ExceptT.run (if t - participant.lastNotifiedAt.getD first <
          digestThrottleMs then _ else _)) _ (.compared participant t)
        rw [MailStage.compared, hfirst]
        simp only
        split
        · rfl
        · refine ⟨trivial, fun counted _ => ?_⟩
          change (mailing V).Follows (ExceptT.run (if counted = [] then _ else _)) _
            (.due participant _)
          split
          · rfl
          · refine ⟨⟨rfl, rfl⟩, fun sent _ => ?_⟩
            cases sent with
            | false => rfl
            | true => exact ⟨trivial, fun t _ => ⟨⟨rfl, rfl⟩, fun _ _ => rfl⟩⟩

theorem openGallery_mailing (id : ParticipantId) :
    (mailing V).Follows (openGallery id).run (fun _ g => g = .aside) .aside := by
  refine ⟨trivial, fun r _ => ?_⟩
  cases r with
  | none => rfl
  | some participant =>
    refine ⟨trivial, fun there _ => ?_⟩
    cases there with
    | false => rfl
    | true =>
      change (mailing V).Follows (ExceptT.run (if _ then _ else _)) _ .aside
      split
      · exact ⟨rfl, fun _ _ => rfl⟩
      · rfl

theorem resend_mailing (eventId : String) (id : ParticipantId) :
    (mailing V).Follows (resend eventId id).run (fun _ g => g = .aside) .aside := by
  refine ⟨trivial, fun r _ => ?_⟩
  cases r with
  | none => rfl
  | some participant =>
    change (mailing V).Follows (ExceptT.run ((if participant.eventId ≠ eventId then _ else _ :
      Attempt _) >>= _)) _ .aside
    split
    · rfl
    · exact ⟨rfl, fun _ _ => ⟨trivial, fun _ _ => rfl⟩⟩

/-- Every call keeps to its stages; none ends with a mail that is not noted. -/
theorem mail_follows (c : MailCall) : (mailing V).Follows (c.prog V) c.Post c.first := by
  have haside : ∀ {c : ParticipantCall}, c.first.mails = false →
      (mailing V).Follows (c.prog V) (fun _ g => g.unnoted = none) .aside := by
    intro c hc
    refine follows_mono _ ?_ _ _ (follows_aside hc (call_follows c))
    rintro _ g rfl
    rfl
  cases c with
  | participant c =>
    refine follows_answer ?_
    cases c with
    | sendGalleryEmail id =>
      exact follows_status (handleSendGalleryEmail_mailing (g :=
        .reading id) (fun _ => rfl) trivial)
    | sendDigest id => exact follows_status (handleSendDigest_mailing id)
    | _ => exact haside rfl
  | openGallery id =>
    refine follows_answer (follows_mono _ ?_ _ _ (openGallery_mailing id))
    rintro _ g rfl
    rfl
  | resend eventId id =>
    refine follows_answer (follows_mono _ ?_ _ _ (resend_mailing eventId id))
    rintro _ g rfl
    rfl
  | wait => exact ⟨trivial, fun _ _ => rfl⟩

end Follows

/-! Mails in time. -/

def mailStagesOf (p : Pool MailCall ParticipantOp ParticipantRes Mailbox MailAnswer) :
    List MailStage :=
  p.threads.map (fun t => t.past.foldl MailStage.note t.call.first)

/-- A digest finds the time of the last mail as it read it; the mail about a
pending gallery finds it six hours old. -/
def MailStage.Current (s : ParticipantStore) : MailStage → Prop
  | .due p _ => (s.row p.id).map Participant.lastNotifiedAt = some p.lastNotifiedAt
  | .read p => ∃ last ∈ (s.row p.id).map Participant.lastNotifiedAt,
      ∀ t ∈ last, t + digestThrottleMs ≤ s.clock
  | _ => True

/-- A mail is sent while no other one is still to be noted; and if it is not the
first one since the last submission, the time of the last mail is current. -/
def MailStage.InTime (k : ParticipantId) (inProgress : List MailStage) (s : Mailbox)
    (g : MailStage) :
    ParticipantEvent → Prop
  | ⟨.send id _ _, r⟩ => id = k → (r : Bool) = true →
      (∀ i ∈ inProgress, i.unnoted ≠ some k) ∧ (mailsSince k s.posted = [] ∨ g.Current s.store)
  | _ => True

def SendsInTime (k : ParticipantId)
    (p : Pool MailCall ParticipantOp ParticipantRes Mailbox MailAnswer)
    (t : Thread MailCall ParticipantOp ParticipantRes MailAnswer) (e : ParticipantEvent) : Prop :=
  (t.past.foldl MailStage.note t.call.first).InTime k (mailStagesOf p) p.state e

/-- The time of the last mail to the participant, as the statement sets it. -/
def ParticipantOp.notes (k : ParticipantId) : ParticipantOp → Option Date
  | .update id dto => if id = k then dto.lastNotifiedAt else none
  | _ => none

/-! The invariant. -/

structure Spaced (k : ParticipantId) (S : Multiset MailStage) (s : Mailbox) : Prop where
  cadence : Cadence k s.posted
  past : ∀ t ∈ mailsSince k s.posted, t ≤ s.store.clock
  single : S.countP (fun g => g.unnoted = some k) ≤ 1
  noting : ∀ sentAt, .noting k sentAt ∈ S → ∀ t ∈ mailsSince k s.posted, t ≤ sentAt
  noted : (∀ g ∈ S, g.unnoted ≠ some k) → ∀ t ∈ mailsSince k s.posted, ∀ row,
    s.store.row k = some row → ∃ last, row.lastNotifiedAt = some last ∧ t ≤ last
  due : ∀ p since, .due p since ∈ S → (∃ first, p.notifiedFirstAt = some first ∧
    since = p.lastNotifiedAt.getD first) ∧ since + digestThrottleMs ≤ s.store.clock

section Steps

variable {V : Services} {k : ParticipantId} {g j : MailStage} {N S : Multiset MailStage}
  {s s' : Mailbox}

/-- The mails to the participant go on as they are, or begin anew. -/
theorem Spaced.keep (h : Spaced k (g ::ₘ N) s) (hcadence : Cadence k s'.posted)
    (hmails : mailsSince k s'.posted = mailsSince k s.posted ∧ (∀ row', s'.store.row k = some row' →
      ∃ row, s.store.row k = some row ∧ row'.lastNotifiedAt = row.lastNotifiedAt) ∨
      mailsSince k s'.posted = [])
    (hclock : s.store.clock ≤ s'.store.clock) (hunnoted : j.unnoted = some k ↔ g.unnoted = some k)
    (hnoting : ∀ sentAt, j = .noting k sentAt → ∀ t ∈ mailsSince k s.posted, t ≤ sentAt)
    (hdue : ∀ p since, j = .due p since → (∃ first, p.notifiedFirstAt = some first ∧
      since = p.lastNotifiedAt.getD first) ∧ since + digestThrottleMs ≤ s'.store.clock) :
    Spaced k (j ::ₘ N) s' := by
  have hmem : ∀ t ∈ mailsSince k s'.posted, t ∈ mailsSince k s.posted := by
    intro t ht
    rcases hmails with ⟨hsame, -⟩ | hnone
    · rwa [hsame] at ht
    · rw [hnone] at ht
      exact absurd ht List.not_mem_nil
  refine ⟨hcadence, fun t ht => (h.past t (hmem t ht)).trans hclock, ?_, ?_, ?_, ?_⟩
  · have hsame : (j ::ₘ N).countP (fun g => g.unnoted = some k) =
        (g ::ₘ N).countP (fun g => g.unnoted = some k) := by
      rw [Multiset.countP_cons, Multiset.countP_cons]
      simp only [hunnoted]
    rw [hsame]
    exact h.single
  · intro sentAt hin t ht
    rcases Multiset.mem_cons.mp hin with heq | hin
    · exact hnoting sentAt heq.symm t (hmem t ht)
    · exact h.noting sentAt (Multiset.mem_cons_of_mem hin) t (hmem t ht)
  · intro hnone t ht row' hrow'
    rcases hmails with ⟨hsame, hrow⟩ | hempty
    · obtain ⟨row, hfound, hlast⟩ := hrow row' hrow'
      rw [hlast]
      refine h.noted (fun i hi => ?_) t (hmem t ht) row hfound
      rcases Multiset.mem_cons.mp hi with rfl | hi
      · exact fun hi => hnone j (Multiset.mem_cons_self ..) (hunnoted.mpr hi)
      · exact hnone i (Multiset.mem_cons_of_mem hi)
    · rw [hempty] at ht
      exact absurd ht List.not_mem_nil
  · intro p since hin
    rcases Multiset.mem_cons.mp hin with heq | hin
    · exact hdue p since heq.symm
    · obtain ⟨hfirst, hsince⟩ := h.due p since (Multiset.mem_cons_of_mem hin)
      exact ⟨hfirst, hsince.trans hclock⟩

/-- A mail to the participant is sent. -/
theorem Spaced.send (h : Spaced k (g ::ₘ N) s)
    (hposted : s'.posted = s.posted ++ [.mailed k s.store.clock])
    (hclock : s'.store.clock = s.store.clock) (hnone : ∀ i ∈ g ::ₘ N, i.unnoted ≠ some k)
    (hspaced : ∀ t ∈ mailsSince k s.posted, t + digestThrottleMs ≤ s.store.clock) :
    Spaced k (.sent k ::ₘ N) s' := by
  have hmails : mailsSince k s'.posted = mailsSince k s.posted ++ [s.store.clock] := by
    rw [hposted, mailsSince_snoc, since?, if_pos rfl]
  have hzero : N.countP (fun g => g.unnoted = some k) = 0 :=
    Multiset.countP_eq_zero.mpr fun i hi => hnone i (Multiset.mem_cons_of_mem hi)
  refine ⟨?_, ?_, ?_, ?_, ?_, ?_⟩
  · rw [hposted]
    refine cadence_snoc h.cadence fun u hu t ht => ?_
    cases hu
    exact hspaced t ht
  · intro t ht
    rw [hclock]
    rw [hmails] at ht
    rcases List.mem_append.mp ht with ht | ht
    · exact h.past t ht
    · exact (List.mem_singleton.mp ht).le
  · rw [Multiset.countP_cons, hzero]
    split <;> omega
  · intro sentAt hin
    rcases Multiset.mem_cons.mp hin with heq | hin
    · cases heq
    · exact absurd rfl (hnone _ (Multiset.mem_cons_of_mem hin))
  · intro hclear
    exact absurd rfl (hclear _ (Multiset.mem_cons_self ..))
  · intro p since hin
    rw [hclock]
    rcases Multiset.mem_cons.mp hin with heq | hin
    · cases heq
    · exact h.due p since (Multiset.mem_cons_of_mem hin)

/-- The time of the mail is noted. -/
theorem Spaced.note {sentAt : Date} (h : Spaced k (.noting k sentAt ::ₘ N) s)
    (hposted : s'.posted = s.posted) (hclock : s'.store.clock = s.store.clock)
    (hrow : ∀ row', s'.store.row k = some row' → row'.lastNotifiedAt = some sentAt) :
    Spaced k (.over ::ₘ N) s' := by
  have hzero : N.countP (fun g => g.unnoted = some k) = 0 := by
    have hsingle := h.single
    rw [Multiset.countP_cons_of_pos (p := fun g : MailStage => g.unnoted = some k) _ rfl] at hsingle
    omega
  have hold := h.noting sentAt (Multiset.mem_cons_self ..)
  refine ⟨hposted ▸ h.cadence, ?_, ?_, ?_, ?_, ?_⟩
  · rw [hposted, hclock]
    exact h.past
  · rw [Multiset.countP_cons, hzero]
    split <;> omega
  · intro later hin
    rw [hposted]
    rcases Multiset.mem_cons.mp hin with heq | hin
    · cases heq
    · exact h.noting later (Multiset.mem_cons_of_mem hin)
  · intro _ t ht row' hrow'
    rw [hposted] at ht
    exact ⟨sentAt, hrow row' hrow', hold t ht⟩
  · intro p since hin
    rw [hclock]
    rcases Multiset.mem_cons.mp hin with heq | hin
    · cases heq
    · exact h.due p since (Multiset.mem_cons_of_mem hin)

/-! Steps of the calls. -/

theorem clock_le (o : ParticipantOp) (r : ParticipantRes o) (s : ParticipantStore) :
    s.clock ≤ (participantHandler V o r s).2.clock := by
  cases o with
  | now => exact le_max_left _ _
  | upsert dto =>
    change s.clock ≤ (s.upsert dto).2.clock
    rw [ParticipantStore.upsert_rest]
  | insertMatches inserts =>
    cases r with
    | error e => exact le_rfl
    | ok answer => exact le_max_left _ _
  | putFile path key type => cases r <;> exact le_rfl
  | writeWorkFile id ordinal key => cases r <;> exact le_rfl
  | detectFaces id ordinal => rw [detectFaces_same]
  | insertSelfies id keys =>
    simp only [participantHandler]
    split <;> exact le_rfl
  | send id template counted => cases r <;> exact le_rfl
  | queue job =>
    obtain ⟨jobs, hjobs, -⟩ := s.addJob_jobs job
    simp only [participantHandler, hjobs]
    exact le_rfl
  | _ => exact le_rfl

theorem row_updated {rows : List Participant} {id : ParticipantId} {f : Participant → Participant}
    {row' : Participant} (hf : ∀ p, (f p).id = p.id)
    (h : findRow Participant.id k (updateRow Participant.id id f rows) = some row') :
    ∃ row, findRow Participant.id k rows = some row ∧ row' = if k = id then f row else row := by
  rw [findRow_updateRow hf] at h
  obtain ⟨row, hrow, rfl⟩ := Option.map_eq_some_iff.mp h
  exact ⟨row, hrow, rfl⟩

theorem row_deleted {rows : List Participant} {id : ParticipantId} {row' : Participant}
    (h : findRow Participant.id k (rows.filter (fun p => p.id ≠ id)) = some row') :
    findRow Participant.id k rows = some row' := by
  obtain ⟨hmem, hkey⟩ := mem_of_findRow h
  have hid : k ≠ id := fun hk => of_decide_eq_true (List.mem_filter.mp hmem).2 (hkey.trans hk)
  rw [findRow, List.find?_filter] at h
  rw [findRow, ← h]
  congr 1
  funext p
  by_cases hp : p.id = k
  · simp [hp, hid]
  · simp [hp]

theorem row_upsert {s : ParticipantStore} {up : ParticipantUpsert} {row' : Participant}
    (h : (s.upsert up).2.row k = some row') : s.row k = some row' ∨ (s.upsert up).1.id = k := by
  rcases ParticipantStore.upsert_cases s up with ⟨p, hp, -, hrow, hpeople, -⟩ | ⟨hrow, hpeople, -⟩
  · by_cases hid : p.id = k
    · rw [hrow]
      exact .inr hid
    · rw [ParticipantStore.row, hpeople] at h
      obtain ⟨row, hfound, hsame⟩ :=
        row_updated (f := ParticipantStore.resubmitted up) (fun _ => rfl) h
      rw [if_neg fun hk => hid hk.symm] at hsame
      rw [hsame]
      exact .inl hfound
  · rw [ParticipantStore.row, hpeople, findRow, List.find?_append, Option.or_eq_some_iff] at h
    rcases h with h | ⟨-, h⟩
    · exact .inl h
    · obtain ⟨hmem, hid⟩ := @mem_of_findRow _ Participant.id _ _ _ h
      rw [hrow, ← List.mem_singleton.mp hmem]
      exact .inr hid

/-- Only the notes of mails set the time of the last one. -/
theorem row_kept {o : ParticipantOp} (r : ParticipantRes o) {s : ParticipantStore}
    {row' : Participant}
    (hquiet : o.notes k = none)
    (h : (participantHandler V o r s).2.row k = some row') :
    (∃ row, s.row k = some row ∧ row'.lastNotifiedAt = row.lastNotifiedAt) ∨
      ∃ up, o = .upsert up ∧ (s.upsert up).1.id = k := by
  cases o with
  | upsert up =>
    rcases row_upsert h with hsame | hid
    · exact .inl ⟨row', hsame, rfl⟩
    · exact .inr ⟨up, rfl, hid⟩
  | update id dto =>
    obtain ⟨row, hrow, rfl⟩ := row_updated (f := dto.apply) (fun _ => rfl) h
    refine .inl ⟨row, hrow, ?_⟩
    by_cases hid : k = id
    · subst hid
      rw [ParticipantOp.notes, if_pos rfl] at hquiet
      rw [if_pos rfl, ParticipantChange.apply, hquiet]
      rfl
    · rw [if_neg hid]
  | deleteParticipant id => exact .inl ⟨row', row_deleted h, rfl⟩
  | scrub id =>
    obtain ⟨row, hrow, rfl⟩ := row_updated
      (f := fun p =>
        { p with selfieEmbedding := none, selfieKey := none, deletedAt := some s.clock })
      (fun _ => rfl) h
    refine .inl ⟨row, hrow, ?_⟩
    split <;> rfl
  | insertMatches inserts =>
    cases r with
    | error e => exact .inl ⟨row', h, rfl⟩
    | ok answer => exact .inl ⟨row', h, rfl⟩
  | putFile path key type => cases r <;> exact .inl ⟨row', h, rfl⟩
  | writeWorkFile id ordinal key => cases r <;> exact .inl ⟨row', h, rfl⟩
  | detectFaces id ordinal =>
    rw [detectFaces_same] at h
    exact .inl ⟨row', h, rfl⟩
  | insertSelfies id keys =>
    simp only [participantHandler] at h
    split at h <;> exact .inl ⟨row', h, rfl⟩
  | send id template counted => cases r <;> exact .inl ⟨row', h, rfl⟩
  | queue job =>
    obtain ⟨jobs, hjobs, -⟩ := s.addJob_jobs job
    simp only [participantHandler, hjobs] at h
    exact .inl ⟨row', h, rfl⟩
  | _ => exact .inl ⟨row', h, rfl⟩

/-- What is posted when no mail goes to the participant. -/
theorem posting_kept (o : ParticipantOp) (a : ParticipantRes o) (t : Date) (posted : List Posting)
    (hnone : ∀ u, .mailed k u ∉ posting o a t) : mailsSince k (posted ++ posting o a t) =
      mailsSince k posted ∨ mailsSince k (posted ++ posting o a t) = [] := by
  have hsame : mailsSince k (posted ++ []) = mailsSince k posted := by rw [List.append_nil]
  cases o with
  | upsert up =>
    rw [posting, mailsSince_snoc, since?]
    split
    · exact .inr rfl
    · exact .inl rfl
  | send id template counted =>
    cases a with
    | false => exact .inl hsame
    | true =>
      have hid : id ≠ k := by
        rintro rfl
        exact hnone t (List.mem_singleton_self _)
      refine .inl ((mailsSince_snoc k posted _).trans ?_)
      rw [since?, if_neg hid]
  | _ => exact .inl hsame

/-- A statement that neither sends to the participant nor notes a mail to them. -/
theorem Spaced.quiet (h : Spaced k (g ::ₘ N) s) {o : ParticipantOp} (r : ParticipantRes o)
    (hquiet : o.notes k = none)
    (hnone : ∀ u, .mailed k u ∉ posting o (mailHandler V o r s).1 s.store.clock)
    (hunnoted : j.unnoted = some k ↔ g.unnoted = some k)
    (hnoting : ∀ sentAt, j = .noting k sentAt → ∀ t ∈ mailsSince k s.posted, t ≤ sentAt)
    (hdue : ∀ p since, j = .due p since → (∃ first, p.notifiedFirstAt = some first ∧
      since = p.lastNotifiedAt.getD first) ∧
        since + digestThrottleMs ≤ (mailHandler V o r s).2.store.clock) :
    Spaced k (j ::ₘ N) (mailHandler V o r s).2 := by
  refine h.keep (cadence_other h.cadence hnone) ?_ (clock_le o r s.store) hunnoted hnoting hdue
  rcases posting_kept o (mailHandler V o r s).1 s.store.clock s.posted hnone with hsame | hempty
  · by_cases hup : ∃ up, o = .upsert up ∧ (s.store.upsert up).1.id = k
    · obtain ⟨up, rfl, hid⟩ := hup
      refine .inr ((mailsSince_snoc k s.posted _).trans ?_)
      exact if_pos hid
    · exact .inl ⟨hsame, fun row' hrow' => (row_kept r hquiet hrow').resolve_right hup⟩
  · exact .inr hempty

theorem Spaced.turn (h : Spaced k (g ::ₘ N) s) {o : ParticipantOp} (r : ParticipantRes o)
    (hquiet : o.notes k = none)
    (hnone : ∀ u, .mailed k u ∉ posting o (mailHandler V o r s).1 s.store.clock)
    (hunnoted : j.unnoted = some k ↔ g.unnoted = some k) (hj : j.timeless = true) :
    Spaced k (j ::ₘ N) (mailHandler V o r s).2 := by
  refine h.quiet r hquiet hnone hunnoted ?_ ?_
  · rintro sentAt rfl
    cases hj
  · rintro p since rfl
    cases hj

theorem Spaced.stay (h : Spaced k (g ::ₘ N) s) {o : ParticipantOp} (r : ParticipantRes o)
    (hquiet : o.notes k = none)
    (hnone : ∀ u, .mailed k u ∉ posting o (mailHandler V o r s).1 s.store.clock) :
    Spaced k (g ::ₘ N) (mailHandler V o r s).2 := by
  refine h.quiet r hquiet hnone Iff.rfl ?_ ?_
  · rintro sentAt rfl
    exact h.noting sentAt (Multiset.mem_cons_self ..)
  · rintro p since rfl
    obtain ⟨hfirst, hsince⟩ := h.due p since (Multiset.mem_cons_self ..)
    exact ⟨hfirst, hsince.trans (clock_le o r s.store)⟩

theorem spaced_getById (h : Spaced k (g ::ₘ N) s) {id : ParticipantId} (r : Option Participant) :
    Spaced k (g.note ⟨.getById id, (mailHandler V (.getById id) r s).1⟩ ::ₘ N)
      (mailHandler V (.getById id) r s).2 := by
  have hopened : g.unnoted = none → Spaced k (.opened (s.store.getById id) ::ₘ N)
      (mailHandler V (.getById id) r s).2 := by
    intro hg
    refine h.turn (o := .getById id) r rfl (fun u => List.not_mem_nil) ?_ ?_
    · rw [hg]
      cases s.store.getById id <;> exact Iff.rfl
    · cases s.store.getById id <;> rfl
  have hstay : Spaced k (g ::ₘ N) (mailHandler V (.getById id) r s).2 :=
    h.stay (o := .getById id) r rfl fun u => List.not_mem_nil
  cases g with
  | reading id' => exact hopened rfl
  | read p => exact hopened rfl
  | _ => exact hstay

theorem spaced_now (h : Spaced k (g ::ₘ N) s) (r : Date) :
    Spaced k (g.note ⟨.now, (mailHandler V .now r s).1⟩ ::ₘ N) (mailHandler V .now r s).2 := by
  have hstay : Spaced k (g ::ₘ N) (mailHandler V .now r s).2 :=
    h.stay (o := .now) r rfl fun u => List.not_mem_nil
  have hclock : (mailHandler V .now r s).2.store.clock = max s.store.clock r := rfl
  cases g with
  | read p =>
    change Spaced k (.compared p (max s.store.clock r) ::ₘ N) _
    rw [MailStage.compared]
    cases hfirst : p.notifiedFirstAt with
    | none => exact hstay
    | some first =>
      simp only
      split
      · exact h.turn (o := .now) r rfl (fun u => List.not_mem_nil) (by simp [MailStage.unnoted]) rfl
      · rename_i hlate
        refine h.quiet (o :=
          .now) r rfl (fun u => List.not_mem_nil) (by simp [MailStage.unnoted]) ?_ ?_
        · intro sentAt hj
          cases hj
        intro p' since hj
        cases hj
        refine ⟨⟨first, hfirst, rfl⟩, ?_⟩
        rw [hclock]
        exact le_sub_iff_add_le'.mp (not_lt.mp hlate)
  | sent id =>
    change Spaced k (.noting id (max s.store.clock r) ::ₘ N) _
    refine h.quiet (o := .now) r rfl (fun u => List.not_mem_nil) Iff.rfl ?_ ?_
    · intro sentAt hj t ht
      cases hj
      exact (h.past t ht).trans (le_max_left _ _)
    · intro p since hj
      cases hj
  | _ => exact hstay

/-- What a mail is compared with before it is sent. -/
theorem late_of_current (h : Spaced k (g ::ₘ N) s) (hnone : ∀ i ∈ g ::ₘ N, i.unnoted ≠ some k)
    (hcurrent : mailsSince k s.posted = [] ∨ g.Current s.store) {p : Participant} (hp : p.id = k)
    (hg : g = .read p ∨ ∃ since, g = .due p since) :
    ∀ t ∈ mailsSince k s.posted, t + digestThrottleMs ≤ s.store.clock := by
  intro t ht
  rcases hcurrent with hempty | hcurrent
  · rw [hempty] at ht
    exact absurd ht List.not_mem_nil
  rcases hg with rfl | ⟨since, rfl⟩
  · obtain ⟨last, hlast, hlate⟩ := hcurrent
    obtain ⟨row, hrow, rfl⟩ := Option.map_eq_some_iff.mp hlast
    obtain ⟨noted, hnoted, hle⟩ := h.noted hnone t ht row (hp ▸ hrow)
    exact (add_le_add hle le_rfl).trans (hlate noted hnoted)
  · obtain ⟨row, hrow, hsame⟩ := Option.map_eq_some_iff.mp hcurrent
    obtain ⟨noted, hnoted, hle⟩ := h.noted hnone t ht row (hp ▸ hrow)
    obtain ⟨⟨first, -, hsince⟩, hlate⟩ := h.due p since (Multiset.mem_cons_self ..)
    rw [← hsame, hnoted, Option.getD_some] at hsince
    exact (add_le_add hle le_rfl).trans (hsince ▸ hlate)

theorem spaced_send (h : Spaced k (g ::ₘ N) s) {id : ParticipantId} {template : EmailTemplate}
    {counted : List MatchRow} (r : Bool) (hpermit : g.Permits (.send id template counted))
    (hin : id = k → r = true → (∀ i ∈ g ::ₘ N, i.unnoted ≠ some k) ∧
      (mailsSince k s.posted = [] ∨ g.Current s.store)) :
    Spaced k (g.note ⟨.send id template counted,
    (mailHandler V (.send id template counted) r s).1⟩ ::ₘ N)
      (mailHandler V (.send id template counted) r s).2 := by
  have hreads : ∃ p, p.id = id ∧ (g = .read p ∨ ∃ since, g = .due p since) := by
    cases g with
    | read p => exact ⟨p, hpermit.1.symm, .inl rfl⟩
    | due p since => exact ⟨p, hpermit.1.symm, .inr ⟨since, rfl⟩⟩
    | _ => exact hpermit.elim
  obtain ⟨p, rfl, hg⟩ := hreads
  have hunnoted : g.unnoted = none := by
    rcases hg with rfl | ⟨since, rfl⟩ <;> rfl
  have hnote : g.note ⟨.send p.id template counted, r⟩ = if r then .sent p.id else .over := by
    rcases hg with rfl | ⟨since, rfl⟩ <;> rfl
  change Spaced k (g.note ⟨.send p.id template counted, r⟩ ::ₘ N) _
  rw [hnote]
  cases r with
  | false =>
    refine h.turn (o := .send p.id template counted) false rfl (fun u => List.not_mem_nil) ?_ rfl
    rw [hunnoted]
    exact Iff.rfl
  | true =>
    by_cases hid : p.id = k
    · obtain ⟨hnone, hcurrent⟩ := hin hid rfl
      have hlate := late_of_current h hnone hcurrent hid hg
      subst hid
      have hposted : (mailHandler V (.send p.id template counted) true s).2.posted =
          s.posted ++ [.mailed p.id s.store.clock] := rfl
      exact h.send hposted rfl hnone hlate
    · refine h.turn (o := .send p.id template counted) true rfl (fun u hu => ?_) ?_ rfl
      · cases List.mem_singleton.mp hu
        exact hid rfl
      · rw [hunnoted]
        constructor
        · exact fun hk => absurd (Option.some.inj hk) hid
        · intro hk
          cases hk

theorem spaced_update (h : Spaced k (g ::ₘ N) s) {id : ParticipantId} {dto : ParticipantChange}
    (hpermit : g.Permits (.update id dto)) :
    Spaced k (g.note ⟨.update id dto, ()⟩ ::ₘ N) (mailHandler V (.update id dto) () s).2 := by
  have hstay :
    dto.lastNotifiedAt = none → Spaced k (g ::ₘ N) (mailHandler V (.update id dto) () s).2 := by
    intro hdto
    refine h.stay (o := .update id dto) () ?_ fun u => List.not_mem_nil
    rw [ParticipantOp.notes, hdto, ite_self]
  cases g with
  | noting id' sentAt =>
    obtain ⟨rfl, hdto⟩ := hpermit
    by_cases hid : id = k
    · subst hid
      refine h.note (List.append_nil _) rfl fun row' hrow' => ?_
      obtain ⟨row, -, rfl⟩ := row_updated (f := dto.apply) (fun _ => rfl) hrow'
      rw [if_pos rfl, ParticipantChange.apply, hdto]
      rfl
    · refine h.turn (o := .update id dto) () (if_neg hid) (fun u => List.not_mem_nil) ?_ rfl
      · constructor
        · intro hk
          cases hk
        · exact fun hk => absurd (Option.some.inj hk) hid
  | _ => exact hstay hpermit

theorem spaced_step {L : List MailStage} (hL : (L : Multiset MailStage) = g ::ₘ N)
    (h : Spaced k (g ::ₘ N) s) {o : ParticipantOp} (r : ParticipantRes o) (hpermit : g.Permits o)
    (hin : g.InTime k L s ⟨o, (mailHandler V o r s).1⟩) :
    Spaced k (g.note ⟨o, (mailHandler V o r s).1⟩ ::ₘ N) (mailHandler V o r s).2 := by
  cases o with
  | getById id => exact spaced_getById h r
  | now => exact spaced_now h r
  | update id dto => exact spaced_update h hpermit
  | send id template counted =>
    refine spaced_send h r hpermit fun hid hsent => ?_
    obtain ⟨hnone, hcurrent⟩ := hin hid hsent
    refine ⟨fun i hi => hnone i ?_, hcurrent⟩
    rwa [← hL] at hi
  | upsert up =>
    have hnote : ∀ e, g.note ⟨.upsert up, e⟩ = g := fun e => by cases g <;> rfl
    rw [hnote]
    exact h.stay (o := .upsert up) r rfl fun u hu => by cases List.mem_singleton.mp hu
  | _ =>
    have hstay := h.stay (V := V) r rfl fun u => List.not_mem_nil
    cases g <;> exact hstay

theorem Spaced.join (h : Spaced k S s) (hg : g = .aside ∨ ∃ id, g = .reading id)
    (hposted : s'.posted = s.posted)
    (hclock : s'.store.clock = s.store.clock)
    (hrows : s'.store.participants = s.store.participants) : Spaced k (g ::ₘ S) s' := by
  have hunnoted : g.unnoted = none := by
    rcases hg with rfl | ⟨id, rfl⟩ <;> rfl
  have hrow : s'.store.row k = s.store.row k := by
    rw [ParticipantStore.row, hrows, ParticipantStore.row]
  refine ⟨hposted ▸ h.cadence, ?_, ?_, ?_, ?_, ?_⟩
  · rw [hposted, hclock]
    exact h.past
  · rw [Multiset.countP_cons_of_neg (p :=
      fun g : MailStage => g.unnoted = some k) _ (by simp [hunnoted])]
    exact h.single
  · intro sentAt hin
    rw [hposted]
    rcases Multiset.mem_cons.mp hin with rfl | hin
    · cases hunnoted
    · exact h.noting sentAt hin
  · intro hnone
    rw [hposted, hrow]
    exact h.noted fun i hi => hnone i (Multiset.mem_cons_of_mem hi)
  · intro p since hin
    rw [hclock]
    rcases Multiset.mem_cons.mp hin with rfl | hin
    · rcases hg with hg | ⟨id, hg⟩ <;> cases hg
    · exact h.due p since hin

theorem Spaced.part (h : Spaced k (g ::ₘ N) s) (hg : g.unnoted = none)
    (hposted : s'.posted = s.posted)
    (hclock : s'.store.clock = s.store.clock)
    (hrows : s'.store.participants = s.store.participants) : Spaced k N s' := by
  have hrow : s'.store.row k = s.store.row k := by
    rw [ParticipantStore.row, hrows, ParticipantStore.row]
  have hsingle := h.single
  rw [Multiset.countP_cons_of_neg (p :=
    fun g : MailStage => g.unnoted = some k) _ (by simp [hg])] at hsingle
  refine ⟨hposted ▸ h.cadence, ?_, hsingle, fun sentAt hin => ?_, fun hnone => ?_,
    fun p since hin => ?_⟩
  · rw [hposted, hclock]
    exact h.past
  · rw [hposted]
    exact h.noting sentAt (Multiset.mem_cons_of_mem hin)
  · rw [hposted, hrow]
    refine h.noted fun i hi => ?_
    rcases Multiset.mem_cons.mp hi with rfl | hi
    · rw [hg]
      nofun
    · exact hnone i hi
  · rw [hclock]
    exact h.due p since (Multiset.mem_cons_of_mem hin)

/-- The queue touches neither the rows nor the clock. -/
theorem accept_kept {c : ParticipantCall} {store store' : ParticipantStore}
    (h : (participantServer V).accept c store = some store') :
    store'.clock = store.clock ∧ store'.participants = store.participants := by
  cases c with
  | sendDigest id =>
    change (if _ then _ else _) = some store' at h
    split at h <;> cases h
    exact ⟨rfl, rfl⟩
  | _ =>
    cases h
    exact ⟨rfl, rfl⟩

theorem release_kept {c : ParticipantCall} {answer : Answer} {again : Bool}
    {store store' : ParticipantStore}
    (h : (participantServer V).release c answer again store = some store') :
    store'.clock = store.clock ∧ store'.participants = store.participants := by
  cases c with
  | sendDigest id =>
    change (if _ then _ else if _ then _ else _) = some store' at h
    split at h
    · cases h
      exact ⟨rfl, rfl⟩
    · split at h <;> cases h <;> exact ⟨rfl, rfl⟩
  | _ =>
    cases h
    exact ⟨rfl, rfl⟩

theorem first_cases (c : MailCall) : c.first = .aside ∨ ∃ id, c.first = .reading id := by
  cases c with
  | participant c =>
    cases c with
    | sendGalleryEmail id => exact .inr ⟨id, rfl⟩
    | sendDigest id => exact .inr ⟨id, rfl⟩
    | _ => exact .inl rfl
  | _ => exact .inl rfl

theorem spaced_accept {c : MailCall} (h : Spaced k S s)
    (haccept : (mailServer V).accept c s = some s') :
    Spaced k (c.first ::ₘ S) s' := by
  cases c with
  | participant c =>
    change (if _ then _ else _) = some s' at haccept
    split at haccept
    · cases haccept
    · obtain ⟨store, hstore, rfl⟩ := Option.map_eq_some_iff.mp haccept
      obtain ⟨hclock, hrows⟩ := accept_kept hstore
      exact h.join (first_cases _) rfl hclock hrows
  | _ =>
    cases haccept
    exact h.join (first_cases _) rfl rfl rfl

theorem spaced_release {c : MailCall} {answer : MailAnswer} {again : Bool}
    (h : Spaced k (g ::ₘ N) s)
    (hpost : c.Post answer g) (hrelease : (mailServer V).release c answer again s = some s') :
    Spaced k N s' := by
  cases c with
  | participant c =>
    cases answer with
    | inl answer =>
      obtain ⟨store, hstore, rfl⟩ := Option.map_eq_some_iff.mp hrelease
      obtain ⟨hclock, hrows⟩ := release_kept hstore
      exact h.part hpost rfl hclock hrows
    | inr answer =>
      cases hrelease
      exact h.part hpost rfl rfl rfl
  | _ =>
    cases hrelease
    exact h.part hpost rfl rfl rfl

theorem preserves_spaced (V : Services) (k : ParticipantId) :
    Preserves (mailServer V) (SendsInTime k)
    (mailing V) MailCall.first MailCall.Post (Spaced k) where
  accept _ _ _ _ h hs := spaced_accept h hs
  perform p _ _ o r hnotes h hpermit hin :=
    ⟨handler_expects o r, spaced_step (L := mailStagesOf p) hnotes h r hpermit hin⟩
  release _ _ _ _ _ _ _ h hpost hs := spaced_release h hpost hs

/-- As long as mails are sent in time, six hours lie between two of them. -/
theorem cadence_inTime (V : Services) (k : ParticipantId) {store : ParticipantStore}
    {p : Pool MailCall ParticipantOp ParticipantRes Mailbox MailAnswer}
    (h : (mailServer V).Reaches (SendsInTime k) ⟨[], { store := store }⟩ p) :
    Cadence k p.state.posted := by
  have hnone : ∀ t, t ∉ mailsSince k ({ store := store } : Mailbox).posted :=
    fun t => List.not_mem_nil
  have hstart : Spaced k 0 { store := store } :=
    { cadence := cadence_nil k
      past := fun t ht => absurd ht (hnone t)
      single := by simp
      noting := fun _ hin => absurd hin (Multiset.notMem_zero _)
      noted := fun _ t ht => absurd ht (hnone t)
      due := fun _ _ hin => absurd hin (Multiset.notMem_zero _) }
  exact (h.invariant mail_follows (preserves_spaced V k) rfl hstart).2.cadence

end Steps

/-! A gallery that is opened while a new selfie is processed. -/

instance (s : ParticipantStore) (g : MailStage) : Decidable (g.Current s) := by
  unfold MailStage.Current
  split <;> infer_instance

instance (k : ParticipantId) (inProgress : List MailStage) (s : Mailbox) (g : MailStage)
    (e : ParticipantEvent) : Decidable (g.InTime k inProgress s e) := by
  obtain ⟨o, r⟩ := e
  cases o <;> dsimp only [MailStage.InTime] <;> infer_instance

instance (k : ParticipantId) (p : Pool MailCall ParticipantOp ParticipantRes Mailbox MailAnswer)
    (t : Thread MailCall ParticipantOp ParticipantRes MailAnswer) (e : ParticipantEvent) :
    Decidable (SendsInTime k p t e) := by
  unfold SendsInTime
  infer_instance

/-- Told at the very beginning, and waiting for the result of another selfie. -/
def waitingAgain : ParticipantStore :=
  { told with participants := told.participants.map (fun p => { p with status := .processing }) }

def mailCall (hour : ℕ) (c : MailCall) (count : ℕ) :
    List (Move MailCall ParticipantOp ParticipantRes) :=
  .start c ::
    List.replicate count (.perform 0 (willing (hours hour) [⟨"face", "asset", "indexed"⟩])) ++
    [.leave 0 false]

/-- The gallery is opened, a rematch finds a photo, and its digest is sent. -/
def digestWhileWaiting : List (Move MailCall ParticipantOp ParticipantRes) :=
  mailCall 7 (.openGallery 0) 3 ++ mailCall 7 (.participant (.participantRematch "gala")) 8 ++
    mailCall 7 (.participant (.sendDigest 0)) 7

/-- The mail about the gallery follows the digest at once. -/
theorem not_cadence : ¬ ∀ V k store p,
    (mailServer V).Reaches (fun _ _ _ => True) ⟨[], { store := store }⟩ p →
    Cadence k p.state.posted := by
  intro h
  let moves := digestWhileWaiting ++ mailCall 7 (.participant (.sendGalleryEmail 0)) 6
  let p := ((mailServer lookalikes).play (fun _ _ _ => True) moves ⟨[], { store :=
    waitingAgain }⟩).get
    (by decide)
  have hreached :
    (mailServer lookalikes).Reaches (fun _ _ _ => True) ⟨[], { store := waitingAgain }⟩ p :=
    Server.Reaches.start.play moves (Option.some_get _).symm
  have hposted : p.state.posted = [.mailed 0 (hours 7), .mailed 0 (hours 7)] := by decide
  have hlate :=
    h lookalikes 0 waitingAgain p hreached [] [] [] (hours 7) (hours 7) hposted List.not_mem_nil
  exact absurd hlate (by decide)

/-- Seven hours later it is in time. -/
theorem cadence_inTime_later :
    ∃ p, (mailServer lookalikes).play (SendsInTime 0)
        (digestWhileWaiting ++ mailCall 14 .wait 1 ++
        mailCall 14 (.participant (.sendGalleryEmail 0)) 6)
        ⟨[], { store := waitingAgain }⟩ = some p ∧
      p.state.posted = [.mailed 0 (hours 7), .mailed 0 (hours 14)] ∧ Cadence 0 p.state.posted := by
  let moves := digestWhileWaiting ++ mailCall 14 .wait 1 ++
    mailCall 14 (.participant (.sendGalleryEmail 0)) 6
  let p := ((mailServer lookalikes).play (SendsInTime 0) moves ⟨[], { store := waitingAgain }⟩).get
    (by decide)
  have hplay :
    (mailServer lookalikes).play (SendsInTime 0) moves ⟨[], { store := waitingAgain }⟩ = some p :=
    (Option.some_get _).symm
  exact ⟨p, hplay, by decide,
    cadence_inTime lookalikes 0 (Server.Reaches.start.play moves hplay)⟩

end EventLens.Selfies
