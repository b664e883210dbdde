import EventLens.IngestLedger
import Mathlib

/-!
Objects without a row. A call that has put an object inserts its row or, when
the insertion loses to another, takes the object back. As long as no insertion
fails for another reason than that, or because its event is gone, and what is
taken back goes, every object has a row, or a call in progress that answers for
it, or belonged to an event that was removed.
-/

namespace EventLens.Ingest

open Programs Contract
open Import (ImportOp ImportRes ImportCall ImportError ImportJob Extension originalKey)

def IngestStore.hasEvent (s : IngestStore) (eventId : String) : Bool :=
  s.events.any (fun event => event.id = eventId)

/-- An insertion that fails otherwise than by collision does so for want of the
event. -/
def excused (s : IngestStore) (eventId : String) : Except ImportError Unit → Bool
  | .error (.other _) => !s.hasEvent eventId
  | _ => true

def IngestCall.sweeps : IngestCall → Bool
  | .cleanup _ => true
  | _ => false

/-- Insertions fail only by collision or for want of the event, and the object
of an insertion that lost is taken back, whatever becomes of cleanup jobs; a
new import is of an event that is there. -/
def grounded (s : IngestStore) (c : IngestCall) : IngestEvent → Bool
  | ⟨.createAsset row, r⟩ => excused s row.eventId r
  | ⟨.imports (.createAsset asset), r⟩ => excused s asset.eventId r
  | ⟨.imports (.deleteKeys _), r⟩ => c.sweeps || (r : Except ImportError Unit).toBool
  | ⟨.imports (.requireEvent eventId), r⟩ =>
    !(r : Except ImportError String).toBool || s.hasEvent eventId
  | _ => true

namespace Stage

/-- The call has put the object of this key and has yet to insert its row or to
take it back. -/
def AnswersFor (key : String) : Stage → Prop
  | .placed _ _ _ k | .lost _ _ k => k = key
  | _ => False

/-- The event that the stage is about has existed. -/
def Homed (s : IngestStore) : Stage → Prop
  | .admitted _ _ job | .fetched _ _ job | .hashed _ _ job _ => Issued s job.eventId
  | .looking l | .weighing l _ _ | .unseen l _ | .drawn l _ _ | .placed l _ _ _
  | .lost l _ _ => Issued s l.eventId
  | _ => True

end Stage

def Under (eventId key : String) : Prop :=
  ∃ orgId id ext, Extension ext ∧ key = originalKey orgId eventId id ext

section Notes

variable {s s' : IngestStore} {k : Stage} {e : IngestEvent}

theorem Load.failed_homed (l : Load) : l.failed.Homed s := by
  unfold Load.failed
  split <;> trivial

theorem insertion_homed {l : Load} {id key : String} (h : Issued s l.eventId)
    (r : Except ImportError Unit) : (Stage.insertion l id key r).Homed s := by
  unfold Stage.insertion
  split
  · trivial
  · exact h
  · exact l.failed_homed

theorem homed_note (h : k.Homed s)
    (hevent : ∀ eventId file k' event, k = .asked eventId file →
      e = ⟨.getEvent k', (some event : Option EventRow)⟩ → Issued s eventId)
    (hjob : ∀ j job, e = ⟨.imports (.getJob j), (some job : Option ImportJob)⟩ →
      Issued s job.eventId) : (k.note e).Homed s := by
  unfold Stage.note
  split <;> (try split) <;> (try split) <;>
    first
    | exact h
    | exact trivial
    | exact Load.failed_homed _
    | exact insertion_homed h _
    | exact hevent _ _ _ _ rfl rfl
    | exact hjob _ _ rfl

end Notes

/-- The object of this key has a row, a call that answers for it, or belonged
to an event that is gone. -/
def Owner (S : Multiset HandNote) (s : IngestStore) (key : String) : Prop :=
  (∃ a ∈ s.assets, a.storageKey = key) ∨ (∃ g ∈ S, g.1.AnswersFor key) ∨
    ∃ eventId, Gone s eventId ∧ Under eventId key

/-- Every object has an owner, and every event that is spoken of has existed. -/
structure Owned (S : Multiset HandNote) (s : IngestStore) : Prop where
  owners : ∀ object ∈ s.bucket, Owner S s object.1
  jobs : ∀ job ∈ s.jobs, Issued s job.eventId
  homed : ∀ g ∈ S, g.1.Homed s
  asked : ∀ g ∈ S, ∀ eventId ∈ g.2.asked, Issued s eventId

section Steps

variable {f : Import.ItemId → Option String} {c : IngestCall} {s s' : IngestStore}
  {g g' : HandNote} {N S : Multiset HandNote}

theorem Stage.Homed.mono {k : Stage} (h : k.Homed s) (hs : Extends s s') : k.Homed s' := by
  cases k <;> first | exact Issued.mono h hs | trivial

/-- A step after which every object of before has an owner still, and a new one
is the stepping call's. -/
theorem Owned.next (h : Owned (g ::ₘ N) s) (hs : Extends s s')
    (hbucket : ∀ object ∈ s'.bucket, object ∈ s.bucket ∨ g'.1.AnswersFor object.1)
    (hrows : ∀ a ∈ s.assets, Owner (g' ::ₘ N) s' a.storageKey)
    (hheld : ∀ object ∈ s'.bucket, g.1.AnswersFor object.1 → Owner (g' ::ₘ N) s' object.1)
    (hjobs : ∀ job ∈ s'.jobs, Issued s' job.eventId) (hhomed : g'.1.Homed s')
    (hasked : ∀ eventId ∈ g'.2.asked, Issued s' eventId) : Owned (g' ::ₘ N) s' := by
  refine ⟨fun object hobject => ?_, hjobs, fun k hk => ?_, fun k hk => ?_⟩
  · rcases hbucket object hobject with hold | hnew
    · rcases h.owners object hold with ⟨a, ha, hkey⟩ | ⟨k, hk, hanswers⟩ | ⟨eventId, hgone, hunder⟩
      · exact hkey ▸ hrows a ha
      · rcases Multiset.mem_cons.mp hk with rfl | hk
        · exact hheld object hobject hanswers
        · exact .inr (.inl ⟨k, Multiset.mem_cons_of_mem hk, hanswers⟩)
      · exact .inr (.inr ⟨eventId, hgone.mono hs, hunder⟩)
    · exact .inr (.inl ⟨g', Multiset.mem_cons_self g' N, hnew⟩)
  · rcases Multiset.mem_cons.mp hk with rfl | hk
    · exact hhomed
    · exact (h.homed k (Multiset.mem_cons_of_mem hk)).mono hs
  · rcases Multiset.mem_cons.mp hk with rfl | hk
    · exact hasked
    · exact fun eventId heventId =>
        (h.asked k (Multiset.mem_cons_of_mem hk) eventId heventId).mono hs

theorem AnswersFor.unspent {key : String} {k : Stage} (h : k.AnswersFor key) :
    ∃ id, k.unspent = some id := by
  cases k <;> first | exact ⟨_, rfl⟩ | cases h

/-- A call that answers for an object inserts its row or takes the object back. -/
def IngestOp.settles : IngestOp → Bool
  | .createAsset _ | .imports (.createAsset _) | .imports (.deleteKeys _) => true
  | _ => false

theorem answers_settles {key : String} {k : Stage} {o : IngestOp} (h : k.AnswersFor key)
    (hpermit : k.Permits o) : o.settles = true := by
  cases k with
  | placed l used id key =>
    cases o with
    | imports o => cases o <;> first | exact False.elim hpermit | rfl
    | createAsset row => rfl
    | _ => cases hpermit
  | lost l id key =>
    cases o with
    | imports o => cases o <;> first | exact False.elim hpermit | rfl
    | _ => cases hpermit
  | _ => cases h

theorem jobs_insertRow (row : AssetRow) (r : Except ImportError Unit) {job : ImportJob}
    (h : job ∈ (insertRow row r s).2.jobs) : job ∈ s.jobs := by
  rcases insertRow_cases row r s with ⟨e, he⟩ | ⟨he, -, -⟩ <;>
    · rw [he] at h
      exact h

/-- The jobs after a statement: those of before, and the one that is created. -/
theorem jobs_handler {o : IngestOp} (r : IngestRes o) {job : ImportJob}
    (hjob : job ∈ (ingestHandler o r s).2.jobs) :
    (∃ job₀ ∈ s.jobs, job₀.eventId = job.eventId) ∨
      ∃ new, o = .imports (.createJob new) ∧ new.eventId = job.eventId := by
  have hupdated : ∀ k (change : ImportJob → ImportJob), (∀ j, (change j).eventId = j.eventId) →
      job ∈ updateRow ImportJob.id k change s.jobs →
        ∃ job₀ ∈ s.jobs, job₀.eventId = job.eventId := by
    intro k change hchange hmem
    rcases mem_updateRow.mp hmem with ⟨job₀, hjob₀, -, rfl⟩ | ⟨hmem, -⟩
    · exact ⟨job₀, hjob₀, (hchange job₀).symm⟩
    · exact ⟨job, hmem, rfl⟩
  cases o with
  | imports o =>
    cases o with
    | createJob new =>
      rcases List.mem_append.mp hjob with hjob | hjob
      · exact .inl ⟨job, hjob, rfl⟩
      · rw [List.mem_singleton.mp hjob]
        exact .inr ⟨new, rfl, rfl⟩
    | updateJob k dto => exact .inl (hupdated k dto.apply (fun _ => rfl) hjob)
    | incrementCounter k counter =>
      exact .inl (hupdated k (ImportJob.bump counter) (fun _ => by cases counter <;> rfl) hjob)
    | queueImportFiles ks => cases r <;> exact .inl ⟨job, hjob, rfl⟩
    | findByChecksum eventId checksum => cases r <;> exact .inl ⟨job, hjob, rfl⟩
    | hashFile path =>
      rcases hashFile_cases path r s with ⟨e, he⟩ | ⟨content, -, he⟩ <;>
        · rw [handler_imports, he] at hjob
          exact .inl ⟨job, hjob, rfl⟩
    | downloadToFile token fileId path =>
      rcases downloadToFile_cases token fileId path r s with ⟨e, he⟩ | ⟨content, -, he⟩ <;>
        · rw [handler_imports, he] at hjob
          exact .inl ⟨job, hjob, rfl⟩
    | putFile path key mimeType =>
      rcases putFile_cases path key mimeType r s with ⟨e, he⟩ | ⟨content, -, he⟩ <;>
        · rw [handler_imports, he] at hjob
          exact .inl ⟨job, hjob, rfl⟩
    | createAsset asset => exact .inl ⟨job, jobs_insertRow (importedRow asset) r hjob, rfl⟩
    | insertItems items =>
      rw [insertItems_state] at hjob
      split at hjob <;> exact .inl ⟨job, hjob, rfl⟩
    | _ => exact .inl ⟨job, hjob, rfl⟩
  | createAsset row => exact .inl ⟨job, jobs_insertRow row r hjob, rfl⟩
  | createEvent orgId dto =>
    rcases createEvent_cases orgId dto r s with hstate | hstate <;>
      · rw [hstate] at hjob
        exact .inl ⟨job, hjob, rfl⟩
  | listObjects pfx cursor => cases r <;> exact .inl ⟨job, hjob, rfl⟩
  | hardDelete orgId eventId =>
    refine .inl ⟨job, ?_, rfl⟩
    change job ∈ (s.hardDelete orgId eventId).jobs at hjob
    rw [IngestStore.hardDelete] at hjob
    split at hjob
    · exact (List.mem_filter.mp hjob).1
    · exact hjob
  | _ => exact .inl ⟨job, hjob, rfl⟩

theorem asked_note {hand : Hand} {e : IngestEvent} {eventId : String}
    (h : eventId ∈ (hand.note e).asked) : eventId ∈ hand.asked ∨
      ∃ orgId, e = ⟨.imports (.requireEvent eventId), (.ok orgId : Except ImportError String)⟩ := by
  unfold Hand.note at h
  split at h
  · exact .inl h
  · split at h
    · rename_i orgId
      cases h
      exact .inr ⟨orgId, rfl⟩
    · exact .inl h
  · exact .inl h
  · exact .inl h

/-- The event that an answer names exists. -/
theorem getEvent_issued {k : String} {event : EventRow} (h : Catalogued s)
    (hfound : s.getEvent k = some event) : Issued s k := by
  have hevent := List.find?_some (p := fun e : EventRow => e.id = k ∧ e.deleted = false) hfound
  obtain ⟨hid, -⟩ := of_decide_eq_true hevent
  exact hid ▸ h.issued event (List.mem_of_find?_eq_some hfound)

theorem hasEvent_issued {eventId : String} (h : Catalogued s) (hevent : s.hasEvent eventId = true) :
    Issued s eventId := by
  obtain ⟨event, hmem, hid⟩ := List.any_eq_true.mp hevent
  exact of_decide_eq_true hid ▸ h.issued event hmem

theorem noted_homed {k : Stage} {o : IngestOp} (r : IngestRes o) (hcatalogued : Catalogued s)
    (hjobs : ∀ job ∈ s.jobs, Issued s job.eventId) (hk : k.Homed s) (hpermit : k.Permits o) :
    (k.note ⟨o, (ingestHandler o r s).1⟩).Homed s := by
  refine homed_note hk ?_ ?_
  · rintro eventId file k' event rfl he
    obtain ⟨rfl, hanswer⟩ := Sigma.mk.inj_iff.mp he
    obtain rfl : k' = eventId := hpermit
    exact getEvent_issued hcatalogued (eq_of_heq hanswer)
  · intro j job he
    obtain ⟨rfl, hanswer⟩ := Sigma.mk.inj_iff.mp he
    obtain ⟨hjob, -⟩ :=
      mem_of_findRow (eq_of_heq hanswer : findRow ImportJob.id j s.jobs = some job)
    exact hjobs job hjob

/-- A step keeps every object's owner if it keeps those of the objects that the
stepping call answers for. -/
theorem owned_step {o : IngestOp} (r : IngestRes o) (h : Owned (g ::ₘ N) s)
    (hcatalogued : Catalogued s) (hpermit : (stages.both hands).permits g o)
    (hground : grounded s c ⟨o, (ingestHandler o r s).1⟩ = true)
    (hg' : g' = (stages.both hands).note g ⟨o, (ingestHandler o r s).1⟩)
    (hs' : s' = (ingestHandler o r s).2)
    (hbucket : ∀ object ∈ s'.bucket, object ∈ s.bucket ∨ g'.1.AnswersFor object.1)
    (hrows : ∀ a ∈ s.assets, Owner (g' ::ₘ N) s' a.storageKey)
    (hheld : ∀ object ∈ s'.bucket, g.1.AnswersFor object.1 → Owner (g' ::ₘ N) s' object.1) :
    Owned (g' ::ₘ N) s' := by
  have hextends : Extends s s' := hs' ▸ extends_handler o r
  have hmem : g ∈ g ::ₘ N := Multiset.mem_cons_self g N
  refine h.next hextends hbucket hrows hheld (fun job hjob => ?_) ?_ fun eventId hasked => ?_
  · rw [hs'] at hjob
    rcases jobs_handler r hjob with ⟨job₀, hjob₀, hevent⟩ | ⟨new, rfl, hevent⟩
    · exact hevent ▸ (h.jobs job₀ hjob₀).mono hextends
    · exact hevent ▸ (h.asked g hmem new.eventId hpermit.2.1).mono hextends
  · rw [hg']
    exact (noted_homed r hcatalogued h.jobs (h.homed g hmem) hpermit.1).mono hextends
  · rw [hg'] at hasked
    rcases asked_note hasked with hasked | ⟨orgId, he⟩
    · exact (h.asked g hmem eventId hasked).mono hextends
    · obtain ⟨rfl, hanswer⟩ := Sigma.mk.inj_iff.mp he
      rw [eq_of_heq hanswer] at hground
      have hevent : s.hasEvent eventId = true := hground
      exact (hasEvent_issued hcatalogued hevent).mono hextends

theorem bucket_handler {o : IngestOp} (ho : o.places = false) (r : IngestRes o) :
    (ingestHandler o r s).2.bucket = s.bucket := by
  have hinsert : ∀ (row : AssetRow) r, (insertRow row r s).2.bucket = s.bucket := by
    intro row r
    rcases insertRow_cases row r s with ⟨e, he⟩ | ⟨he, -, -⟩
    · rw [he]
    · rw [he]
      rfl
  cases o with
  | imports o =>
    cases o with
    | downloadToFile token fileId path => cases ho
    | putFile path key mimeType => cases ho
    | deleteKeys keys => cases ho
    | createAsset asset => exact hinsert (importedRow asset) r
    | insertItems items =>
      rw [insertItems_state]
      split <;> rfl
    | queueImportFiles ks => cases r <;> rfl
    | findByChecksum eventId checksum => cases r <;> rfl
    | hashFile path =>
      rcases hashFile_cases path r s with ⟨e, he⟩ | ⟨content, -, he⟩
      · rw [handler_imports, he]
      · rw [handler_imports, he]
    | _ => rfl
  | createAsset row => exact hinsert row r
  | createEvent orgId dto =>
    rcases createEvent_cases orgId dto r s with hstate | hstate
    · rw [hstate]
    · rw [hstate]
      rfl
  | hardDelete orgId eventId =>
    change (s.hardDelete orgId eventId).bucket = s.bucket
    rw [IngestStore.hardDelete]
    split <;> rfl
  | listObjects pfx cursor => cases r <;> rfl
  | _ => rfl

/-- An insertion fails because it is told to, or by collision, or for want of
the event. -/
theorem insertRow_error {row : AssetRow} {r : Except ImportError Unit} {e : ImportError}
    (h : (insertRow row r s).1 = .error e) :
    (∃ text, e = .assetChecksumConstraint text) ∨ ∃ text, e = .other text := by
  unfold insertRow at h
  split at h
  · exact .inr ⟨_, (Except.error.inj h).symm⟩
  · split at h
    · exact .inl ⟨_, (Except.error.inj h).symm⟩
    · split at h
      · cases h
      · exact .inr ⟨_, (Except.error.inj h).symm⟩

/-- What an insertion leaves of the object that was put. -/
theorem owned_insert {l : Load} {used : Option ℕ} {id key : String} {hand : Hand} {row : AssetRow}
    (r : Except ImportError Unit) (h : Owned ((.placed l used id key, hand) ::ₘ N) s)
    (hledger : Ledger f ((.placed l used id key, hand) ::ₘ N) s) (hrow : RowOf l id key row)
    (hground : excused s row.eventId (insertRow row r s).1 = true) {object : String × String}
    (hkey : key = object.1) :
    Owner ((Stage.insertion l id key (insertRow row r s).1, hand) ::ₘ N) (insertRow row r s).2
      object.1 := by
  have hmem := Multiset.mem_cons_self (Stage.placed l used id key, hand) N
  obtain ⟨⟨ext, hext, hname⟩, -⟩ := hledger.sourced _ hmem
  rcases insertRow_cases row r s with ⟨e, he⟩ | ⟨he, -, -⟩
  · rw [he]
    rcases insertRow_error (congrArg Prod.fst he) with ⟨text, rfl⟩ | ⟨text, rfl⟩
    · exact .inr (.inl ⟨_, Multiset.mem_cons_self _ N, hkey⟩)
    · rw [he, hrow.eventId] at hground
      have hnone :=
        List.any_eq_false.mp (Bool.not_eq_true' _ ▸ hground : s.hasEvent l.eventId = false)
      refine .inr
        (.inr ⟨l.eventId, ⟨h.homed _ hmem, fun event hevent hid => ?_⟩, l.orgId, id, ext, hext, ?_⟩)
      · exact hnone event hevent (decide_eq_true hid)
      · rw [← hkey, hname]
  · rw [he]
    exact .inl ⟨row, List.mem_append_right _ (List.mem_singleton_self row),
      hrow.storageKey.trans hkey⟩

/-- A statement that takes no row away and neither puts, inserts nor deletes. -/
theorem owned_quiet {o : IngestOp} (r : IngestRes o) (h : Owned (g ::ₘ N) s)
    (hcatalogued : Catalogued s) (hpermit : (stages.both hands).permits g o)
    (hground : grounded s c ⟨o, (ingestHandler o r s).1⟩ = true) (hsettles : o.settles = false)
    (hbucket : (ingestHandler o r s).2.bucket = s.bucket)
    (hassets : ∀ a ∈ s.assets, ∃ a' ∈ (ingestHandler o r s).2.assets,
    a'.storageKey = a.storageKey) :
    Owned ((stages.both hands).note g ⟨o, (ingestHandler o r s).1⟩ ::ₘ N)
      (ingestHandler o r s).2 := by
  refine owned_step (c := c) r h hcatalogued hpermit hground rfl rfl (fun object hobject => ?_)
    (fun a ha => .inl (hassets a ha)) fun object _ hanswers => ?_
  · exact .inl (hbucket ▸ hobject)
  · rw [answers_settles hanswers hpermit.1] at hsettles
    cases hsettles

theorem inserted_rows (row : AssetRow) (r : Except ImportError Unit) {a : AssetRow}
    (ha : a ∈ s.assets) : a ∈ (insertRow row r s).2.assets := by
  rcases insertRow_cases row r s with ⟨e, he⟩ | ⟨he, -, -⟩
  · rw [he]
    exact ha
  · rw [he]
    exact List.mem_append_left _ ha

/-- Rows go with their event, whose objects need none. -/
theorem owner_hardDelete (k eventId : String) (hstocked : Stocked s) {a : AssetRow}
    (ha : a ∈ s.assets) : Owner S (s.hardDelete k eventId) a.storageKey := by
  have hextends : Extends s (s.hardDelete k eventId) := extends_hardDelete k eventId
  rw [IngestStore.hardDelete] at hextends ⊢
  split
  · rename_i hevent
    rw [if_pos hevent] at hextends
    by_cases hsame : a.eventId = eventId
    · obtain ⟨orgId, ext, hext, hkey⟩ := hstocked.named a ha
      refine .inr (.inr ⟨a.eventId, ⟨(hstocked.catalogued.homed a ha).mono hextends, ?_⟩,
        orgId, a.id, ext, hext, hkey⟩)
      intro event hmem
      rw [hsame]
      exact of_decide_eq_true (List.mem_filter.mp hmem).2
    · exact .inl ⟨a, List.mem_filter.mpr ⟨ha, decide_eq_true hsame⟩, rfl⟩
  · exact .inl ⟨a, ha, rfl⟩

theorem assets_handler {o : IngestOp} (ho : o.changes = false) (r : IngestRes o) {a : AssetRow}
    (ha : a ∈ s.assets) : ∃ a' ∈ (ingestHandler o r s).2.assets, a'.storageKey = a.storageKey :=
  have hsame := sameCatalogue_handler (s := s) ho r
  ⟨a, hsame.assets ▸ ha, rfl⟩

theorem owned_put {l : Load} {used : Option ℕ} {id path key mimeType : String} {hand : Hand}
    (r : Except ImportError Unit) (h : Owned ((.drawn l used id, hand) ::ₘ N) s)
    (hcatalogued : Catalogued s)
    (hpermit : (stages.both hands).permits (.drawn l used id, hand)
      (.imports (.putFile path key mimeType)))
    (hground : grounded s c ⟨.imports (.putFile path key mimeType),
      (ingestHandler (.imports (.putFile path key mimeType)) r s).1⟩ = true) :
    Owned ((stages.both hands).note (.drawn l used id, hand)
        ⟨.imports (.putFile path key mimeType),
          (ingestHandler (.imports (.putFile path key mimeType)) r s).1⟩ ::ₘ N)
      (ingestHandler (.imports (.putFile path key mimeType)) r s).2 := by
  refine owned_step (c := c) r h hcatalogued hpermit hground rfl rfl (fun object hobject => ?_)
    (fun a ha => .inl (assets_handler (o := .imports (.putFile path key mimeType)) rfl r ha))
    (fun _ _ hanswers => by cases hanswers)
  rcases putFile_cases path key mimeType r s with ⟨e, he⟩ | ⟨content, -, he⟩
  · rw [handler_imports, he] at hobject
    exact .inl hobject
  · rw [handler_imports, he] at hobject ⊢
    rcases mem_putObject.mp hobject with ⟨hold, -⟩ | rfl
    · exact .inl hold
    · exact .inr rfl

/-- What a call brings in is no cleanup job's. -/
theorem Load.Serves.not_sweeps {l : Load} (h : l.Serves c) : c.sweeps = false := by
  unfold Load.Serves at h
  split at h
  · obtain ⟨file, rfl, -⟩ := h
    rfl
  · rw [h]
    rfl

/-- A cleanup job deletes objects, and leaves each of the others its owner. -/
theorem owned_sweep {keys : List String} {hand : Hand} (r : Except ImportError Unit)
    (h : Owned ((.idle, hand) ::ₘ N) s) (hcatalogued : Catalogued s)
    (hpermit : (stages.both hands).permits (.idle, hand) (.imports (.deleteKeys keys)))
    (hground : grounded s c ⟨.imports (.deleteKeys keys),
      (ingestHandler (.imports (.deleteKeys keys)) r s).1⟩ = true) :
    Owned ((stages.both hands).note (.idle, hand) ⟨.imports (.deleteKeys keys),
        (ingestHandler (.imports (.deleteKeys keys)) r s).1⟩ ::ₘ N)
      (ingestHandler (.imports (.deleteKeys keys)) r s).2 := by
  refine owned_step (c := c) r h hcatalogued hpermit hground rfl rfl (fun object hobject => .inl ?_)
    (fun a ha => .inl ⟨a, ha, rfl⟩) (fun _ _ hanswers => by cases hanswers)
  cases r with
  | error e => exact hobject
  | ok _ => exact (mem_removeObjects.mp hobject).1

theorem owned_clear {l : Load} {id key : String} {keys : List String} {hand : Hand}
    (r : Except ImportError Unit)
    (h : Owned ((.lost l id key, hand) ::ₘ N) s) (hcatalogued : Catalogued s)
    (hserves : l.Serves c)
    (hpermit : (stages.both hands).permits (.lost l id key, hand) (.imports (.deleteKeys keys)))
    (hground : grounded s c ⟨.imports (.deleteKeys keys),
      (ingestHandler (.imports (.deleteKeys keys)) r s).1⟩ = true) :
    Owned ((stages.both hands).note (.lost l id key, hand) ⟨.imports (.deleteKeys keys),
        (ingestHandler (.imports (.deleteKeys keys)) r s).1⟩ ::ₘ N)
      (ingestHandler (.imports (.deleteKeys keys)) r s).2 := by
  obtain rfl : keys = [key] := hpermit.1
  cases r with
  | error e =>
    have hrefused : (c.sweeps || false) = true := hground
    rw [hserves.not_sweeps] at hrefused
    cases hrefused
  | ok _ =>
    refine owned_step (c := c) (o := .imports (.deleteKeys [key])) (.ok ()) h hcatalogued hpermit
      hground rfl rfl (fun object hobject => .inl (mem_removeObjects.mp hobject).1)
      (fun a ha => .inl ⟨a, ha, rfl⟩) fun object hobject hanswers => ?_
    have hkey : key = object.1 := hanswers
    exact absurd (List.mem_singleton.mpr hkey.symm) (mem_removeObjects.mp hobject).2

theorem owned_perform {o : IngestOp} (r : IngestRes o) (hledger : Ledger f (g ::ₘ N) s)
    (h : Owned (g ::ₘ N) s) (hserves : g.1.Serves c) (hpermit : (stages.both hands).permits g o)
    (hground : grounded s c ⟨o, (ingestHandler o r s).1⟩ = true) :
    Owned ((stages.both hands).note g ⟨o, (ingestHandler o r s).1⟩ ::ₘ N)
      (ingestHandler o r s).2 := by
  have hstocked := hledger.stocked
  have hcatalogued := hstocked.catalogued
  obtain ⟨k, hand⟩ := g
  cases o with
  | createAsset row =>
    cases k with
    | placed l used id key =>
      refine owned_step (c := c) r h hcatalogued hpermit hground rfl rfl (fun _ hobject => .inl ?_)
        (fun a ha => .inl ⟨a, inserted_rows row r ha, rfl⟩) fun object _ hkey => ?_
      · rw [bucket_handler rfl] at hobject
        exact hobject
      · exact owned_insert r h hledger hpermit.1.2 hground hkey
    | _ => cases hpermit.1
  | imports o =>
    cases o with
    | createAsset asset =>
      cases k with
      | placed l used id key =>
        refine owned_step (c := c) r h hcatalogued hpermit hground rfl rfl
          (fun _ hobject => .inl ?_)
          (fun a ha => .inl ⟨a, inserted_rows (importedRow asset) r ha, rfl⟩)
          fun object _ hkey => ?_
        · rw [bucket_handler rfl] at hobject
          exact hobject
        · exact owned_insert r h hledger hpermit.1.2 hground hkey
      | _ => cases hpermit.1
    | putFile path key mimeType =>
      cases k with
      | drawn l used id => exact owned_put r h hcatalogued hpermit hground
      | idle => exact (idle_places rfl hpermit.2.2).elim
      | _ => cases hpermit.1
    | deleteKeys keys =>
      cases k with
      | lost l id key => exact owned_clear r h hcatalogued hserves hpermit hground
      | idle => exact owned_sweep r h hcatalogued hpermit hground
      | _ => cases hpermit.1
    | downloadToFile token fileId path =>
      refine owned_quiet (c := c) r h hcatalogued hpermit hground rfl ?_
        fun a ha => assets_handler rfl r ha
      rcases downloadToFile_cases token fileId path r s with ⟨e, he⟩ | ⟨content, -, he⟩
      · rw [handler_imports, he]
      · rw [handler_imports, he]
    | _ =>
      exact owned_quiet (c := c) r h hcatalogued hpermit hground rfl (bucket_handler rfl r)
        fun a ha => assets_handler rfl r ha
  | hardDelete orgId eventId =>
    cases k with
    | idle =>
      refine owned_step (c := c) r h hcatalogued hpermit hground rfl rfl (fun _ hobject => .inl ?_)
        (fun a ha => owner_hardDelete orgId eventId hstocked ha) (fun _ _ hanswers => by
          cases hanswers)
      rw [bucket_handler rfl] at hobject
      exact hobject
    | _ => cases hpermit.1
  | softDeleteMany eventId ids =>
    refine owned_quiet (c := c) r h hcatalogued hpermit hground rfl rfl fun a ha => ?_
    refine ⟨_, List.mem_map_of_mem ha, ?_⟩
    split <;> rfl
  | createEvent orgId dto =>
    refine owned_quiet (c := c) r h hcatalogued hpermit hground rfl (bucket_handler rfl r)
      fun a ha => ⟨a, ?_, rfl⟩
    rcases createEvent_cases orgId dto r s with hstate | hstate
    · rw [hstate]
      exact ha
    · rw [hstate]
      exact ha
  | _ =>
    exact owned_quiet (c := c) r h hcatalogued hpermit hground rfl (bucket_handler rfl r)
      fun a ha => assets_handler rfl r ha

/-! Calls start and end. -/

/-- Nothing changes but queues, staged files and answers. -/
theorem Owned.keep (h : Owned N s) (hs : SameCatalogue s s') (hbucket : s'.bucket = s.bucket)
    (hjobs : s'.jobs = s.jobs) (hS : ∀ g ∈ N, ∀ key, g.1.AnswersFor key → g ∈ S)
    (hnew : ∀ g ∈ S, g ∈ N ∨ g.1.Homed s' ∧ g.2.asked = none) : Owned S s' := by
  refine ⟨fun object hobject => ?_, fun job hjob => ?_, fun k hk => ?_,
    fun k hk eventId hasked => ?_⟩
  · rcases h.owners object (hbucket ▸ hobject) with ⟨a, ha, hkey⟩ | ⟨k, hk, hanswers⟩ |
      ⟨e, hgone, hunder⟩
    · exact .inl ⟨a, hs.assets ▸ ha, hkey⟩
    · exact .inr (.inl ⟨k, hS k hk _ hanswers, hanswers⟩)
    · exact .inr (.inr ⟨e, hgone.mono hs.extends, hunder⟩)
  · rw [hjobs] at hjob
    exact (h.jobs job hjob).mono hs.extends
  · rcases hnew k hk with hold | ⟨hhomed, -⟩
    · exact (h.homed k hold).mono hs.extends
    · exact hhomed
  · rcases hnew k hk with hold | ⟨-, hnone⟩
    · exact (h.asked k hold eventId hasked).mono hs.extends
    · rw [hnone] at hasked
      cases hasked

theorem accept_bucket {fuel : ℕ} {c : IngestCall}
    (h : (ingestServer fuel).accept c s = some s') : s'.bucket = s.bucket ∧ s'.jobs = s.jobs := by
  cases c with
  | imports c =>
    obtain ⟨w, hw, rfl⟩ := Option.map_eq_some_iff.mp h
    refine ⟨rfl, ?_⟩
    cases c with
    | createImport job =>
      cases hw
      rfl
    | cancel eventId j =>
      cases hw
      rfl
    | importFolder j =>
      change (if _ then _ else _) = _ at hw
      split at hw
      · cases hw
        rfl
      · cases hw
    | importFile x =>
      change (if _ then _ else _) = _ at hw
      split at hw
      · cases hw
        rfl
      · cases hw
  | uploadAsset eventId file =>
    change (if freshPath s file.stagingPath then _ else _) = _ at h
    split at h
    · cases h
      exact ⟨rfl, rfl⟩
    · cases h
  | cleanup job =>
    change (if job ∈ s.cleanups then _ else _) = _ at h
    split at h
    · cases h
      exact ⟨rfl, rfl⟩
    · cases h
  | _ =>
    cases h
    exact ⟨rfl, rfl⟩

theorem release_bucket {fuel : ℕ} {c : IngestCall} {reply : IngestReply} {again : Bool}
    (h : (ingestServer fuel).release c reply again s = some s') :
    s'.bucket = s.bucket ∧ s'.jobs = s.jobs := by
  have hanswered : ∀ s' : IngestStore, some { s with answered := s.answered ++ [(c, reply)] } =
      some s' → s'.bucket = s.bucket ∧ s'.jobs = s.jobs := by
    rintro s' ⟨⟩
    exact ⟨rfl, rfl⟩
  cases c with
  | imports c =>
    cases reply with
    | imports verdict =>
      obtain ⟨w, hw, rfl⟩ := Option.map_eq_some_iff.mp h
      refine ⟨rfl, ?_⟩
      cases verdict with
      | unended => cases hw
      | failed =>
        cases again <;>
          · cases hw
            rfl
      | _ =>
        cases hw
        rfl
    | _ => exact hanswered s' h
  | _ => exact hanswered s' h

/-- A call that returns answers for no object. -/
theorem ends_settled {c : IngestCall} {reply : IngestReply} (h : c.Ends reply g) {key : String}
    (hanswers : g.1.AnswersFor key) : False := by
  obtain ⟨hpost, hserves⟩ := h
  obtain ⟨k, hand⟩ := g
  obtain ⟨l, hload⟩ : ∃ l : Load, l.Serves c := by
    cases k with
    | placed l used id key => exact ⟨l, hserves⟩
    | lost l id key => exact ⟨l, hserves⟩
    | _ => cases hanswers
  unfold Load.Serves at hload
  split at hload
  · obtain ⟨file, rfl, -⟩ := hload
    rcases hpost with ⟨e, -, rfl | ⟨l, rfl⟩⟩ | ⟨result, -, hend⟩
    · cases hanswers
    · cases hanswers
    · unfold UploadEnd at hend
      split at hend
      · obtain ⟨l, key, rfl⟩ := hend
        cases hanswers
      · obtain ⟨l, rfl⟩ := hend
        cases hanswers
  · subst hload
    obtain ⟨verdict, -, rfl | rfl | ⟨l, status, assetId, rfl, -⟩⟩ := hpost
    · cases hanswers
    · cases hanswers
    · cases hanswers

theorem start_homed (c : IngestCall) : c.start.1.Homed s ∧ c.start.2.asked = none := by
  cases c with
  | imports c => cases c <;> exact ⟨trivial, rfl⟩
  | _ => exact ⟨trivial, rfl⟩

/-- The stage of a call in progress. -/
def stageOf (t : IngestThread) : Stage := t.past.foldl Stage.note t.call.first

theorem notes_stage (t : IngestThread) :
    (t.notes (stages.both hands) IngestCall.start).1 = stageOf t := by
  have hfold : ∀ (past : List IngestEvent) (g : HandNote),
      (past.foldl (stages.both hands).note g).1 = past.foldl Stage.note g.1 := by
    intro past
    induction past with
    | nil => exact fun _ => rfl
    | cons e past ih => exact fun g => ih _
  exact hfold t.past t.call.start

theorem notes_serves (t : IngestThread) :
    (t.notes (stages.both hands) IngestCall.start).1.Serves t.call := by
  have hfold : ∀ (past : List IngestEvent) (k : Stage), k.Serves t.call →
      (past.foldl Stage.note k).Serves t.call := by
    intro past
    induction past with
    | nil => exact fun _ hk => hk
    | cons e past ih => exact fun k hk => ih _ (serves_note hk e)
  rw [notes_stage]
  exact hfold t.past t.call.first (start_serves t.call)

theorem owned_preserves (fuel : ℕ) :
    Preserves (ingestServer fuel) (fun p t e => grounded p.state t.call e = true)
      (stages.both hands) IngestCall.start IngestCall.Ends
      (fun S s => ((∃ f, Ledger f S s) ∧ Spared S s) ∧ Owned S s) where
  accept c N s s' h haccept := by
    obtain ⟨⟨⟨f, hledger⟩, hspared⟩, howned⟩ := h
    obtain ⟨hbucket, hjobs⟩ := accept_bucket haccept
    refine ⟨⟨⟨f, ledger_accept hledger haccept⟩, spared_accept hspared haccept⟩,
      howned.keep (accept_sameCatalogue haccept) hbucket hjobs
      (fun g hg _ _ => Multiset.mem_cons_of_mem hg) fun g hg => ?_⟩
    rcases Multiset.mem_cons.mp hg with rfl | hg
    · exact .inr (start_homed c)
    · exact .inl hg
  perform p t N o r _ h hpermit hground := by
    obtain ⟨⟨⟨f, hledger⟩, hspared⟩, howned⟩ := h
    exact ⟨⟨trivial, listed_handler o r⟩, ⟨ledger_perform r hledger hspared hpermit,
      spared_perform r hledger hspared hpermit⟩,
      owned_perform r hledger howned (notes_serves t) hpermit hground⟩
  release c value g again N s s' h hends hrelease := by
    obtain ⟨⟨⟨f, hledger⟩, hspared⟩, howned⟩ := h
    obtain ⟨hbucket, hjobs⟩ := release_bucket hrelease
    refine ⟨⟨⟨f, ledger_release hledger hends hrelease⟩, spared_release hspared hrelease⟩,
      howned.keep (release_sameCatalogue hrelease)
      hbucket hjobs (fun k hk key hanswers => ?_) fun k hk => .inl (Multiset.mem_cons_of_mem hk)⟩
    rcases Multiset.mem_cons.mp hk with rfl | hk
    · exact (ends_settled hends hanswers).elim
    · exact hk

end Steps

/-- As long as insertions fail only by collision or for want of the event, every
object has a row, or a call in progress that will insert its row or take it
back, or its event is gone. -/
theorem no_orphans (fuel : ℕ) {s : IngestStore} {p : IngestPool} (start : AtRest s)
    (jobs : ∀ job ∈ s.jobs, Issued s job.eventId)
    (rows : ∀ object ∈ s.bucket, ∃ a ∈ s.assets, a.storageKey = object.1)
    (h : (ingestServer fuel).Reaches (fun p t e => grounded p.state t.call e = true) ⟨[], s⟩ p) :
    ∀ object ∈ p.state.bucket, (∃ a ∈ p.state.assets, a.storageKey = object.1) ∨
      (∃ t ∈ p.threads, (stageOf t).AnswersFor object.1) ∨
        ∃ eventId, Gone p.state eventId ∧ Under eventId object.1 := by
  have hstart : Owned 0 s :=
    ⟨fun object hobject => .inl (rows object hobject), jobs,
      fun _ hg => absurd hg (Multiset.notMem_zero _), fun _ hg =>
        absurd hg (Multiset.notMem_zero _)⟩
  have howned := (h.invariant (call_ends fuel) (owned_preserves fuel) rfl
    ⟨⟨⟨_, start.ledger⟩, start.spared⟩, hstart⟩).2.2
  intro object hobject
  rcases howned.owners object hobject with hrow | ⟨g, hg, hanswers⟩ | hgone
  · exact .inl hrow
  · obtain ⟨t, ht, rfl⟩ := mem_notesOf.mp hg
    rw [notes_stage] at hanswers
    exact .inr (.inl ⟨t, ht, hanswers⟩)
  · exact .inr (.inr hgone)

/-- Two uploads that collide, and an import that has put its object. -/
def partyHalfway : List IngestMove :=
  collision ++ .start (.imports (.importFile 0)) :: performs (willing 6) 0 12

theorem no_orphans_halfway :
    ∃ p, (ingestServer 0).play (fun p t e => grounded p.state t.call e = true) partyHalfway ⟨[],
    partyStore⟩ =
        some p ∧ p.state.assets.map AssetRow.id = ["0"] ∧ p.state.bucket.length = 2 ∧
      ∀ object ∈ p.state.bucket, (∃ a ∈ p.state.assets, a.storageKey = object.1) ∨
        (∃ t ∈ p.threads, (stageOf t).AnswersFor object.1) ∨
          ∃ eventId, Gone p.state eventId ∧ Under eventId object.1 := by
  have hrun : ((ingestServer 0).play (fun p t e => grounded p.state t.call e = true) partyHalfway
      ⟨[], partyStore⟩).map (fun p => (p.state.assets.map AssetRow.id, p.state.bucket.length)) =
        some (["0"], 2) := by decide
  obtain ⟨p, hplay, hends⟩ := Option.map_eq_some_iff.mp hrun
  have hjobs : ∀ job ∈ partyStore.jobs, Issued partyStore job.eventId := by
    intro job hjob
    rw [List.mem_singleton.mp hjob]
    exact party_catalogued.issued _ (List.mem_singleton_self _)
  exact ⟨p, hplay, congrArg Prod.fst hends, congrArg Prod.snd hends,
    no_orphans 0 party_atRest hjobs (fun _ hobject => absurd hobject List.not_mem_nil)
      (Server.Reaches.start.play partyHalfway hplay)⟩

end EventLens.Ingest
