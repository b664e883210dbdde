import EventLens.ImportOverlap
import EventLens.Observing

/-!
Cancellation of an import. Once a cancellation has returned, its job stays
cancelled, and a worker that reads the job afterwards fetches nothing, as long
as no call writes to a job that was cancelled after that call read it. A call
that has read the cancellation writes nothing over it, but the writes of the
others are unconditional in the code, so that a listing in progress brings a
cancelled job back.
-/

namespace EventLens.Import

open Programs Contract

/-- The job that a call has read last, with the status it had. -/
def readAfter (read : Option (JobId × ImportJobStatus)) :
    ImportEvent → Option (JobId × ImportJobStatus)
  | ⟨.getJob k, r⟩ => (r : Option ImportJob).map (fun job => (k, job.status))
  | _ => read

def lastRead (t : ImportThread) : Option (JobId × ImportJobStatus) := t.past.foldl readAfter none

/-- A call that has read a job before it was cancelled writes no other status
to it. -/
def Timely (p : ImportPool) (t : ImportThread) (e : ImportEvent) : Prop :=
  match e.1 with
  | .updateJob k dto => dto.status ≠ .cancelled → ∀ read ∈ lastRead t, read.1 = k →
    read.2 ≠ .cancelled → p.state.toTables.status k ≠ some .cancelled
  | _ => True

instance (p : ImportPool) (t : ImportThread) (e : ImportEvent) : Decidable (Timely p t e) := by
  obtain ⟨o, r⟩ := e
  cases o <;> dsimp only [Timely] <;> infer_instance

/-- Operations that download or store a file. -/
def ImportOp.Fetches : ImportOp → Prop
  | .downloadToFile _ _ _ | .putFile _ _ _ | .createAsset _ => True
  | _ => False

/-- The job is cancelled, and a worker that reads it now fetches nothing in
the rest of its run. -/
def CancelFinal (fuel : ℕ) (j : JobId) (p : ImportPool) : Prop :=
  p.state.toTables.status j = some .cancelled ∧
    ∀ i answers t r x p', t.call = .importFile x →
      (importServer fuel).event (.perform i answers) p = some (t, ⟨.getJob j, r⟩) →
      (importServer fuel).step (.perform i answers) p = some p' →
      ∃ t', p'.threads[i]? = some t' ∧ t'.rest.Avoids ImportOp.Fetches

/-! What a call writes rests on what it has read. -/

/-- Another status than Cancelled is written to the job read last, which was
not cancelled when it was read. -/
def Reading (read : Option (JobId × ImportJobStatus)) : ImportOp → Prop
  | .updateJob k dto =>
    dto.status ≠ .cancelled → ∃ status, read = some (k, status) ∧ status ≠ .cancelled
  | _ => True

def reading : Contract ImportOp ImportRes (Option (JobId × ImportJobStatus)) where
  note := readAfter
  expects _ _ := True
  permits := Reading

/-- Statements of a call on a job, other than writing to it. -/
def ImportOp.Strays (j : JobId) : ImportOp → Prop
  | .getJob _ => True
  | .updateJob k _ => k ≠ j
  | _ => False

def ImportOp.Writes : ImportOp → Prop
  | .updateJob _ _ => True
  | _ => False

section Reads

variable {α : Type} {read : Option (JobId × ImportJobStatus)}

theorem reading_of_not_writes {o : ImportOp} (ho : ¬ o.Writes) : Reading read o := by
  cases o <;> first | exact trivial | exact absurd trivial ho

/-- What does not write needs no reading. -/
theorem unwritten_follows {p : ImportProg α} (h : p.Avoids ImportOp.Writes) :
    reading.Follows p (fun _ _ => True) read :=
  follows_avoids reading (fun _ _ => reading_of_not_writes) h read

/-- A job that was read and was not cancelled may be written to. -/
theorem kept_follows {j : JobId} {status : ImportJobStatus} (hstatus : status ≠ .cancelled)
    {p : ImportProg α} (h : p.Avoids (ImportOp.Strays j)) :
    reading.Follows p (fun _ _ => True) (some (j, status)) := by
  induction p with
  | done value => trivial
  | perform o next ih =>
    have hpermit : Reading (some (j, status)) o ∧
        ∀ r, readAfter (some (j, status)) ⟨o, r⟩ = some (j, status) := by
      cases o with
      | getJob k => exact absurd trivial h.1
      | updateJob k dto =>
        obtain rfl := not_not.mp h.1
        exact ⟨fun _ => ⟨status, rfl, hstatus⟩, fun _ => rfl⟩
      | _ => exact ⟨trivial, fun _ => rfl⟩
    refine ⟨hpermit.1, fun r _ => ?_⟩
    change reading.Follows (next r) _ (readAfter (some (j, status)) ⟨o, r⟩)
    rw [hpermit.2 r]
    exact ih r (h.2 r)

theorem unwriting (o : ImportOp) (ho : ¬ o.Writes) {next : ImportRes o → ImportProg α}
    (h : ∀ r read, reading.Follows (next r) (fun _ _ => True) read) :
    reading.Follows (.perform o next) (fun _ _ => True) read :=
  ⟨reading_of_not_writes ho, fun r _ => h r _⟩

/-- A worker closes a job that it has just read as importing. -/
theorem finishItem_reading (j : JobId) (counter : Counter) :
    reading.Follows (finishItem j counter) (fun _ _ => True) read := by
  refine unwriting _ id fun _ read => unwriting _ id fun n read => ?_
  cases n with
  | succ n => trivial
  | zero =>
    refine ⟨trivial, fun r _ => ?_⟩
    cases r with
    | none => trivial
    | some job =>
      change reading.Follows (if job.status = .importing then _ else _ : ImportProg Unit) _
        (some (j, job.status))
      split
      · rename_i hstatus
        refine ⟨fun _ => ⟨job.status, rfl, ?_⟩, fun _ _ => trivial⟩
        rw [hstatus]
        decide
      · trivial

/-- The rest of a `try` after a job may have been closed. -/
theorem finishItem_then (j : JobId) (counter : Counter) {β : Type}
    {f : Unit → Attempt β} (h : ∀ read, reading.Follows (f ()).run (fun _ _ => True) read) :
    reading.Follows ((liftM (finishItem j counter) : Attempt Unit) >>= f).run (fun _ _ => True)
      read :=
  (follows_lift _ _ _ _ _).mpr
    (follows_mono _ (fun _ read _ => h read) _ _ (finishItem_reading j counter))

theorem linkExisting_reading (x : ItemId) (job : ImportJob) (assetId : Option String) :
    reading.Follows (linkExisting x job assetId).run (fun _ _ => True) read :=
  unwriting _ id fun _ _ => finishItem_then job.id .skippedFiles fun _ => trivial

theorem storeFile_reading (x : ItemId) (job : ImportJob) (item : ImportItem) (checksum : String)
    (size : ℕ) :
    reading.Follows (storeFile x job item checksum size).run (fun _ _ => True) read := by
  refine unwriting _ id fun assetId read => unwriting _ id fun stored read => ?_
  cases stored with
  | error e => trivial
  | ok _ =>
    refine unwriting _ id fun created read => ?_
    cases created with
    | ok _ =>
      refine unwriting _ id fun queued read => ?_
      cases queued with
      | error e => trivial
      | ok _ =>
        exact unwriting _ id fun _ _ => finishItem_then job.id .doneFiles fun _ => trivial
    | error e =>
      cases e with
      | rateLimit ms => trivial
      | other text => trivial
      | assetChecksumConstraint text =>
        refine unwriting _ id fun _ read => unwriting _ id fun winner read => ?_
        cases winner with
        | error e => trivial
        | ok winner => exact linkExisting_reading x job winner

theorem importFile_reading (x : ItemId) (job : ImportJob) (item : ImportItem) :
    reading.Follows (importFile x job item).run (fun _ _ => True) read := by
  refine unwriting _ id fun _ read => unwriting _ id fun account read => ?_
  cases account with
  | error e => trivial
  | ok account =>
  refine unwriting _ id fun accessToken read => ?_
  cases accessToken with
  | error e => trivial
  | ok accessToken =>
  refine unwriting _ id fun made read => ?_
  cases made with
  | error e => trivial
  | ok _ =>
  refine unwriting _ id fun downloaded read => ?_
  cases downloaded with
  | error e => trivial
  | ok _ =>
  refine unwriting _ id fun checksum read => ?_
  cases checksum with
  | error e => trivial
  | ok checksum =>
  refine unwriting _ id fun size read => ?_
  cases size with
  | error e => trivial
  | ok size =>
  refine unwriting _ id fun existing read => ?_
  cases existing with
  | error e => trivial
  | ok existing =>
  cases existing with
  | some assetId => exact linkExisting_reading x job (some assetId)
  | none => exact storeFile_reading x job item checksum size

theorem recoverFile_reading (x : ItemId) (job : ImportJob) (outcome : Except ImportError Verdict) :
    reading.Follows (recoverFile x job outcome) (fun _ _ => True) read := by
  have hfailed : ∀ e : ImportError, reading.Follows (do
      markItem x { status := .failed, error := some (some e.text) }
      finishItem job.id .failedFiles
      pure .success : ImportProg Verdict) (fun _ _ => True) read := by
    intro e
    refine unwriting _ id fun _ read => ?_
    change reading.Follows (finishItem job.id .failedFiles >>= fun _ => pure Verdict.success) _ read
    exact follows_seq _ (finishItem_reading job.id .failedFiles) fun _ _ _ => trivial
  cases outcome with
  | ok verdict => trivial
  | error e =>
    cases e with
    | rateLimit ms => exact unwriting _ id fun _ _ => unwriting _ id fun _ _ => trivial
    | other text => exact hfailed (.other text)
    | assetChecksumConstraint text => exact hfailed (.assetChecksumConstraint text)

theorem handleImportFile_reading (x : ItemId) :
    reading.Follows (handleImportFile x) (fun _ _ => True) read := by
  refine unwriting _ id fun r read => ?_
  cases r with
  | none => trivial
  | some item =>
    change reading.Follows (if item.status ≠ .pending then _ else _) _ _
    split
    · trivial
    · refine unwriting _ id fun r read => ?_
      cases r with
      | none => trivial
      | some job =>
        change reading.Follows (if job.status = .cancelled then _ else _) _ _
        split
        · trivial
        · refine follows_seq _ (importFile_reading x job item) fun outcome read _ => ?_
          refine follows_seq _ (recoverFile_reading x job outcome) fun verdict read _ => ?_
          exact unwriting _ id fun _ _ => trivial

theorem fanOut_avoids (j : JobId) (listed skipped : ℕ) :
    (fanOut j listed skipped).run.Avoids (ImportOp.Strays j) := by
  refine ⟨id, fun pending => ?_⟩
  change Prog.Avoids _ (ExceptT.run (if pending = [] then _ else _))
  split
  · exact ⟨not_not.mpr rfl, fun _ => trivial⟩
  · refine ⟨not_not.mpr rfl, fun _ => ⟨id, fun queued => ?_⟩⟩
    cases queued <;> trivial

/-- A listing goes on where the job it read was not cancelled. -/
theorem handleImportFolder_reading (fuel : ℕ) (j : JobId) :
    reading.Follows (handleImportFolder fuel j) (fun _ _ => True) read := by
  refine ⟨trivial, fun r _ => ?_⟩
  cases r with
  | none => trivial
  | some job =>
    change reading.Follows (if job.status = .cancelled then _ else _) _ (some (j, job.status))
    split
    · trivial
    · rename_i hstatus
      refine kept_follows hstatus (Prog.avoids_bind ?_ fun outcome => ?_)
      · refine Prog.avoids_attempt (listPages_avoids (fun o ho => ?_) job fuel []
          job.folderRemoteId none 0 0) ?_
        · cases o <;> first | exact id | cases ho
        · rintro (_ | ⟨listed, skipped⟩)
          · trivial
          · exact fanOut_avoids j listed skipped
      · cases outcome with
        | ok verdict => trivial
        | error e =>
          cases e with
          | rateLimit ms => exact ⟨id, fun _ => trivial⟩
          | other text => exact ⟨not_not.mpr rfl, fun _ => trivial⟩
          | assetChecksumConstraint text => exact ⟨not_not.mpr rfl, fun _ => trivial⟩

theorem createImport_avoids_writes (job : NewJob) : (createImport job).Avoids ImportOp.Writes := by
  refine ⟨id, fun orgId => ?_⟩
  cases orgId with
  | error e => trivial
  | ok orgId =>
  refine ⟨id, fun account => ?_⟩
  cases account with
  | error e => trivial
  | ok account => exact ⟨id, fun _ => ⟨id, fun _ => trivial⟩⟩

theorem cancel_reading (eventId : String) (j : JobId) :
    reading.Follows (cancel eventId j) (fun _ _ => True) read := by
  refine ⟨trivial, fun r _ => ?_⟩
  simp only [Prog.bind_done]
  cases r.filter (fun job => job.eventId = eventId) with
  | none => trivial
  | some job =>
    change reading.Follows (if _ then _ else _) _ _
    split
    · trivial
    · exact ⟨fun hdto => absurd rfl hdto, fun _ _ => trivial⟩

theorem prog_reading (fuel : ℕ) (c : ImportCall) :
    reading.Follows (c.prog fuel) (fun _ _ => True) none := by
  cases c with
  | importFolder j => exact handleImportFolder_reading fuel j
  | importFile x => exact handleImportFile_reading x
  | createImport job => exact unwritten_follows (createImport_avoids_writes job)
  | cancel eventId j => exact cancel_reading eventId j

/-- The step writes no other status over a cancellation. -/
def KeepsCancelled (p : ImportPool) (_t : ImportThread) (e : ImportEvent) : Prop :=
  ∀ k dto, e.1 = .updateJob k dto → dto.status ≠ .cancelled →
    p.state.toTables.status k ≠ some .cancelled

/-- The guards of the calls do the rest. -/
theorem keepsCancelled_of_timely {fuel : ℕ} {p : ImportPool}
    (h : (importServer fuel).Reaches Timely importStart p) :
    (importServer fuel).Reaches KeepsCancelled importStart p := by
  have hkeeps : Preserves (importServer fuel) Timely reading (fun _ => none) (fun _ _ _ => True)
      fun _ _ => True :=
    { accept := fun _ _ _ _ _ _ => trivial
      perform := fun _ _ _ _ _ _ _ _ _ => ⟨trivial, trivial⟩
      release := fun _ _ _ _ _ _ _ _ _ _ => trivial }
  induction h with
  | start => exact .start
  | next m earlier hstep hmeets ih =>
    refine ih.next m hstep fun te hte k dto hop hdto => ?_
    obtain ⟨-, -, -, -, hpermit, -⟩ := earlier.event (prog_reading fuel) hkeeps rfl trivial hte
    obtain ⟨t, o, r⟩ := te
    cases hop
    obtain ⟨status, hread, hstatus⟩ := hpermit hdto
    exact hmeets _ hte hdto (k, status) hread rfl hstatus

end Reads

/-! What the calls know of a cancellation. -/

inductive CancelNote
  | asking (j : JobId) (found written : Bool)
  | working (refused : Bool)
  | other
deriving DecidableEq

def ImportCall.cancelNote : ImportCall → CancelNote
  | .importFile _ => .working false
  | .cancel _ j => .asking j false false
  | .importFolder _ | .createImport _ => .other

def CancelNote.note : CancelNote → ImportEvent → CancelNote
  | .asking j _ written, ⟨.getJob _, r⟩ => .asking j (r : Option ImportJob).isSome written
  | .asking j found _, ⟨.updateJob _ _, _⟩ => .asking j found true
  | .working refused, ⟨.getJob _, r⟩ =>
    .working (refused || (r : Option ImportJob).all (fun job => job.status = .cancelled))
  | g, _ => g

/-- A cancellation writes to the job it found, and a worker that was refused
its job fetches nothing. -/
def CancelNote.Permits : CancelNote → ImportOp → Prop
  | .asking j _ _, .getJob k => k = j
  | .asking j found _, .updateJob k dto => k = j ∧ found = true ∧ dto.status = .cancelled
  | .asking _ _ _, _ => False
  | .working refused, o => o.Fetches → refused = false
  | .other, _ => True

def cancelling : Contract ImportOp ImportRes CancelNote where
  note := CancelNote.note
  expects _ _ := True
  permits := CancelNote.Permits

/-- A cancellation that succeeded has written. -/
def ImportCall.CancelPost : ImportCall → Verdict → CancelNote → Prop
  | .cancel _ j, .success, g => g = .asking j true true
  | _, _, _ => True

section Follows

variable {α : Type}

theorem other_follows (p : ImportProg α) : cancelling.Follows p (fun _ _ => True) .other := by
  induction p with
  | done value => trivial
  | perform o next ih => exact ⟨trivial, fun r _ => ih r⟩

/-- A program that fetches nothing needs no permission. -/
theorem working_follows {p : ImportProg α} (h : p.Avoids ImportOp.Fetches) (refused : Bool) :
    cancelling.Follows p (fun _ g => ∃ refused, g = .working refused) (.working refused) := by
  induction p generalizing refused with
  | done value => exact ⟨refused, rfl⟩
  | perform o next ih =>
    refine ⟨fun hfetches => absurd hfetches h.1, fun r _ => ?_⟩
    have hnote : ∃ refused', CancelNote.note (.working refused) ⟨o, r⟩ = .working refused' := by
      cases o <;> exact ⟨_, rfl⟩
    obtain ⟨refused', hnote⟩ := hnote
    change cancelling.Follows (next r) _ (CancelNote.note (.working refused) ⟨o, r⟩)
    rw [hnote]
    exact ih r (h.2 r) refused'

/-- A refused worker fetches nothing any more. -/
theorem avoids_of_refused {p : ImportProg α} {Q : α → CancelNote → Prop}
    (h : cancelling.Follows p Q (.working true)) : p.Avoids ImportOp.Fetches := by
  induction p with
  | done value => trivial
  | perform o next ih =>
    refine ⟨fun hfetches => ?_, fun r => ih r ?_⟩
    · have hrefused := h.1 hfetches
      cases hrefused
    · have hnote : CancelNote.note (.working true) ⟨o, r⟩ = .working true := by
        cases o <;> rfl
      have hnext := h.2 r trivial
      change cancelling.Follows (next r) Q (CancelNote.note (.working true) ⟨o, r⟩) at hnext
      rwa [hnote] at hnext

theorem finishItem_avoids (j : JobId) (counter : Counter) :
    (finishItem j counter).Avoids ImportOp.Fetches := by
  refine ⟨id, fun _ => ⟨id, fun n => ?_⟩⟩
  cases n with
  | succ n => trivial
  | zero =>
    refine ⟨id, fun r => ?_⟩
    cases r with
    | none => trivial
    | some job =>
      change (if job.status = .importing then _ else _ : ImportProg Unit).Avoids _
      split
      · exact ⟨id, fun _ => trivial⟩
      · trivial

theorem linkExisting_avoids (x : ItemId) (job : ImportJob) (assetId : Option String) :
    (linkExisting x job assetId).run.Avoids ImportOp.Fetches :=
  Prog.avoids_lift ⟨id, fun _ => trivial⟩ fun _ =>
    Prog.avoids_lift (finishItem_avoids job.id .skippedFiles) fun _ => trivial

theorem allowed (o : ImportOp) {next : ImportRes o → ImportProg α} {Q : α → CancelNote → Prop}
    (hnote : ∀ r, CancelNote.note (.working false) ⟨o, r⟩ = .working false)
    (h : ∀ r, cancelling.Follows (next r) Q (.working false)) :
    cancelling.Follows (.perform o next) Q (.working false) := by
  refine ⟨fun _ => rfl, fun r _ => ?_⟩
  change cancelling.Follows (next r) Q (CancelNote.note (.working false) ⟨o, r⟩)
  rw [hnote]
  exact h r

/-- A worker's note when the body of its `try` has ended. -/
def AtWork (_ : Except ImportError Verdict) (g : CancelNote) : Prop :=
  ∃ refused, g = .working refused

theorem storeFile_working (x : ItemId) (job : ImportJob) (item : ImportItem) (checksum : String)
    (size : ℕ) :
    cancelling.Follows (storeFile x job item checksum size).run AtWork (.working false) := by
  refine allowed _ (fun _ => rfl) fun assetId => allowed _ (fun _ => rfl) fun stored => ?_
  cases stored with
  | error e => exact ⟨false, rfl⟩
  | ok _ =>
    refine allowed _ (fun _ => rfl) fun created => ?_
    cases created with
    | ok _ =>
      refine allowed _ (fun _ => rfl) fun queued => ?_
      cases queued with
      | error e => exact ⟨false, rfl⟩
      | ok _ =>
        refine working_follows ?_ false
        exact Prog.avoids_lift ⟨id, fun _ => trivial⟩ fun _ =>
          Prog.avoids_lift (finishItem_avoids job.id .doneFiles) fun _ => trivial
    | error e =>
      cases e with
      | rateLimit ms => exact ⟨false, rfl⟩
      | other text => exact ⟨false, rfl⟩
      | assetChecksumConstraint text =>
        refine allowed _ (fun _ => rfl) fun _ => allowed _ (fun _ => rfl) fun winner => ?_
        cases winner with
        | error e => exact ⟨false, rfl⟩
        | ok winner => exact working_follows (linkExisting_avoids x job winner) false

theorem importFile_working (x : ItemId) (job : ImportJob) (item : ImportItem) :
    cancelling.Follows (importFile x job item).run AtWork (.working false) := by
  refine allowed _ (fun _ => rfl) fun _ => allowed _ (fun _ => rfl) fun account => ?_
  cases account with
  | error e => exact ⟨false, rfl⟩
  | ok account =>
  refine allowed _ (fun _ => rfl) fun accessToken => ?_
  cases accessToken with
  | error e => exact ⟨false, rfl⟩
  | ok accessToken =>
  refine allowed _ (fun _ => rfl) fun made => ?_
  cases made with
  | error e => exact ⟨false, rfl⟩
  | ok _ =>
  refine allowed _ (fun _ => rfl) fun downloaded => ?_
  cases downloaded with
  | error e => exact ⟨false, rfl⟩
  | ok _ =>
  refine allowed _ (fun _ => rfl) fun checksum => ?_
  cases checksum with
  | error e => exact ⟨false, rfl⟩
  | ok checksum =>
  refine allowed _ (fun _ => rfl) fun size => ?_
  cases size with
  | error e => exact ⟨false, rfl⟩
  | ok size =>
  refine allowed _ (fun _ => rfl) fun existing => ?_
  cases existing with
  | error e => exact ⟨false, rfl⟩
  | ok existing =>
  cases existing with
  | some assetId => exact working_follows (linkExisting_avoids x job (some assetId)) false
  | none => exact storeFile_working x job item checksum size

theorem recoverFile_avoids (x : ItemId) (job : ImportJob) (outcome : Except ImportError Verdict) :
    (recoverFile x job outcome).Avoids ImportOp.Fetches := by
  have hfailed : ∀ e : ImportError, (do
      markItem x { status := .failed, error := some (some e.text) }
      finishItem job.id .failedFiles
      pure .success : ImportProg Verdict).Avoids ImportOp.Fetches := fun _ =>
    Prog.avoids_bind ⟨id, fun _ => trivial⟩ fun _ =>
      Prog.avoids_bind (finishItem_avoids job.id .failedFiles) fun _ => trivial
  cases outcome with
  | ok verdict => trivial
  | error e =>
    cases e with
    | rateLimit ms => exact ⟨id, fun _ => ⟨id, fun _ => trivial⟩⟩
    | other text => exact hfailed (.other text)
    | assetChecksumConstraint text => exact hfailed (.assetChecksumConstraint text)

theorem handleImportFile_working (x : ItemId) :
    cancelling.Follows (handleImportFile x) (fun _ _ => True) (.working false) := by
  refine allowed _ (fun _ => rfl) fun r => ?_
  cases r with
  | none => trivial
  | some item =>
    change cancelling.Follows (if item.status ≠ .pending then _ else _) _ _
    split
    · trivial
    · refine ⟨fun _ => rfl, fun r _ => ?_⟩
      cases r with
      | none => trivial
      | some job =>
        change cancelling.Follows (if job.status = .cancelled then _ else _) _
          (.working (false || decide (job.status = .cancelled)))
        by_cases hcancelled : job.status = .cancelled
        · rw [if_pos hcancelled]
          trivial
        · rw [if_neg hcancelled, decide_eq_false hcancelled]
          refine follows_seq _ (importFile_working x job item) fun outcome g hg => ?_
          obtain ⟨refused, rfl⟩ := hg
          refine follows_mono _ (fun _ _ _ => trivial) _ _ (working_follows ?_ refused)
          exact Prog.avoids_bind (recoverFile_avoids x job outcome) fun _ =>
            ⟨id, fun _ => trivial⟩

theorem cancel_writes (eventId : String) (j : JobId) :
    cancelling.Follows (cancel eventId j) ((ImportCall.cancel eventId j).CancelPost)
      (.asking j false false) := by
  refine ⟨rfl, fun r _ => ?_⟩
  cases r with
  | none => trivial
  | some job =>
    simp only [Prog.bind_done]
    cases (some job).filter (fun job => job.eventId = eventId) with
    | none => trivial
    | some job =>
      change cancelling.Follows (if _ then _ else _) _ _
      split
      · trivial
      · exact ⟨⟨rfl, rfl, rfl⟩, fun _ _ => rfl⟩

theorem prog_cancelling (fuel : ℕ) (c : ImportCall) :
    cancelling.Follows (c.prog fuel) c.CancelPost c.cancelNote := by
  cases c with
  | importFolder j =>
    refine follows_mono _ ?_ _ _ (other_follows _)
    rintro verdict g -
    cases verdict <;> trivial
  | importFile x =>
    refine follows_mono _ ?_ _ _ (handleImportFile_working x)
    rintro verdict g -
    cases verdict <;> trivial
  | createImport job =>
    refine follows_mono _ ?_ _ _ (other_follows _)
    rintro verdict g -
    cases verdict <;> trivial
  | cancel eventId j => exact cancel_writes eventId j

end Follows

/-! Whole runs. -/

/-- The calls and the tables agree about the cancellations. -/
structure CancelKept (N : Multiset CancelNote) (w : ImportWorld) : Prop where
  found : ∀ j written, .asking j true written ∈ N → w.job j ≠ none
  written : ∀ j found, .asking j found true ∈ N → w.status j = some .cancelled
  ended : ∀ eventId j, (.cancel eventId j, .success) ∈ w.ended → w.status j = some .cancelled

section Runs

variable {N : Multiset CancelNote} {w w' : ImportWorld} {o : ImportOp} {r : ImportRes o} {j : JobId}

/-- No operation deletes a job. -/
theorem job_perform (h : w.job j ≠ none) : (importHandler o r w).2.job j ≠ none := by
  cases o with
  | createJob job =>
    change (w.addJob job).job j ≠ none
    rw [job_addJob]
    simp [h]
  | updateJob k dto =>
    change (w.updateJobs k dto.apply).job j ≠ none
    rw [job_updateJobs (f := dto.apply) fun _ => rfl]
    simpa using h
  | incrementCounter k counter =>
    change (w.updateJobs k (ImportJob.bump counter)).job j ≠ none
    rw [job_updateJobs (bump_id counter)]
    simpa using h
  | insertItems rows =>
    simp only [importHandler]
    split <;> exact h
  | queueImportFiles ks =>
    simp only [importHandler]
    split <;> exact h
  | _ => exact h

/-- A cancelled job stays so, unless another status is written over it. -/
theorem cancelled_perform (h : w.status j = some .cancelled)
    (htimely : ∀ k dto, o = .updateJob k dto → dto.status ≠ .cancelled →
      w.status k ≠ some .cancelled) :
    (importHandler o r w).2.status j = some .cancelled := by
  cases o with
  | createJob job =>
    change (w.addJob job).status j = some .cancelled
    obtain ⟨row, hrow, hstatus⟩ := Option.map_eq_some_iff.mp h
    rw [Tables.status, job_addJob, hrow]
    exact congrArg some hstatus
  | updateJob k dto =>
    change (w.updateJobs k dto.apply).status j = some .cancelled
    rw [status_updateJobs, h, Option.map_some]
    by_cases hjk : j = k
    · rw [if_pos hjk]
      by_cases hdto : dto.status = .cancelled
      · rw [hdto]
      · exact absurd (hjk ▸ h) (htimely k dto rfl hdto)
    · rw [if_neg hjk]
  | incrementCounter k counter =>
    change (w.updateJobs k (ImportJob.bump counter)).status j = some .cancelled
    rw [status_bump]
    exact h
  | insertItems rows =>
    simp only [importHandler]
    split <;> exact h
  | queueImportFiles ks =>
    simp only [importHandler]
    split <;> exact h
  | _ => exact h

theorem cancelKept_start : CancelKept 0 {} where
  found _ _ h := absurd h (Multiset.notMem_zero _)
  written _ _ h := absurd h (Multiset.notMem_zero _)
  ended := nofun

theorem CancelKept.tables (h : CancelKept N w) (htables : w'.toTables = w.toTables)
    (hended : w'.ended = w.ended) : CancelKept N w' where
  found j written hmem := by
    rw [Tables.job, htables]
    exact h.found j written hmem
  written j found hmem := by
    rw [Tables.status, Tables.job, htables]
    exact h.written j found hmem
  ended eventId j hmem := by
    rw [Tables.status, Tables.job, htables]
    exact h.ended eventId j (hended ▸ hmem)

theorem CancelKept.add (h : CancelKept N w) (c : ImportCall) :
    CancelKept (c.cancelNote ::ₘ N) w where
  found j written hmem := by
    rcases Multiset.mem_cons.mp hmem with hc | hmem
    · cases c <;> cases hc
    · exact h.found j written hmem
  written j found hmem := by
    rcases Multiset.mem_cons.mp hmem with hc | hmem
    · cases c <;> cases hc
    · exact h.written j found hmem
  ended := h.ended

theorem CancelKept.drop {g : CancelNote} (h : CancelKept (g ::ₘ N) w) : CancelKept N w where
  found j written hmem := h.found j written (Multiset.mem_cons_of_mem hmem)
  written j found hmem := h.written j found (Multiset.mem_cons_of_mem hmem)
  ended := h.ended

/-- A call performs an operation it may perform. -/
theorem CancelKept.perform {g : CancelNote} (h : CancelKept (g ::ₘ N) w) (hpermit : g.Permits o)
    (htimely : ∀ k dto, o = .updateJob k dto → dto.status ≠ .cancelled →
      w.status k ≠ some .cancelled) :
    CancelKept (g.note ⟨o, (importHandler o r w).1⟩ ::ₘ N) (importHandler o r w).2 := by
  have hself : ∀ j found written, g.note ⟨o, (importHandler o r w).1⟩ = .asking j found written →
      (found = true → (importHandler o r w).2.job j ≠ none) ∧
        (written = true → (importHandler o r w).2.status j = some .cancelled) := by
    intro j found written hnote
    cases g with
    | other => cases o <;> cases hnote
    | working refused => cases o <;> cases hnote
    | asking k found' written' =>
      have hold := Multiset.mem_cons_self (CancelNote.asking k found' written') N
      cases o with
      | getJob k' =>
        cases hpermit
        cases hnote
        refine ⟨fun hsome hnone => ?_, fun hwritten => ?_⟩
        · have hanswer : (importHandler (.getJob j) r w).1 = w.job j := rfl
          rw [hanswer, show w.job j = none from hnone] at hsome
          cases hsome
        · exact h.written j found' (hwritten ▸ hold)
      | updateJob k' dto =>
        obtain ⟨rfl, hfound, hdto⟩ := hpermit
        cases hnote
        have hjob := h.found j written' (hfound ▸ hold)
        refine ⟨fun _ => job_perform hjob, fun _ => ?_⟩
        change (w.updateJobs j dto.apply).status j = some .cancelled
        rw [status_updateJobs, Tables.status]
        cases hrow : w.job j with
        | none => exact absurd hrow hjob
        | some row => simp [hdto]
      | _ => cases hpermit
  refine
    { found := fun j written hmem => ?_
      written := fun j found hmem => ?_
      ended := fun eventId j hmem => cancelled_perform (h.ended eventId j ?_) htimely }
  · rcases Multiset.mem_cons.mp hmem with hnote | hmem
    · exact (hself j true written hnote.symm).1 rfl
    · exact job_perform (h.found j written (Multiset.mem_cons_of_mem hmem))
  · rcases Multiset.mem_cons.mp hmem with hnote | hmem
    · exact (hself j found true hnote.symm).2 rfl
    · exact cancelled_perform (h.written j found (Multiset.mem_cons_of_mem hmem)) htimely
  · have hsame : (importHandler o r w).2.ended = w.ended := by
      cases o <;> simp only [importHandler] <;> first | rfl | (split <;> rfl)
    rwa [hsame] at hmem

theorem cancel_preserves (fuel : ℕ) :
    Preserves (importServer fuel) KeepsCancelled cancelling ImportCall.cancelNote
      ImportCall.CancelPost CancelKept where
  accept := by
    intro c N w w' h hw
    have hqueued : (if c ∈ w.queue then some { w with queue := w.queue.erase c } else none) =
        some w' → CancelKept N w' := by
      intro hw
      split at hw
      · cases hw
        exact h.tables rfl rfl
      · cases hw
    cases c with
    | importFolder j => exact (hqueued hw).add _
    | importFile x => exact (hqueued hw).add _
    | createImport job =>
      cases hw
      exact h.add _
    | cancel eventId j =>
      cases hw
      exact h.add _
  perform := by
    intro p t N o r hnotes h hpermit hkeeps
    exact ⟨trivial, h.perform hpermit hkeeps⟩
  release := by
    intro c verdict g again N w w' h hpost hw
    have hleave : CancelKept N { w with ended := w.ended ++ [(c, verdict)] } := by
      refine { found := h.drop.found, written := h.drop.written, ended := fun eventId j hmem => ?_ }
      rcases List.mem_append.mp hmem with hmem | hmem
      · exact h.ended eventId j hmem
      · cases List.mem_singleton.mp hmem
        obtain rfl : g = .asking j true true := hpost
        exact h.written j true (Multiset.mem_cons_self _ N)
    have hback : CancelKept N { w with queue := w.queue ++ [c] } := h.drop.tables rfl rfl
    cases verdict with
    | unended => cases hw
    | rateLimited =>
      cases hw
      exact hback
    | failed =>
      cases again with
      | true =>
        cases hw
        exact hback
      | false =>
        cases hw
        exact hleave
    | success =>
      cases hw
      exact hleave
    | skipped =>
      cases hw
      exact hleave
    | refused text =>
      cases hw
      exact hleave

variable {fuel : ℕ} {p p' : ImportPool}

theorem cancel_reached (h : (importServer fuel).Reaches Timely importStart p) :
    (∀ t ∈ p.threads, t.Obeys cancelling ImportCall.cancelNote ImportCall.CancelPost) ∧
      CancelKept (notesOf cancelling ImportCall.cancelNote p.threads) p.state :=
  (keepsCancelled_of_timely h).invariant (prog_cancelling fuel) (cancel_preserves fuel) rfl
    cancelKept_start

/-- A worker's notes are a worker's. -/
theorem working_notes {t : ImportThread} {x : ItemId} (h : t.call = .importFile x) :
    ∃ refused, t.notes cancelling ImportCall.cancelNote = .working refused := by
  have hfold : ∀ (past : List ImportEvent) (refused : Bool),
      ∃ refused', past.foldl CancelNote.note (.working refused) = .working refused' := by
    intro past
    induction past with
    | nil => exact fun refused => ⟨refused, rfl⟩
    | cons e past ih =>
      intro refused
      have hnote : ∃ refused', CancelNote.note (.working refused) e = .working refused' := by
        obtain ⟨o, r⟩ := e
        cases o <;> exact ⟨_, rfl⟩
      obtain ⟨refused', hnote⟩ := hnote
      rw [List.foldl_cons, hnote]
      exact ih refused'
  rw [Thread.notes, h]
  exact hfold t.past false

/-- A cancellation that has returned is final: the job stays cancelled, and a
worker that reads it fetches nothing from then on. -/
theorem cancellation_final {eventId : String}
    (h : (importServer fuel).Reaches Timely importStart p)
    (hended : (.cancel eventId j, .success) ∈ p.state.ended) : CancelFinal fuel j p := by
  have hstatus := (cancel_reached h).2.ended eventId j hended
  refine ⟨hstatus, fun i answers t r x p' hcall hevent hstep => ?_⟩
  have hmeets : (importServer fuel).Meets Timely (.perform i answers) p := by
    intro te hte
    rw [hevent] at hte
    cases hte
    trivial
  obtain ⟨hanswer, rest, hthread⟩ := Server.step_event hstep hevent
  have hobeys := (cancel_reached (h.next _ hstep hmeets)).1 _ (List.mem_of_getElem? hthread)
  refine ⟨_, hthread, ?_⟩
  obtain ⟨refused, hnotes⟩ := working_notes hcall
  rw [Thread.Obeys, notes_advanced t.call t.past _ rest t.rest, hnotes] at hobeys
  obtain ⟨job, hjob, hcancelled⟩ := Option.map_eq_some_iff.mp hstatus
  have hr : r = some job := hanswer.trans hjob
  subst hr
  have hrefused : cancelling.note (.working refused) ⟨.getJob j, some job⟩ = .working true := by
    change CancelNote.working (refused || decide (job.status = .cancelled)) = _
    rw [decide_eq_true hcancelled, Bool.or_true]
  rw [hrefused] at hobeys
  exact avoids_of_refused hobeys

end Runs

/-! A listing in progress brings a cancelled import back. -/

def cancelAlbum : ImportCall := .cancel "event" 0

/-- The import is cancelled while its folder is being listed. -/
def broughtBack : List ImportMove :=
  let answers := answering album none
  wholeCall 0 4 answers importAlbum ++ .start (.importFolder 0) :: performs 0 4 answers ++
    wholeCall 1 2 answers cancelAlbum ++ performs 0 5 answers ++ [.leave 0 false]

theorem not_cancellation_final : ¬ ∀ fuel p eventId j,
    (importServer fuel).Reaches (fun _ _ _ => True) importStart p →
      (.cancel eventId j, .success) ∈ p.state.ended → CancelFinal fuel j p := by
  intro h
  let run := (importServer 1).play (fun _ _ _ => True) broughtBack importStart
  let p := run.get (by decide)
  have hreached : (importServer 1).Reaches (fun _ _ _ => True) importStart p :=
    Server.Reaches.start.play broughtBack (Option.some_get _).symm
  have hcancelled := (h 1 p "event" 0 hreached (by decide)).1
  revert hcancelled
  decide

/-- The import is cancelled once its photo is queued. -/
def cancelledInTime : List ImportMove :=
  let answers := answering album none
  wholeCall 0 4 answers importAlbum ++ wholeCall 0 9 answers (.importFolder 0) ++
    wholeCall 0 2 answers cancelAlbum ++ .start (.importFile 0) :: performs 0 1 answers

theorem cancellation_final_inTime :
    ∃ p, (importServer 1).play Timely cancelledInTime importStart = some p ∧
      CancelFinal 1 0 p := by
  let p := ((importServer 1).play Timely cancelledInTime importStart).get (by decide)
  have hplay : (importServer 1).play Timely cancelledInTime importStart = some p :=
    (Option.some_get _).symm
  have hended : (cancelAlbum, .success) ∈ p.state.ended := by decide
  exact ⟨p, hplay, cancellation_final (Server.Reaches.start.play cancelledInTime hplay) hended⟩

end EventLens.Import
