import EventLens.UploadTraces

/-!
An upload that throws leaves nothing, one that answers `created` leaves the row,
the object and the job, and a retry never meets the row of a failed attempt,
exactly where no insertion and no queueing fails once the object is put, the
violated constraint apart, and the lookup after a removal that fails finds the
winner.
-/

namespace EventLens.Uploads

open Programs
open Import (extname originalKey)
open Ingest (AssetRow EventRow StagedUpload UploadResult UploadStatus putObject uploadedRow)

def FindsWinner (trace : List UploadEvent) : Prop :=
  ∃ eventId checksum winner,
    (⟨.findByChecksum eventId checksum, .ok (some winner)⟩ : UploadEvent) ∈ trace

/-- The statement did not fail where its failure strands what the earlier ones wrote. -/
def Spares (event : UploadEvent) (rest : List UploadEvent) : Prop :=
  match event with
  | ⟨.createAsset _, .error e⟩ => isAssetChecksumConstraint e = true
  | ⟨.queueAssetProcess _, .error _⟩ => False
  | ⟨.deleteKeys _, .error _⟩ => FindsWinner rest
  | _ => True

def Spared : List UploadEvent → Prop
  | [] => True
  | event :: rest => Spares event rest ∧ Spared rest

/-- No row of the id appears. -/
def NoNewRow (id : String) (s s' : UploadStore) : Prop :=
    ∀ row ∈ s'.assets, row.id = id → row ∈ s.assets

/-- What an upload promises of the asset it may create. -/
structure AllOrNothing (id eventId : String) (staged : StagedUpload)
    (r : Except UploadError UploadResult)
    (s' : UploadStore) : Prop where
  thrown : ∀ e, r = .error e → Left id none none s'
  created : ∀ assetId, r = .ok { id := assetId, status := .created } →
    ∃ row ∈ s'.assets, row.id = assetId ∧ row.eventId = eventId ∧ row.checksum = staged.checksum ∧
      row.deleted = false ∧ (row.storageKey, staged.checksum) ∈ s'.bucket ∧ assetId ∈ s'.processing
  retried : ∀ e, r = .error e → ∀ s₁ s₂ again trace assetId, NoNewRow id s' s₁ →
    again.checksum = staged.checksum →
    Among (NoNewRow id) uploadHandler (uploadAsset eventId again).run s₁ trace
      (.ok { id := assetId, status := .duplicate }) s₂ → assetId ≠ id

section Spared

variable {event : UploadEvent} {first rest : List UploadEvent}

theorem spares_of_not_writes (h : ¬ Writes event.1) : Spares event rest := by
  rcases event with ⟨o, r⟩
  cases o with
  | putFile | createAsset | queueAssetProcess | deleteKeys => exact absurd trivial h
  | _ => trivial

theorem spared_cons (h : ¬ Writes event.1) : Spared (event :: rest) ↔ Spared rest :=
  ⟨fun hs => hs.2, fun hs => ⟨spares_of_not_writes h, hs⟩⟩

theorem spared_append (h : ∀ event ∈ first, ¬ Writes event.1) : Spared (first ++ rest) ↔
    Spared rest := by
  induction first with
  | nil => rfl
  | cons event first ih =>
    rw [List.cons_append, spared_cons (h event List.mem_cons_self)]
    exact ih fun event' hevent => h event' (List.mem_cons_of_mem _ hevent)

theorem spared_of_not_writes (h : ∀ event ∈ first, ¬ Writes event.1) : Spared first := by
  rw [← List.append_nil first]
  exact (spared_append h).mpr trivial

end Spared

section Walks

variable {others : UploadStore → UploadStore → Prop} {s s' : UploadStore} {trace : List UploadEvent}
  {α : Type} {value : Except UploadError α}

/-- A handler that goes on after the staged file is discarded. -/
theorem among_discard {path : String} {f : Unit → Attempt α}
    (he : Among others uploadHandler (discard path >>= f).run s trace value s') :
    ∃ p s₁ rest, others s s₁ ∧
    trace = ⟨.unlink path, (uploadHandler (.unlink path) p s₁).1⟩ :: rest ∧
      Among others uploadHandler (f ()).run (uploadHandler (.unlink path) p s₁).2 rest value
      s' := by
  obtain ⟨first, r, state, rest, rfl, hunlink, hrest⟩ := among_ignoring he
  obtain ⟨p, s₁, before, hanswer, rfl⟩ := among_single hunlink
  refine ⟨p, s₁, rest, before, ?_, ?_⟩
  · rw [hanswer]
    rfl
  · rw [hanswer]
    exact hrest

theorem not_touches {o : UploadOp} (hw : ¬ Writes o)
    (hu : ∀ path, o ≠ .unlink path) : ¬ Touches o := by
  rintro (h | ⟨path, h⟩)
  · exact hw h
  · exact hu path h

theorem avoids_call {bad : UploadOp → Prop} {o : UploadOp} (ho : ¬ bad o) :
    (call o).run.Avoids bad :=
  ⟨ho, fun _ => trivial⟩

theorem avoids_assertStorageAvailable (orgId : String) (incomingBytes : ℕ) :
    (assertStorageAvailable orgId incomingBytes).run.Avoids Touches := by
  unfold assertStorageAvailable
  refine Prog.avoids_attempt (avoids_call (not_touches id (by simp))) fun org => ?_
  cases org with
  | none => trivial
  | some org =>
    refine Prog.avoids_attempt (avoids_call (not_touches id (by simp))) fun usedBytes => ?_
    refine Prog.avoids_attempt (avoids_call (not_touches id (by simp))) fun _ => ?_
    dsimp only
    split <;> trivial

theorem reads_ok {o : UploadOp} {p r : UploadRes o} (ho : ¬ Touches o)
    (h : uploadHandler o p s = (r, s')) :
    s' = s := by
  rw [← uploadHandler_reads (s := s) p ho, h]

theorem findByChecksum_ok {eventId checksum : String}
    {p : UploadRes (.findByChecksum eventId checksum)}
    {found : Option AssetRow}
    (h : uploadHandler (.findByChecksum eventId checksum) p s = (.ok found, s')) :
    found = s.findByChecksum eventId checksum := by
  cases p with
  | error e => cases h
  | ok a => exact (Except.ok.inj (congrArg Prod.fst h)).symm

/-- An upload that ends before its object is put: with the asset that another
one created, or with an error. -/
structure EndsEarly (R : UploadStore → UploadStore → Prop) (staged : StagedUpload) (s : UploadStore)
    (trace : List UploadEvent) (value : Except UploadError UploadResult) (s' : UploadStore) :
    Prop where
  reads : ∀ event ∈ trace, ¬ Writes event.1
  reaches : ∃ s₁, R s s₁ ∧ (s' = s₁ ∨ ∃ p, s' = (uploadHandler (.unlink staged.stagingPath) p s₁).2)
  answers : (∃ e, value = .error e) ∨
    ∃ s₁, ∃ existing ∈ s₁.assets, R s s₁ ∧ value = .ok { id := existing.id, status := .duplicate }

variable {R : UploadStore → UploadStore → Prop} {eventId : String} {staged : StagedUpload}
  {value : Except UploadError UploadResult}

/-- The upload ends early, or goes on to store its file. -/
theorem uploadAsset_begins (hidle : ∀ s, R s s) (htrans : ∀ {s₁ s₂ s₃}, R s₁ s₂ → R s₂ s₃ → R s₁ s₃)
    (hothers : ∀ {s s'}, others s s' → R s s')
    (he : Among others uploadHandler (uploadAsset eventId staged).run s trace value s') :
    EndsEarly R staged s trace value s' ∨
      ∃ first event s₁ rest, trace = first ++ rest ∧ (∀ event ∈ first, ¬ Writes event.1) ∧ R s s₁ ∧
        Among others uploadHandler (storeUpload event eventId staged).run s₁ rest value s' := by
  unfold uploadAsset at he
  obtain ⟨p, s₁, before, ⟨event, s₂, rest, hget, rfl, hgot⟩ | ⟨e, _, rfl, rfl, rfl⟩⟩ :=
    among_call he
  swap
  · exact .inl ⟨by simp [Writes], ⟨_, hothers before, .inl rfl⟩, .inl ⟨_, rfl⟩⟩
  obtain rfl := reads_ok (not_touches id (by simp)) hget
  cases event with
  | none =>
    obtain ⟨p, s₃, rest, before', rfl, hend⟩ := among_discard hgot
    obtain ⟨rfl, rfl, rfl⟩ := among_done.mp hend
    exact .inl ⟨by simp [Writes], ⟨_, htrans (hothers before) (hothers before'), .inr ⟨p, rfl⟩⟩,
      .inl ⟨_, rfl⟩⟩
  | some event =>
    dsimp only at hgot
    obtain ⟨p', s₃, before', ⟨existing, s₄, rest, hfind, rfl, hfound⟩ | ⟨e, _, rfl, rfl, rfl⟩⟩ :=
      among_call hgot
    swap
    · exact .inl
        ⟨by simp [Writes], ⟨_, htrans (hothers before) (hothers before'), .inl rfl⟩, .inl ⟨_, rfl⟩⟩
    obtain rfl := reads_ok (not_touches id (by simp)) hfind
    have hreach := htrans (hothers before) (hothers before')
    cases existing with
    | some existing =>
      obtain ⟨p, s₅, rest, before'', rfl, hend⟩ := among_discard hfound
      obtain ⟨rfl, rfl, rfl⟩ := among_done.mp hend
      have hmem := List.mem_of_find?_eq_some (findByChecksum_ok hfind).symm
      exact .inl ⟨by simp [Writes], ⟨_, htrans hreach (hothers before''), .inr ⟨p, rfl⟩⟩,
        .inr ⟨_, existing, hmem, hreach, rfl⟩⟩
    | none =>
      dsimp only at hfound
      obtain ⟨first, quota, s₅, rest, rfl, hquota, hrest⟩ := among_lift.mp hfound
      obtain ⟨hfirst, hquiet⟩ := among_avoids (R := R) hidle htrans hothers
        (fun o r s ho => by rw [uploadHandler_reads r ho]; exact hidle s)
        (avoids_assertStorageAvailable event.orgId staged.size) hquota
      have hreach' := htrans hreach hquiet
      have hpast : ∀ event' ∈ (⟨.getById eventId, .ok (some event)⟩ : UploadEvent) ::
          ⟨.findByChecksum eventId staged.checksum, .ok none⟩ :: first, ¬ Writes event'.1 := by
        simp only [List.mem_cons, forall_eq_or_imp]
        exact ⟨id, id, fun event' hevent hw => hfirst event' hevent (.inl hw)⟩
      cases quota with
      | ok _ => exact .inr ⟨_, event, s₅, rest, rfl, hpast, hreach', hrest⟩
      | error e =>
        obtain ⟨p, s₆, rest', before'', rfl, hend⟩ := among_discard hrest
        obtain ⟨rfl, rfl, rfl⟩ := among_done.mp hend
        refine .inl ⟨?_, ⟨_, htrans hreach' (hothers before''), .inr ⟨p, rfl⟩⟩, .inl ⟨_, rfl⟩⟩
        intro event' hevent
        rcases List.mem_append.mp
          (show event' ∈ (_ :: _ :: first) ++ [_] from hevent) with hmem | hlast
        · exact hpast event' hmem
        · rw [List.mem_singleton.mp hlast]
          exact id

/-- What the row and its job come to: both there, the job refused, or no row. -/
theorem createAsset_ends {row : AssetRow} {path : String}
    (he : Among others uploadHandler (createAsset row path).run s trace value s') :
    ∃ p s₁, others s s₁ ∧
      ((∃ e, uploadHandler (.createAsset row) p s₁ = (.error e, s₁) ∧
      trace = [⟨.createAsset row, .error e⟩] ∧
          value = .error e ∧ s' = s₁) ∨
        ∃ p' s₂ s₃, others { s₁ with assets := s₁.assets ++ [row] } s₂ ∧
          others (uploadHandler (.unlink path) p' s₂).2 s₃ ∧
          ((∃ e, isAssetChecksumConstraint e = false ∧ value = .error e ∧ s' = s₃ ∧
              trace = [⟨.createAsset row, .ok ()⟩,
              ⟨.unlink path, (uploadHandler (.unlink path) p' s₂).1⟩,
                ⟨.queueAssetProcess row.id, .error e⟩]) ∨
            value = .ok { id := row.id, status := .created } ∧
              s' = { s₃ with processing := s₃.processing ++ [row.id] } ∧
              trace = [⟨.createAsset row, .ok ()⟩,
              ⟨.unlink path, (uploadHandler (.unlink path) p' s₂).1⟩,
                ⟨.queueAssetProcess row.id, .ok ()⟩])) := by
  obtain ⟨p, s₁, before, ⟨u, s₂, rest, hcreate, rfl, hcreated⟩ | ⟨e, hcreate, rfl, rfl, rfl⟩⟩ :=
    among_call he
  swap
  · exact ⟨p, _, before, .inl ⟨e, hcreate, rfl, rfl, rfl⟩⟩
  obtain rfl := createAsset_ok hcreate
  obtain ⟨p', s₃, rest, before', rfl, hdiscarded⟩ := among_discard hcreated
  obtain ⟨p'', s₄, before'', hqueue⟩ := among_call hdiscarded
  refine ⟨p, s₁, before, .inr ⟨p', s₃, s₄, before', before'', ?_⟩⟩
  rcases hqueue with ⟨u', s₅, rest, hqueue, rfl, hdone⟩ | ⟨e, hqueue, rfl, rfl, rfl⟩
  · obtain rfl := queueAssetProcess_ok hqueue
    obtain ⟨rfl, rfl, rfl⟩ := among_done.mp hdone
    exact .inr ⟨rfl, rfl, rfl⟩
  · exact .inl ⟨e, queueAssetProcess_error hqueue, rfl, rfl, rfl⟩

/-- The answer after another request won: its asset, or an error where no lookup finds it. -/
theorem answerWinner_ends {row : AssetRow} {path : String} {e : UploadError}
    (he : Among others uploadHandler (answerWinner row path e).run s trace value s') :
    ∃ p s₁ p' s₂ r, others s s₁ ∧ others (uploadHandler (.deleteKeys [row.storageKey]) p s₁).2 s₂ ∧
      others (uploadHandler (.unlink path) p' s₂).2 s' ∧
      trace = [⟨.deleteKeys [row.storageKey],
      (uploadHandler (.deleteKeys [row.storageKey]) p s₁).1⟩,
        ⟨.unlink path, (uploadHandler (.unlink path) p' s₂).1⟩,
        ⟨.findByChecksum row.eventId row.checksum, r⟩] ∧
      (((∃ e, value = .error e) ∧ ∀ winner, r ≠ .ok (some winner)) ∨
        ∃ winner ∈ s'.assets, r = .ok (some winner) ∧
          value = .ok { id := winner.id, status := .duplicate }) := by
  obtain ⟨first, r, state, rest, rfl, hdelete, hdeleted⟩ := among_ignoring he
  obtain ⟨p, s₁, before, hanswer, rfl⟩ := among_single hdelete
  obtain ⟨p', s₂, rest', before', rfl, hdiscarded⟩ := among_discard hdeleted
  obtain ⟨p'', s₃, before'', ⟨found, s₄, rest, hfind, rfl, hfound⟩ | ⟨e', _, rfl, rfl, rfl⟩⟩ :=
    among_call hdiscarded
  swap
  · exact ⟨p, s₁, p', s₂, .error e', before, by
      rw [hanswer]; exact before', before'', by rw [hanswer]; rfl,
      .inl ⟨⟨e', rfl⟩, fun _ h => nomatch h⟩⟩
  obtain rfl := reads_ok (not_touches id (by simp)) hfind
  have hmem := findByChecksum_ok hfind
  cases found with
  | none =>
    obtain ⟨rfl, rfl, rfl⟩ := among_done.mp hfound
    exact ⟨p, s₁, p', s₂, .ok none, before, by
      rw [hanswer]; exact before', before'', by rw [hanswer]; rfl,
      .inl ⟨⟨e, rfl⟩, fun _ h => nomatch h⟩⟩
  | some winner =>
    obtain ⟨rfl, rfl, rfl⟩ := among_done.mp hfound
    exact ⟨p, s₁, p', s₂, .ok (some winner), before, by rw [hanswer]; exact before', before'',
      by rw [hanswer]; rfl, .inr ⟨winner, List.mem_of_find?_eq_some hmem.symm, rfl, rfl⟩⟩

/-- The id and the object: one of them fails, or the row comes next. -/
theorem storeUpload_begins {event : EventRow}
    (he : Among others uploadHandler (storeUpload event eventId staged).run s trace value s') :
    ∃ s₁, others s s₁ ∧
      ((∃ e, trace = [⟨.randomUUID, .error e⟩] ∧ value = .error e ∧ s' = s₁) ∨
        ∃ assetId s₂, others s₁ s₂ ∧
          ((∃ e, trace = [⟨.randomUUID, .ok assetId⟩, ⟨.putFile staged.stagingPath
                (uploadedRow event eventId staged assetId).storageKey
                (uploadedRow event eventId staged assetId).mimeType, .error e⟩] ∧
              value = .error e ∧ s' = s₂) ∨
            ∃ content first a s₃ rest, s₂.stagedFile staged.stagingPath = some content ∧
              trace = ⟨.randomUUID, .ok assetId⟩ :: ⟨.putFile staged.stagingPath
                (uploadedRow event eventId staged assetId).storageKey
                (uploadedRow event eventId staged assetId).mimeType, .ok ()⟩ :: (first ++ rest) ∧
              Among others uploadHandler
                (createAsset (uploadedRow event eventId staged assetId) staged.stagingPath).run
                { s₂ with
                  bucket :=
                    putObject (uploadedRow event eventId staged assetId).storageKey content
                      s₂.bucket }
                first a s₃ ∧
              Among others uploadHandler
                (answerUpload (uploadedRow event eventId staged assetId) staged.stagingPath a).run
                s₃ rest value s')) := by
  obtain ⟨p, s₁, before, ⟨assetId, s₂, rest, huuid, rfl, hnamed⟩ | ⟨e, _, rfl, rfl, rfl⟩⟩ :=
    among_call he
  swap
  · exact ⟨_, before, .inl ⟨e, rfl, rfl, rfl⟩⟩
  obtain rfl := reads_ok (not_touches id (by simp)) huuid
  refine ⟨_, before, .inr ⟨assetId, ?_⟩⟩
  obtain ⟨p', s₃, before', ⟨u, s₄, rest, hput, rfl, hstored⟩ | ⟨e, _, rfl, rfl, rfl⟩⟩ :=
    among_call hnamed
  swap
  · exact ⟨_, before', .inl ⟨e, rfl, rfl, rfl⟩⟩
  obtain ⟨content, hcontent, rfl⟩ := putFile_ok hput
  obtain ⟨first, a, s₅, rest, rfl, hcreate, hrest⟩ := among_lift.mp hstored
  exact ⟨s₃, before', .inr ⟨content, first, a, s₅, rest, hcontent, rfl, hcreate, hrest⟩⟩

end Walks

section Retries

variable {id eventId : String} {staged : StagedUpload} {s s' : UploadStore}
  {trace : List UploadEvent}

theorem NoNewRow.refl (s : UploadStore) : NoNewRow id s s := fun _ h _ => h

theorem NoNewRow.trans {s₁ s₂ s₃ : UploadStore} (h : NoNewRow id s₁ s₂) (h' : NoNewRow id s₂ s₃) :
    NoNewRow id s₁ s₃ := fun row hrow hid => h row (h' row hrow hid) hid

theorem NoNewRow.of_assets (h : s'.assets = s.assets) : NoNewRow id s s' := by
  intro row hrow _
  rwa [h] at hrow

theorem deleteKeys_assets {keys : List String} (p : UploadRes (.deleteKeys keys)) :
    (uploadHandler (.deleteKeys keys) p s).2.assets = s.assets := by
  cases p <;> rfl

theorem unlink_assets {path : String} (p : UploadRes (.unlink path)) :
    (uploadHandler (.unlink path) p s).2.assets = s.assets := by
  cases p <;> rfl

/-- What is answered as a duplicate was there before. -/
theorem duplicate_known {assetId : String} (hnone : ∀ row ∈ s.assets, row.id ≠ id)
    (he : Among (NoNewRow id) uploadHandler (uploadAsset eventId staged).run s trace
      (.ok { id := assetId, status := .duplicate }) s') : assetId ≠ id := by
  have hknown : ∀ {s₁}, NoNewRow id s s₁ → ∀ row ∈ s₁.assets, row.id ≠ id :=
    fun h row hrow hid => hnone row (h row hrow hid) hid
  rcases uploadAsset_begins NoNewRow.refl NoNewRow.trans (fun h => h) he with
    hearly | ⟨first, event, s₁, rest, rfl, -, hreach, hstore⟩
  · rcases hearly.answers with ⟨e, he⟩ | ⟨s₁, existing, hmem, hreach, hanswer⟩
    · cases he
    · obtain rfl : assetId = existing.id := by simpa using hanswer
      exact hknown hreach existing hmem
  · obtain ⟨s₂, before, ⟨e, _, he, _⟩ | ⟨newId, s₃, before', hput⟩⟩ := storeUpload_begins hstore
    · cases he
    rcases hput with ⟨e, _, he, _⟩ | ⟨content, first', a, s₄, rest, _, _, hcreate, hrest⟩
    · cases he
    obtain ⟨p, s₅, before'', hends⟩ := createAsset_ends hcreate
    rcases hends with ⟨e, _, _, rfl, rfl⟩ |
      ⟨p', s₆, s₇, _, _, ⟨e, hother, rfl, rfl, _⟩ | ⟨rfl, _, _⟩⟩
    · cases hconstraint : isAssetChecksumConstraint e with
      | false =>
        rw [answerUpload_other hconstraint] at hrest
        obtain ⟨_, he, _⟩ := among_done.mp hrest
        cases he
      | true =>
        rw [answerUpload_constraint hconstraint] at hrest
        obtain ⟨p₁, s₆, p₂, s₇, r, b₁, b₂, b₃, _, ⟨⟨e', he⟩, _⟩ | ⟨winner, hmem, _, hanswer⟩⟩ :=
          answerWinner_ends hrest
        · cases he
        · obtain rfl : assetId = winner.id := by simpa using hanswer
          have hput : NoNewRow id s s₄ :=
            (((hreach.trans before).trans before').trans (.of_assets rfl)).trans before''
          have hdelete : NoNewRow id s s₇ :=
            ((hput.trans b₁).trans (.of_assets (deleteKeys_assets p₁))).trans b₂
          exact hknown ((hdelete.trans (.of_assets (unlink_assets p₂))).trans b₃) winner hmem
    · rw [answerUpload_other hother] at hrest
      obtain ⟨_, he, _⟩ := among_done.mp hrest
      cases he
    · obtain ⟨_, he, _⟩ := among_done.mp hrest
      cases he

end Retries

section Upload

variable {id eventId : String} {staged : StagedUpload} {s s' : UploadStore}
  {trace : List UploadEvent}
  {r : Except UploadError UploadResult}

/-- An upload that throws and leaves nothing can be retried. -/
theorem allOrNothing_of_clean (hthrown : ∀ e, r = .error e → Left id none none s')
    (hcreated : ∀ assetId, r ≠ .ok { id := assetId, status := .created }) :
    AllOrNothing id eventId staged r s' where
  thrown := hthrown
  created assetId h := absurd h (hcreated assetId)
  retried e he s₁ s₂ again trace assetId hnew _ hretry := by
    refine duplicate_known (fun row hrow hid => ?_) hretry
    exact nomatch ((hthrown e he).rows row hid).mp (hnew row hrow hid)

/-- What the file is stored under and as belongs to the id. -/
theorem ownKey_uploadedRow (event : EventRow) (eventId : String) (staged : StagedUpload)
    (assetId : String) :
    OwnKey assetId (uploadedRow event eventId staged assetId).storageKey :=
  ⟨event.orgId, eventId, _, rfl⟩

/-- The upload settles the id's row, object and job exactly where it is spared. -/
def Settles (id eventId : String) (staged : StagedUpload) (trace : List UploadEvent)
    (r : Except UploadError UploadResult) (s' : UploadStore) : Prop :=
  (Spared trace ∧ AllOrNothing id eventId staged r s') ∨
    (¬ Spared trace ∧ (∃ e, r = .error e) ∧ ¬ Left id none none s')

/-- The constraint is violated: the object goes, or the winner is the answer. -/
theorem settles_answerWinner {row : AssetRow} {e : UploadError} {before : List UploadEvent}
    {content : String}
    (hbefore : ∀ rest, Spared (before ++ rest) ↔ Spared rest)
    (hobject : Left id none (some (row.storageKey, content)) s) (hkey : OwnKey id row.storageKey)
    (he : Among (Others id staged.stagingPath) uploadHandler
    (answerWinner row staged.stagingPath e).run
      s trace r s') : Settles id eventId staged (before ++ trace) r s' := by
  obtain ⟨p, s₁, p', s₂, found, b₁, b₂, b₃, rfl, hanswer⟩ := answerWinner_ends he
  have hsecond := b₁.alone.left hobject
  unfold Settles
  rw [hbefore]
  rcases hdelete : uploadHandler (.deleteKeys [row.storageKey]) p s₁ with ⟨e' | u, s₃⟩
  · obtain rfl := uploadHandler_error hdelete
    rw [hdelete] at b₂
    have hlast :=
      b₃.alone.left ((uploadHandler_alone p' (by simp [Writes])).left (b₂.alone.left hsecond))
    rcases hanswer with ⟨⟨e'', rfl⟩, hlost⟩ | ⟨winner, _, rfl, rfl⟩
    · refine .inr ⟨?_, ⟨e'', rfl⟩, hlast.not_clean hkey⟩
      rintro ⟨⟨event, checksum, winner, hmem⟩, _⟩
      simp only [List.mem_cons, List.not_mem_nil, or_false] at hmem
      rcases hmem with hmem | hmem
      · cases hmem
      · obtain ⟨hop, hres⟩ := Sigma.mk.inj hmem
        obtain ⟨rfl, rfl⟩ := UploadOp.findByChecksum.inj hop
        exact hlost winner (eq_of_heq hres).symm
    · refine .inl ⟨⟨⟨row.eventId, row.checksum, winner, by simp⟩, trivial, trivial, trivial⟩, ?_⟩
      exact allOrNothing_of_clean (by simp) (by simp)
  · obtain rfl := deleteKeys_ok hdelete
    rw [hdelete] at b₂
    have hlast := b₃.alone.left
      ((uploadHandler_alone p' (by simp [Writes])).left (b₂.alone.left hsecond.remove))
    refine .inl ⟨⟨trivial, trivial, trivial, trivial⟩, allOrNothing_of_clean (fun _ _ => hlast) ?_⟩
    rcases hanswer with ⟨⟨e'', rfl⟩, _⟩ | ⟨winner, _, _, rfl⟩ <;> simp

theorem storeUpload_settles {event : EventRow} (hclean : Left id none none s)
    (hstaged : s.stagedFile staged.stagingPath = some staged.checksum)
    (hid : ∀ assetId, (⟨.randomUUID, .ok assetId⟩ : UploadEvent) ∈ trace → assetId = id)
    (he : Among (Others id staged.stagingPath) uploadHandler (storeUpload event eventId staged).run
      s trace r s') :
    Settles id eventId staged trace r s' := by
  obtain ⟨s₁, before, ⟨e, rfl, rfl, rfl⟩ | ⟨newId, s₂, before', hput⟩⟩ := storeUpload_begins he
  · have hleft := before.alone.left hclean
    exact .inl ⟨spared_of_not_writes (by simp [Writes]), allOrNothing_of_clean (fun _ _ => hleft)
      (by simp)⟩
  have hreach := before.trans before'
  have hleft := hreach.alone.left hclean
  rcases hput with ⟨e, rfl, rfl, rfl⟩ | ⟨content, first, a, s₃, rest, hcontent, rfl, hcreate, hrest⟩
  · refine .inl ⟨?_, allOrNothing_of_clean (fun _ _ => hleft) (by simp)⟩
    exact ⟨trivial, trivial, trivial⟩
  obtain rfl := hid newId List.mem_cons_self
  obtain rfl : content = staged.checksum := by
    rw [hreach.staged, hstaged] at hcontent
    exact (Option.some.inj hcontent).symm
  have hkey := ownKey_uploadedRow event eventId staged newId
  have hobject :
    Left newId none (some ((uploadedRow event eventId staged newId).storageKey, staged.checksum))
      { s₂ with
        bucket :=
          putObject (uploadedRow event eventId staged newId).storageKey staged.checksum
          s₂.bucket } :=
    hleft.put
  obtain ⟨p, s₄, before'', hends⟩ := createAsset_ends hcreate
  have hobject' := before''.alone.left hobject
  rcases hends with ⟨e, hfail, rfl, rfl, rfl⟩ | ⟨p', s₅, s₆, b₁, b₂, hrow⟩
  · cases hconstraint : isAssetChecksumConstraint e with
    | false =>
      rw [answerUpload_other hconstraint] at hrest
      obtain ⟨rfl, rfl, rfl⟩ := among_done.mp hrest
      refine .inr ⟨?_, ⟨e, rfl⟩, hobject'.not_clean hkey⟩
      rintro ⟨_, _, h, _⟩
      rw [show isAssetChecksumConstraint e = true from h] at hconstraint
      cases hconstraint
    | true =>
      rw [answerUpload_constraint hconstraint] at hrest
      have hbefore : ∀ later, Spared ([⟨.randomUUID, .ok newId⟩, ⟨.putFile staged.stagingPath
          (uploadedRow event eventId staged newId).storageKey
          (uploadedRow event eventId staged newId).mimeType, .ok ()⟩,
          ⟨.createAsset (uploadedRow event eventId staged newId), .error e⟩] ++ later) ↔
            Spared later :=
        fun later => ⟨fun h => h.2.2.2, fun h => ⟨trivial, trivial, hconstraint, h⟩⟩
      exact settles_answerWinner hbefore hobject' hkey hrest
  · have hinserted :=
      (uploadHandler_alone p' (by simp [Writes])).left (b₁.alone.left hobject'.insert)
    have hlast := b₂.alone.left hinserted
    rcases hrow with ⟨e, hother, rfl, rfl, rfl⟩ | ⟨rfl, rfl, rfl⟩
    · rw [answerUpload_other hother] at hrest
      obtain ⟨rfl, rfl, rfl⟩ := among_done.mp hrest
      refine .inr ⟨?_, ⟨e, rfl⟩, hlast.not_clean hkey⟩
      rintro ⟨_, _, _, _, h, _⟩
      exact h
    · obtain ⟨rfl, rfl, rfl⟩ := among_done.mp hrest
      refine .inl ⟨⟨trivial, trivial, trivial, trivial, trivial, trivial⟩, ?_⟩
      refine ⟨fun _ h => (nomatch h), fun assetId h => ?_, fun _ h => (nomatch h)⟩
      obtain rfl : newId = assetId := congrArg UploadResult.id (Except.ok.inj h)
      refine ⟨uploadedRow event eventId staged newId, (hlast.rows _ rfl).mpr rfl, rfl, rfl, rfl,
        rfl, ?_, ?_⟩
      · exact (hlast.objects _ _ hkey).mpr rfl
      · exact List.mem_append_right _ (List.mem_singleton_self _)

theorem uploadAsset_settles (hclean : Left id none none s)
    (hstaged : s.stagedFile staged.stagingPath = some staged.checksum)
    (hid : ∀ assetId, (⟨.randomUUID, .ok assetId⟩ : UploadEvent) ∈ trace → assetId = id)
    (he : Among (Others id staged.stagingPath) uploadHandler (uploadAsset eventId staged).run
      s trace r s') :
    Settles id eventId staged trace r s' := by
  rcases uploadAsset_begins Others.refl Others.trans (fun h => h) he with
    hearly | ⟨first, event, s₁, rest, rfl, hreads, hreach, hstore⟩
  · obtain ⟨s₁, hreach, hlast⟩ := hearly.reaches
    have hclean' : Left id none none s' := by
      rcases hlast with rfl | ⟨p, rfl⟩
      · exact hreach.alone.left hclean
      · exact (uploadHandler_alone p (by simp [Writes])).left (hreach.alone.left hclean)
    refine .inl ⟨spared_of_not_writes hearly.reads, allOrNothing_of_clean (fun _ _ => hclean') ?_⟩
    rcases hearly.answers with ⟨e, rfl⟩ | ⟨_, existing, _, _, rfl⟩ <;> simp
  · have hsettles : Settles id eventId staged rest r s' :=
      storeUpload_settles (hreach.alone.left hclean)
      (hreach.staged.trans hstaged)
        (fun assetId hmem => hid assetId (List.mem_append_right _ hmem)) hstore
    unfold Settles
    rwa [spared_append hreads]

/-- An upload is all or nothing exactly where none of its steps strands what the
earlier ones wrote. -/
theorem allOrNothing_iff_spared {id eventId : String} {staged : StagedUpload} {s s' : UploadStore}
    {trace : List UploadEvent} {r : Except UploadError UploadResult} (hclean : Left id none none s)
    (hstaged : s.stagedFile staged.stagingPath = some staged.checksum)
    (hid : ∀ assetId, (⟨.randomUUID, .ok assetId⟩ : UploadEvent) ∈ trace → assetId = id)
    (he : Among (Others id staged.stagingPath) uploadHandler (uploadAsset eventId staged).run
      s trace r s') :
    AllOrNothing id eventId staged r s' ↔ Spared trace := by
  rcases uploadAsset_settles hclean hstaged hid he with ⟨hspared, hall⟩ |
    ⟨hstranded, ⟨e, he⟩, hleft⟩
  · exact ⟨fun _ => hspared, fun _ => hall⟩
  · exact ⟨fun hall => absurd (hall.thrown e he) hleft, fun h => absurd h hstranded⟩

end Upload

def photo : StagedUpload :=
  { stagingPath := "upload-1"
    originalFilename := "arch"
    mimeType := "image/jpeg"
    size := 1
    checksum := "sum" }

def lobby : UploadStore :=
  { orgs := [{ id := "o1", plan := .starter }]
    events := [{ id := "e1", orgId := "o1", name := "Gala", slug := "gala" }]
    staged := [("upload-1", "sum")] }

/-- What is answered where nothing fails; only the id is chosen here. -/
def answer : (o : UploadOp) → UploadAnswer o
  | .getById _ => none
  | .findByChecksum _ _ => none
  | .getOrg _ => none
  | .getOrgStorageBytes _ => (0 : ℕ)
  | .countForOrg _ => (0 : ℕ)
  | .randomUUID => "a1"
  | .putFile _ _ _ => ()
  | .createAsset _ => ()
  | .queueAssetProcess _ => ()
  | .deleteKeys _ => ()
  | .unlink _ => ()

def failing (fails : UploadOp → Bool) : Oracle UploadOp UploadRes := fun _ o =>
  if fails o then .error (.other "Error: connect ECONNREFUSED") else .ok (answer o)

/-- The queue is down. -/
def queueDown : Outcome UploadOp UploadRes UploadStore (Except UploadError UploadResult) :=
  run uploadHandler (uploadAsset "e1" photo).run
    (failing (fun o => o = .queueAssetProcess "a1")) lobby

def allUp : Outcome UploadOp UploadRes UploadStore (Except UploadError UploadResult) :=
  run uploadHandler (uploadAsset "e1" photo).run (failing (fun _ => false)) lobby

theorem lobby_clean : Left "a1" none none lobby where
  rows _ _ := ⟨fun h => absurd h List.not_mem_nil, fun h => nomatch h⟩
  objects _ _ _ := ⟨fun h => absurd h List.not_mem_nil, fun h => nomatch h⟩

theorem among_run (p : Attempt UploadResult) (ω : Oracle UploadOp UploadRes) (s : UploadStore) :
    Among (Others "a1" "upload-1") uploadHandler p.run s (run uploadHandler p.run ω s).trace
      (run uploadHandler p.run ω s).value (run uploadHandler p.run ω s).state :=
  among_of_exec Others.refl (exec_run _ _ _ _)

def chosenId : UploadEvent → Option String
  | ⟨.randomUUID, .ok assetId⟩ => some assetId
  | _ => none

theorem id_of_chosen {trace : List UploadEvent} {id : String} (h : trace.filterMap chosenId = [id])
    (assetId : String) (hmem : (⟨.randomUUID, .ok assetId⟩ : UploadEvent) ∈ trace) :
    assetId = id := by
  have hchosen : assetId ∈ trace.filterMap chosenId := List.mem_filterMap.mpr ⟨_, hmem, rfl⟩
  rw [h] at hchosen
  exact List.mem_singleton.mp hchosen

theorem spared_allUp : Spared allUp.trace :=
  ⟨trivial, trivial, trivial, trivial, trivial, trivial, trivial, trivial, trivial, trivial,
    trivial⟩

theorem allOrNothing_allUp : allUp.value = .ok { id := "a1", status := .created } ∧
    AllOrNothing "a1" "e1" photo allUp.value allUp.state := by
  refine ⟨by decide, ?_⟩
  exact (allOrNothing_iff_spared lobby_clean (by decide) (id_of_chosen (by decide))
    (among_run _ _ _)).mpr
    spared_allUp

/-- With the queue down the upload throws, and its row stays. -/
theorem not_allOrNothing : ¬ ∀ (id eventId : String) (staged : StagedUpload) (s s' : UploadStore)
    (trace : List UploadEvent) (r : Except UploadError UploadResult), Left id none none s →
    s.stagedFile staged.stagingPath = some staged.checksum →
    (∀ assetId, (⟨.randomUUID, .ok assetId⟩ : UploadEvent) ∈ trace → assetId = id) →
    Among (Others id staged.stagingPath) uploadHandler (uploadAsset eventId staged).run s
    trace r s' →
    AllOrNothing id eventId staged r s' := by
  intro hall
  have hpromise :=
    hall "a1" "e1" photo lobby queueDown.state queueDown.trace queueDown.value lobby_clean
    (by decide) (id_of_chosen (by decide)) (among_run _ _ _)
  have hvalue : queueDown.value = .error (.other "Error: connect ECONNREFUSED") := by decide
  have hrows : queueDown.state.assets.map AssetRow.id = ["a1"] := by decide
  obtain ⟨row, hrow, hid⟩ := List.mem_map.mp (hrows ▸ List.mem_singleton_self "a1" : "a1" ∈ _)
  exact nomatch ((hpromise.thrown _ hvalue).rows row hid).mp hrow

end EventLens.Uploads
