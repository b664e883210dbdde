import EventLens.UploadService

/-!
What an upload leaves behind, whichever of its statements fail, with other
requests in between that leave alone what carries its id. An upload that throws
leaves nothing, and one that answers `created` leaves the row, the object and the
job, exactly where no insertion and no queueing fails after the object is put and
a removal that fails is followed by a lookup that finds the winner.
-/

namespace EventLens.Uploads

open Programs
open Import (extname originalKey)
open Ingest (AssetRow EventRow StagedUpload UploadResult uploadedRow putObject removeObjects)

/-- A key under which the original of the asset may be stored. -/
def OwnKey (id key : String) : Prop := ∃ orgId eventId ext, key = originalKey orgId eventId id ext

/-- The rows, objects and jobs of the id stay as they are. -/
structure LeavesAlone (id : String) (s s' : UploadStore) : Prop where
  rows : ∀ row : AssetRow, row.id = id → (row ∈ s'.assets ↔ row ∈ s.assets)
  objects : ∀ key content, OwnKey id key → ((key, content) ∈ s'.bucket ↔ (key, content) ∈ s.bucket)
  jobs : id ∈ s.processing → id ∈ s'.processing

/-- Other requests and jobs, which know neither the id nor the staged file. -/
structure Others (id path : String) (s s' : UploadStore) : Prop where
  alone : LeavesAlone id s s'
  staged : s'.stagedFile path = s.stagedFile path

/-- The row and the object that carry the id. -/
structure Left (id : String) (row : Option AssetRow) (object : Option (String × String))
    (s : UploadStore) :
    Prop where
  rows : ∀ a : AssetRow, a.id = id → (a ∈ s.assets ↔ row = some a)
  objects :
    ∀ key content, OwnKey id key → ((key, content) ∈ s.bucket ↔ object = some (key, content))

section Statements

variable {id path key : String} {row : Option AssetRow} {object : Option (String × String)}
  {s s' s'' : UploadStore} {o : UploadOp}

theorem LeavesAlone.of_same (hassets : s'.assets = s.assets) (hbucket : s'.bucket = s.bucket)
    (hjobs : s'.processing = s.processing) : LeavesAlone id s s' where
  rows a _ := by rw [hassets]
  objects k content _ := by rw [hbucket]
  jobs h := by rw [hjobs]; exact h

theorem LeavesAlone.trans (h : LeavesAlone id s s') (h' : LeavesAlone id s' s'') :
    LeavesAlone id s s'' where
  rows a ha := (h'.rows a ha).trans (h.rows a ha)
  objects k content hk := (h'.objects k content hk).trans (h.objects k content hk)
  jobs hid := h'.jobs (h.jobs hid)

theorem Others.refl (s : UploadStore) : Others id path s s := ⟨.of_same rfl rfl rfl, rfl⟩

theorem Others.trans (h : Others id path s s') (h' : Others id path s' s'') :
    Others id path s s'' :=
  ⟨h.alone.trans h'.alone, h'.staged.trans h.staged⟩

theorem LeavesAlone.left (h : LeavesAlone id s s') (hleft : Left id row object s) :
    Left id row object s' where
  rows a ha := (h.rows a ha).trans (hleft.rows a ha)
  objects k content hk := (h.objects k content hk).trans (hleft.objects k content hk)

theorem Left.put {content : String} (h : Left id row none s) :
    Left id row (some (key, content)) { s with bucket := putObject key content s.bucket } where
  rows := h.rows
  objects k c hk := by
    have hnone : (k, c) ∉ s.bucket := fun hmem => nomatch (h.objects k c hk).mp hmem
    simp only [putObject, List.mem_append, List.mem_filter, List.mem_singleton]
    constructor
    · rintro (⟨hmem, _⟩ | heq)
      · exact absurd hmem hnone
      · rw [heq]
    · intro heq
      exact .inr (Option.some.inj heq).symm

theorem Left.insert {a : AssetRow} (h : Left id none object s) :
    Left id (some a) object { s with assets := s.assets ++ [a] } where
  rows b hb := by
    have hnone : b ∉ s.assets := fun hmem => nomatch (h.rows b hb).mp hmem
    simp only [List.mem_append, List.mem_singleton]
    constructor
    · rintro (hmem | heq)
      · exact absurd hmem hnone
      · rw [heq]
    · intro heq
      exact .inr (Option.some.inj heq).symm
  objects := h.objects

theorem Left.remove {content : String} (h : Left id row (some (key, content)) s) :
    Left id row none { s with bucket := removeObjects [key] s.bucket } where
  rows := h.rows
  objects k c hk := by
    simp only [removeObjects, List.mem_filter, h.objects k c hk]
    constructor
    · rintro ⟨heq, hkeep⟩
      obtain ⟨rfl, rfl⟩ := Prod.mk.inj (Option.some.inj heq)
      simp at hkeep
    · intro heq
      cases heq

/-- An object under a key of the id is one that the id has left. -/
theorem Left.not_clean {content : String} (h : Left id row (some (key, content)) s)
    (hkey : OwnKey id key) :
    ¬ Left id none none s := by
  intro hclean
  have hmem : (key, content) ∈ s.bucket := (h.objects key content hkey).mpr rfl
  exact nomatch (hclean.objects key content hkey).mp hmem

/-- The statements that write a row, an object or a job. -/
def Writes : UploadOp → Prop
  | .putFile _ _ _ | .createAsset _ | .queueAssetProcess _ | .deleteKeys _ => True
  | _ => False

/-- The statements that write anything. -/
def Touches (o : UploadOp) : Prop := Writes o ∨ ∃ path, o = .unlink path

theorem insertAsset_cases (a : AssetRow) (s : UploadStore) :
    (∃ e, insertAsset a s = (.error e, s)) ∨
      insertAsset a s = (.ok (), { s with assets := s.assets ++ [a] }) := by
  unfold insertAsset
  split
  · exact .inl ⟨_, rfl⟩
  · split
    · exact .inr rfl
    · exact .inl ⟨_, rfl⟩

/-- A statement that fails changes nothing. -/
theorem uploadHandler_error {p : UploadRes o} {e : UploadError}
    (h : uploadHandler o p s = (.error e, s')) :
    s' = s := by
  cases p with
  | error e' => exact (congrArg Prod.snd h).symm
  | ok a =>
    change statement o a s = _ at h
    cases o with
    | putFile path storageKey mimeType =>
      simp only [statement] at h
      split at h
      · cases h
      · exact (congrArg Prod.snd h).symm
    | createAsset row =>
      change insertAsset row s = _ at h
      rcases insertAsset_cases row s with ⟨_, h'⟩ | h' <;> rw [h'] at h
      · exact (congrArg Prod.snd h).symm
      · cases h
    | _ => cases h

theorem uploadHandler_reads (p : UploadRes o) (ho : ¬ Touches o) : (uploadHandler o p s).2 = s := by
  cases p with
  | error e => rfl
  | ok a =>
    cases o with
    | putFile | createAsset | queueAssetProcess | deleteKeys => exact absurd (.inl trivial) ho
    | unlink path => exact absurd (.inr ⟨path, rfl⟩) ho
    | _ => rfl

theorem uploadHandler_alone (p : UploadRes o) (ho : ¬ Writes o) :
    LeavesAlone id s (uploadHandler o p s).2 := by
  by_cases ht : Touches o
  · rcases ht with hw | ⟨path, rfl⟩
    · exact absurd hw ho
    · cases p <;> exact .of_same rfl rfl rfl
  · rw [uploadHandler_reads p ht]
    exact .of_same rfl rfl rfl

theorem putFile_ok {mimeType : String} {p : UploadRes (.putFile path key mimeType)} {a : Unit}
    (h : uploadHandler (.putFile path key mimeType) p s = (.ok a, s')) :
    ∃ content, s.stagedFile path = some content ∧
      s' = { s with bucket := putObject key content s.bucket } := by
  cases p with
  | error e => cases h
  | ok a' =>
    simp only [uploadHandler, statement] at h
    split at h
    · next content hcontent => exact ⟨content, hcontent, (congrArg Prod.snd h).symm⟩
    · cases h

theorem createAsset_ok {a : AssetRow} {p : UploadRes (.createAsset a)} {u : Unit}
    (h : uploadHandler (.createAsset a) p s = (.ok u, s')) :
    s' = { s with assets := s.assets ++ [a] } := by
  cases p with
  | error e => cases h
  | ok u' =>
    change insertAsset a s = _ at h
    rcases insertAsset_cases a s with ⟨_, h'⟩ | h' <;> rw [h'] at h
    · cases h
    · exact (congrArg Prod.snd h).symm

/-- Only the insertion violates the constraint. -/
theorem queueAssetProcess_error {p : UploadRes (.queueAssetProcess id)} {e : UploadError}
    (h : uploadHandler (.queueAssetProcess id) p s = (.error e, s')) :
    isAssetChecksumConstraint e = false := by
  cases p with
  | error e' =>
    obtain rfl : UploadError.other e'.text = e := by simpa [uploadHandler] using congrArg Prod.fst h
    rfl
  | ok u => cases h

theorem queueAssetProcess_ok {p : UploadRes (.queueAssetProcess id)} {u : Unit}
    (h : uploadHandler (.queueAssetProcess id) p s = (.ok u, s')) :
    s' = { s with processing := s.processing ++ [id] } := by
  cases p with
  | error e => cases h
  | ok u' => exact (congrArg Prod.snd h).symm

theorem deleteKeys_ok {keys : List String} {p : UploadRes (.deleteKeys keys)} {u : Unit}
    (h : uploadHandler (.deleteKeys keys) p s = (.ok u, s')) :
    s' = { s with bucket := removeObjects keys s.bucket } := by
  cases p with
  | error e => cases h
  | ok u' => exact (congrArg Prod.snd h).symm

end Statements

section Calls

variable {others : UploadStore → UploadStore → Prop} {s s' : UploadStore} {o : UploadOp}
  {trace : List UploadEvent} {α : Type}

/-- A statement answers and the handler goes on, or its failure ends it. -/
theorem among_call {f : UploadAnswer o → Attempt α} {value : Except UploadError α}
    (he : Among others uploadHandler (call o >>= f).run s trace value s') :
    ∃ p s₁, others s s₁ ∧
      ((∃ a s₂ rest, uploadHandler o p s₁ = (.ok a, s₂) ∧ trace = ⟨o, .ok a⟩ :: rest ∧
          Among others uploadHandler (f a).run s₂ rest value s') ∨
        ∃ e, uploadHandler o p s₁ = (.error e, s₁) ∧ trace = [⟨o, .error e⟩] ∧ value = .error e ∧
          s' = s₁) := by
  have hcall : (call o >>= f).run = (.perform o .done : UploadProg (UploadRes o)) >>= fun r =>
      ExceptT.bindCont f r := rfl
  rw [hcall, Prog.perform_bind] at he
  obtain ⟨p, s₁, rest, before, htrace, hrest⟩ := among_perform.mp he
  refine ⟨p, s₁, before, ?_⟩
  rw [Prog.done_bind] at hrest
  rcases hanswer : uploadHandler o p s₁ with ⟨e | a, s₂⟩
  · obtain rfl := uploadHandler_error hanswer
    rw [hanswer] at hrest htrace
    obtain ⟨rfl, rfl, rfl⟩ := among_done.mp hrest
    exact .inr ⟨e, rfl, htrace, rfl, rfl⟩
  · rw [hanswer] at hrest htrace
    exact .inl ⟨a, s₂, rest, rfl, htrace, hrest⟩

/-- A part whose failure is ignored. -/
theorem among_ignoring {q : Attempt Unit} {f : Unit → Attempt α} {value : Except UploadError α}
    (he : Among others uploadHandler (ignoring q >>= f).run s trace value s') :
    ∃ first r state rest, trace = first ++ rest ∧ Among others uploadHandler q.run s first r state ∧
      Among others uploadHandler (f ()).run state rest value s' := by
  obtain ⟨first, _, state, rest, htrace, hcaught, hrest⟩ := among_lift.mp he
  obtain ⟨first', r, state', _, rfl, hq, hdone⟩ := among_bind.mp hcaught
  obtain ⟨rfl, _, rfl⟩ := among_done.mp hdone
  rw [List.append_nil] at htrace
  exact ⟨first', r, state, rest, htrace, hq, hrest⟩

/-- A single statement. -/
theorem among_single {r : UploadRes o} (he : Among others uploadHandler (call o).run s trace r s') :
    ∃ p s₁, others s s₁ ∧ uploadHandler o p s₁ = (r, s') ∧ trace = [⟨o, r⟩] := by
  obtain ⟨p, s₁, rest, before, htrace, hdone⟩ := among_perform.mp he
  obtain ⟨rfl, rfl, rfl⟩ := among_done.mp hdone
  exact ⟨p, s₁, before, rfl, htrace⟩

end Calls

end EventLens.Uploads
