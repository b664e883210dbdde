import EventLens.ImportOverlap

/-!
What kind of asset an imported file becomes. The listing lets a file in by the
mime type the provider reports and keeps only its id and name; the worker gives
the asset a type and a mime type by the extension of that name. The two agree
just for names whose extension the worker's table lists with the kind reported.
-/

namespace EventLens.Import

open Programs Contract

def AssetType.mimePrefix : AssetType → String
  | .image => "image/"
  | .video => "video/"

/-- The mime type is one of the kind. -/
def reportedAs (kind : AssetType) (mimeType : String) : Bool :=
  kind.mimePrefix.toList.isPrefixOf mimeType.toList

/-- Whichever kind the provider reports the file as, the asset is of that kind. -/
def TypeAgrees (file : RemoteFile) (asset : NewAsset) : Prop :=
  ∀ kind, reportedAs kind file.mimeType = true → asset.type = kind ∧
    reportedAs kind asset.mimeType = true

/-- The table lists the name's extension with a mime type of the kind. -/
def ListedAs (kind : AssetType) (name : String) : Prop :=
  ∃ entry ∈ mimeTypes, entry.1 = toLowerCase (extname name) ∧ reportedAs kind entry.2 = true

section Guess

variable {kind : AssetType} {name : String}

theorem reported_once {kind' : AssetType} {mimeType : String} (h : reportedAs kind mimeType = true)
    (h' : reportedAs kind' mimeType = true) : kind = kind' := by
  have hfirst : ∀ kind, reportedAs kind mimeType = true →
      mimeType.toList.head? = kind.mimePrefix.toList.head? := by
    intro kind h
    obtain ⟨rest, hrest⟩ := List.isPrefixOf_iff_prefix.mp h
    rw [← hrest]
    cases kind <;> rfl
  have hsame := (hfirst kind h).symm.trans (hfirst kind' h')
  cases kind <;> cases kind' <;> first | rfl | exact absurd hsame (by decide)

/-- The guess is of a kind just when the extension is listed with it. -/
theorem guessMime_reported : reportedAs kind (guessMime name) = true ↔ ListedAs kind name := by
  have hkeys : ∀ entry ∈ mimeTypes, mimeTypes.lookup entry.1 = some entry.2 := by decide
  constructor
  · intro h
    cases hlookup : mimeTypes.lookup (toLowerCase (extname name)) with
    | none =>
      rw [guessMime, hlookup] at h
      cases kind <;> exact absurd h (by decide)
    | some mimeType =>
      rw [guessMime, hlookup] at h
      obtain ⟨before, after, hentries, -⟩ := List.lookup_eq_some_iff.mp hlookup
      refine ⟨(toLowerCase (extname name), mimeType), ?_, rfl, h⟩
      rw [hentries]
      simp
  · rintro ⟨entry, hentry, hext, h⟩
    rw [guessMime, ← hext, hkeys entry hentry]
    exact h

/-- The type and mime type of an asset agree with the kind reported just when
the name's extension is listed with that kind. -/
theorem typeAgrees_iff {file : RemoteFile} {job : ImportJob} {item : ImportItem}
    {assetId checksum : String}
    {size : ℕ} (hname : item.remoteName = file.name) :
    TypeAgrees file (assetOf job item assetId checksum size) ↔
      ∀ kind, reportedAs kind file.mimeType = true → ListedAs kind file.name := by
  refine forall_congr' fun kind => forall_congr' fun _ => ?_
  rw [← guessMime_reported, ← hname]
  simp only [assetOf]
  generalize guessMime item.remoteName = mimeType
  refine and_iff_right_of_imp fun h => ?_
  change (if reportedAs .video mimeType = true then AssetType.video else .image) = kind
  split
  next hvideo => exact reported_once hvideo h
  next hvideo =>
    cases kind with
    | image => rfl
    | video => exact absurd h hvideo

end Guess

/-! Where the names of the items come from. -/

/-- The files an event lists. -/
def filesIn : ImportEvent → List RemoteFile
  | ⟨.listFilesPage _ _ _, .ok page⟩ => page.files
  | _ => []

/-- The folders of the provider hold these files only. -/
def ProvidedBy (files : RemoteFile → Prop) (e : ImportEvent) : Prop :=
    ∀ file ∈ filesIn e, files file

instance (files : RemoteFile → Prop) [DecidablePred files] (e : ImportEvent) :
    Decidable (ProvidedBy files e) :=
  inferInstanceAs (Decidable (∀ file ∈ filesIn e, files file))

/-- One of the provider's files that the listing lets in. -/
def LetIn (files : RemoteFile → Prop) (file : RemoteFile) : Prop :=
  files file ∧ importable file.mimeType = true

/-- The item stands for a file that the listing let in. -/
def Sourced (files : RemoteFile → Prop) (item : ImportItem) : Prop :=
  ∃ file, LetIn files file ∧ file.id = item.remoteId ∧ file.name = item.remoteName

/-- The item a worker has read, and the rows a listing knows. -/
structure TypeNote where
  item : Option ImportItem := none
  known : List ImportItem := []

def TypeNote.note (g : TypeNote) : ImportEvent → TypeNote
  | ⟨.getItem _, r⟩ => { g with item := r }
  | ⟨.getExistingByRemoteIds _ _ _, r⟩ => { g with known := r }
  | _ => g

def TypeNote.Permits (files : RemoteFile → Prop) (g : TypeNote) : ImportOp → Prop
  | .insertItems rows => ∀ n ∈ rows,
      ∃ file, LetIn files file ∧ file.id = n.remoteId ∧ file.name = n.remoteName
  | .repointItem k _ dto => ∀ file, dto.file = some file → LetIn files file ∧
      ∃ row ∈ g.known, row.id = k ∧ row.remoteId = file.id
  | .createAsset asset => ∃ item job assetId checksum size, g.item = some item ∧
      asset = assetOf job item assetId checksum size
  | _ => True

def typing (files : RemoteFile → Prop) : Contract ImportOp ImportRes TypeNote where
  note := TypeNote.note
  expects _ := ProvidedBy files
  permits := TypeNote.Permits files

/-- Operations without a duty and without a note. -/
def ImportOp.Plain : ImportOp → Prop
  | .insertItems _ | .repointItem _ _ _ | .createAsset _ | .getItem _ |
    .getExistingByRemoteIds _ _ _ => False
  | _ => True

section Plain

variable {α : Type} {files : RemoteFile → Prop} {g : TypeNote}

theorem plain_step {o : ImportOp} {next : ImportRes o → ImportProg α} {Q : α → TypeNote → Prop}
    (ho : o.Plain)
    (h : ∀ r, ProvidedBy files ⟨o, r⟩ → (typing files).Follows (next r) Q g) :
    (typing files).Follows (.perform o next) Q g := by
  refine ⟨?_, fun r hr => ?_⟩
  · cases o <;> trivial
  · have hnote : TypeNote.note g ⟨o, r⟩ = g := by
      cases o <;> first | rfl | exact ho.elim
    change (typing files).Follows (next r) Q (TypeNote.note g ⟨o, r⟩)
    rw [hnote]
    exact h r hr

theorem plain_follows {p : ImportProg α} (h : p.Avoids (fun o => ¬ o.Plain)) :
    (typing files).Follows p (fun _ g' => g' = g) g := by
  induction p with
  | done value => rfl
  | perform o next ih => exact plain_step (not_not.mp h.1) fun r _ => ih r (h.2 r)

theorem finishItem_plain (j : JobId) (counter : Counter) :
    (finishItem j counter).Avoids (fun o => ¬ o.Plain) := by
  refine ⟨not_not.mpr trivial, fun _ => ⟨not_not.mpr trivial, fun n => ?_⟩⟩
  cases n with
  | succ n => trivial
  | zero =>
    refine ⟨not_not.mpr trivial, fun r => ?_⟩
    cases r with
    | none => trivial
    | some job =>
      change (if job.status = .importing then _ else _ : ImportProg Unit).Avoids _
      split
      · exact ⟨not_not.mpr trivial, fun _ => trivial⟩
      · trivial

theorem linkExisting_plain (x : ItemId) (job : ImportJob) (assetId : Option String) :
    (linkExisting x job assetId).run.Avoids (fun o => ¬ o.Plain) :=
  Prog.avoids_lift ⟨not_not.mpr trivial, fun _ => trivial⟩ fun _ =>
    Prog.avoids_lift (finishItem_plain job.id .skippedFiles) fun _ => trivial

theorem recoverFile_plain (x : ItemId) (job : ImportJob) (outcome : Except ImportError Verdict) :
    (recoverFile x job outcome).Avoids (fun o => ¬ o.Plain) := by
  have hfailed : ∀ e : ImportError, (do
      markItem x { status := .failed, error := some (some e.text) }
      finishItem job.id .failedFiles
      pure .success : ImportProg Verdict).Avoids (fun o => ¬ o.Plain) := fun _ =>
    Prog.avoids_bind ⟨not_not.mpr trivial, fun _ => trivial⟩ fun _ =>
      Prog.avoids_bind (finishItem_plain job.id .failedFiles) fun _ => trivial
  cases outcome with
  | ok verdict => trivial
  | error e =>
    cases e with
    | rateLimit ms => exact ⟨not_not.mpr trivial, fun _ => ⟨not_not.mpr trivial, fun _ => trivial⟩⟩
    | other text => exact hfailed (.other text)
    | assetChecksumConstraint text => exact hfailed (.assetChecksumConstraint text)

end Plain

section Worker

variable {files : RemoteFile → Prop} {g : TypeNote} {x : ItemId} {job : ImportJob}
  {item : ImportItem}

/-- The worker may store the asset of the item it has read. -/
theorem storeFile_typing (hitem : g.item = some item) (checksum : String) (size : ℕ) :
    (typing files).Follows (storeFile x job item checksum size).run (fun _ g' => g' = g) g := by
  refine plain_step trivial fun assetId _ => plain_step trivial fun stored _ => ?_
  cases stored with
  | error e => rfl
  | ok _ =>
    refine ⟨⟨item, job, assetId, checksum, size, hitem, rfl⟩, fun created _ => ?_⟩
    cases created with
    | ok _ =>
      refine plain_step trivial fun queued _ => ?_
      cases queued with
      | error e => rfl
      | ok _ =>
        refine plain_follows ?_
        exact Prog.avoids_lift ⟨not_not.mpr trivial, fun _ => trivial⟩ fun _ =>
          Prog.avoids_lift (finishItem_plain job.id .doneFiles) fun _ => trivial
    | error e =>
      cases e with
      | rateLimit ms => rfl
      | other text => rfl
      | assetChecksumConstraint text =>
        refine plain_step trivial fun _ _ => plain_step trivial fun winner _ => ?_
        cases winner with
        | error e => rfl
        | ok winner => exact plain_follows (linkExisting_plain x job winner)

theorem importFile_typing (hitem : g.item = some item) :
    (typing files).Follows (importFile x job item).run (fun _ g' => g' = g) g := by
  refine plain_step trivial fun _ _ => plain_step trivial fun account _ => ?_
  cases account with
  | error e => rfl
  | ok account =>
  refine plain_step trivial fun accessToken _ => ?_
  cases accessToken with
  | error e => rfl
  | ok accessToken =>
  refine plain_step trivial fun made _ => ?_
  cases made with
  | error e => rfl
  | ok _ =>
  refine plain_step trivial fun downloaded _ => ?_
  cases downloaded with
  | error e => rfl
  | ok _ =>
  refine plain_step trivial fun checksum _ => ?_
  cases checksum with
  | error e => rfl
  | ok checksum =>
  refine plain_step trivial fun size _ => ?_
  cases size with
  | error e => rfl
  | ok size =>
  refine plain_step trivial fun existing _ => ?_
  cases existing with
  | error e => rfl
  | ok existing =>
  cases existing with
  | some assetId => exact plain_follows (linkExisting_plain x job (some assetId))
  | none => exact storeFile_typing hitem checksum size

theorem handleImportFile_typing (x : ItemId) :
    (typing files).Follows (handleImportFile x) (fun _ _ => True) g := by
  refine ⟨trivial, fun r _ => ?_⟩
  cases r with
  | none => trivial
  | some item =>
    change (typing files).Follows (if item.status ≠ .pending then _ else _) _
      { g with item := some item }
    split
    · trivial
    · refine plain_step trivial fun r _ => ?_
      cases r with
      | none => trivial
      | some job =>
        change (typing files).Follows (if job.status = .cancelled then _ else _) _ _
        split
        · trivial
        · refine follows_seq _ (importFile_typing rfl) fun outcome g' hg' => ?_
          refine follows_mono _ (fun _ _ _ => trivial) _ _ (plain_follows ?_)
          exact Prog.avoids_bind (recoverFile_plain x job outcome) fun _ =>
            ⟨not_not.mpr trivial, fun _ => trivial⟩

end Worker

section Listing

variable {files : RemoteFile → Prop} {g : TypeNote} {job : ImportJob} {page : List RemoteFile}
  {toInsert : List NewItem}

/-- The new rows stand for files that were let in. -/
def RowsSourced (files : RemoteFile → Prop) (rows : List NewItem) : Prop :=
  ∀ n ∈ rows, ∃ file, LetIn files file ∧ file.id = n.remoteId ∧ file.name = n.remoteName

theorem RowsSourced.snoc (h : RowsSourced files toInsert) {file : RemoteFile}
    (hfile : LetIn files file) :
    RowsSourced files (toInsert ++ [newItem job file]) := by
  intro n hn
  rcases List.mem_append.mp hn with hn | hn
  · exact h n hn
  · cases List.mem_singleton.mp hn
    exact ⟨file, hfile, rfl, rfl⟩

theorem classify_typing (skipped : ℕ) (hpage : ∀ file ∈ page, LetIn files file)
    (hrows : RowsSourced files toInsert) :
    (typing files).Follows (classify job g.known page toInsert skipped)
      (fun out _ => RowsSourced files out.1) g := by
  induction page generalizing toInsert skipped with
  | nil => exact hrows
  | cons file page ih =>
    have hfile := hpage file List.mem_cons_self
    have hrest : ∀ file ∈ page, LetIn files file :=
      fun f hf => hpage f (List.mem_cons_of_mem file hf)
    cases hknown : byRemoteId g.known file.id with
    | none =>
      rw [classify, hknown]
      exact ih skipped hrest (hrows.snoc hfile)
    | some known =>
      have hrow : known ∈ g.known := List.mem_reverse.mp (List.mem_of_find?_eq_some hknown)
      have hid : known.remoteId = file.id := by simpa using List.find?_some hknown
      rw [classify, hknown]
      change (typing files).Follows (if unchanged known file then _ else _) _ _
      split
      · exact ⟨by simp [typing, TypeNote.Permits], fun _ _ => ih (skipped + 1) hrest hrows⟩
      · refine ⟨?_, fun _ _ => ih skipped hrest hrows⟩
        rintro f hf
        cases hf
        exact ⟨hfile, known, hrow, rfl, hid⟩

theorem insertItems_typing (h : RowsSourced files toInsert) :
    (typing files).Follows (insertItems toInsert).run (fun _ _ => True) g := by
  unfold insertItems
  split
  · trivial
  · exact ⟨h, fun r _ => trivial⟩

theorem upsertListingPage_typing (hpage : ∀ file ∈ page, LetIn files file) :
    (typing files).Follows (upsertListingPage job page).run (fun _ _ => True) g := by
  unfold upsertListingPage
  split
  · trivial
  · refine ⟨trivial, fun existing _ => ?_⟩
    refine (follows_lift _ _ _ _ _).mpr (follows_mono _ ?_ _ _
      (classify_typing (g := { g with known := existing }) 0 hpage (fun n hn => by cases hn)))
    rintro ⟨rows, skipped⟩ g' hrows
    refine (follows_attempt _ _ _ _ _).mpr (follows_mono _ ?_ _ _ (insertItems_typing hrows))
    rintro r g'' -
    cases r <;> trivial

theorem mediaOf_letIn {p : RemoteListingPage} (h : ∀ file ∈ p.files, files file) :
    ∀ file ∈ mediaOf p, LetIn files file := by
  intro file hfile
  obtain ⟨hmem, himportable⟩ := List.mem_filter.mp hfile
  exact ⟨h file hmem, himportable⟩

theorem listPages_typing (fuel : ℕ) (queue : List String) (folderId : String)
    (token : Option String)
    (listed skipped : ℕ) :
    (typing files).Follows (listPages job fuel queue folderId token listed skipped).run
      (fun _ _ => True) g := by
  induction fuel generalizing queue folderId token listed skipped g with
  | zero => trivial
  | succ fuel ih =>
    refine plain_step trivial fun account _ => ?_
    cases account with
    | error e => trivial
    | ok account =>
    refine plain_step trivial fun accessToken _ => ?_
    cases accessToken with
    | error e => trivial
    | ok accessToken =>
    refine plain_step trivial fun answer hanswer => ?_
    cases answer with
    | error e => trivial
    | ok p =>
    refine (follows_attempt _ _ _ _ _).mpr (follows_mono _ ?_ _ _
      (upsertListingPage_typing (mediaOf_letIn hanswer)))
    rintro r g' -
    cases r with
    | error e => trivial
    | ok outcome =>
      dsimp only
      split
      · exact ih _ _ _ _ _
      · exact ih _ _ _ _ _
      · trivial

theorem fanOut_plain (j : JobId) (listed skipped : ℕ) :
    (fanOut j listed skipped).run.Avoids (fun o => ¬ o.Plain) := by
  refine ⟨not_not.mpr trivial, fun pending => ?_⟩
  change (ExceptT.run (if pending = [] then _ else _) : ImportProg
    (Except ImportError Verdict)).Avoids _
  split
  · exact ⟨not_not.mpr trivial, fun _ => trivial⟩
  · refine ⟨not_not.mpr trivial, fun _ => ⟨not_not.mpr trivial, fun queued => ?_⟩⟩
    cases queued <;> trivial

theorem listFolder_typing (j : JobId) (fuel : ℕ) :
    (typing files).Follows (listFolder j job fuel).run (fun _ _ => True) g := by
  refine (follows_attempt _ _ _ _ _).mpr (follows_mono _ ?_ _ _ (listPages_typing fuel _ _ _ _ _))
  rintro r g' -
  cases r with
  | error e => trivial
  | ok outcome =>
    cases outcome with
    | none => trivial
    | some counts =>
      exact follows_mono _ (fun _ _ _ => trivial) _ _ (plain_follows (fanOut_plain j _ _))

theorem handleImportFolder_typing (fuel : ℕ) (j : JobId) :
    (typing files).Follows (handleImportFolder fuel j) (fun _ _ => True) g := by
  refine plain_step trivial fun r _ => ?_
  cases r with
  | none => trivial
  | some job =>
    change (typing files).Follows (if job.status = .cancelled then _ else _) _ _
    split
    · trivial
    · refine follows_seq _ (listFolder_typing j fuel) fun r g' _ => ?_
      cases r with
      | ok verdict => trivial
      | error e => cases e <;> exact plain_step trivial fun _ _ => trivial

theorem createImport_plain (job : NewJob) : (createImport job).Avoids (fun o => ¬ o.Plain) := by
  refine ⟨not_not.mpr trivial, fun r => ?_⟩
  cases r with
  | error e => trivial
  | ok orgId =>
    refine ⟨not_not.mpr trivial, fun account => ?_⟩
    cases account with
    | error e => trivial
    | ok account => exact ⟨not_not.mpr trivial, fun _ => ⟨not_not.mpr trivial, fun _ => trivial⟩⟩

theorem cancel_plain (eventId : String) (j : JobId) :
    (cancel eventId j).Avoids (fun o => ¬ o.Plain) := by
  refine ⟨not_not.mpr trivial, fun r => ?_⟩
  cases r with
  | none => trivial
  | some job =>
    simp only [Prog.bind_done]
    cases (some job).filter (fun job => job.eventId = eventId) with
    | none => trivial
    | some job =>
      change (if _ then _ else _ : ImportProg Verdict).Avoids _
      split
      · trivial
      · exact ⟨not_not.mpr trivial, fun _ => trivial⟩

theorem prog_typing (fuel : ℕ) (c : ImportCall) :
    (typing files).Follows (c.prog fuel) (fun _ _ => True) {} := by
  cases c with
  | importFolder j => exact handleImportFolder_typing fuel j
  | importFile x => exact handleImportFile_typing x
  | createImport job =>
    exact follows_mono _ (fun _ _ _ => trivial) _ _ (plain_follows (createImport_plain job))
  | cancel eventId j =>
    exact follows_mono _ (fun _ _ _ => trivial) _ _ (plain_follows (cancel_plain eventId j))

end Listing

/-! Whole runs. -/

/-- Every item, in the table or in a worker's hands, stands for a file that was
let in, and what a listing knows of a row's remote id is so. -/
structure Typed (files : RemoteFile → Prop) (N : Multiset TypeNote) (w : ImportWorld) : Prop where
  ids : (w.items.map ImportItem.id).Nodup
  below : ∀ i ∈ w.items, i.id < w.nextItemId
  sourced : ∀ i ∈ w.items, Sourced files i
  read : ∀ g ∈ N, ∀ i, g.item = some i → Sourced files i
  known : ∀ g ∈ N, ∀ row ∈ g.known, row.id < w.nextItemId ∧
    ∀ i ∈ w.items, i.id = row.id → i.remoteId = row.remoteId

section Runs

variable {files : RemoteFile → Prop} {N : Multiset TypeNote} {w w' : ImportWorld} {g g' : TypeNote}
  {o : ImportOp} {r : ImportRes o}

theorem typed_start : Typed files 0 {} where
  ids := List.nodup_nil
  below := by simp
  sourced := by simp
  read := by simp
  known := by simp

theorem Typed.same (h : Typed files N w) (hitems : w'.items = w.items)
    (hnext : w'.nextItemId = w.nextItemId) :
    Typed files N w' where
  ids := hitems ▸ h.ids
  below := by
    rw [hitems, hnext]
    exact h.below
  sourced := hitems ▸ h.sourced
  read := h.read
  known := by
    rw [hitems, hnext]
    exact h.known

theorem Typed.noted (h : Typed files (g ::ₘ N) w) (hread : ∀ i, g'.item = some i → Sourced files i)
    (hknown : ∀ row ∈ g'.known, row.id < w.nextItemId ∧
      ∀ i ∈ w.items, i.id = row.id → i.remoteId = row.remoteId) : Typed files (g' ::ₘ N) w where
  ids := h.ids
  below := h.below
  sourced := h.sourced
  read := by
    intro g hg
    rcases Multiset.mem_cons.mp hg with rfl | hg
    · exact hread
    · exact h.read g (Multiset.mem_cons_of_mem hg)
  known := by
    intro g hg
    rcases Multiset.mem_cons.mp hg with rfl | hg
    · exact hknown
    · exact h.known g (Multiset.mem_cons_of_mem hg)

theorem Typed.updateItems (h : Typed files N w) {k : ItemId} {f : ImportItem → ImportItem}
    (hid : ∀ i, (f i).id = i.id) (hremote : ∀ i, (f i).remoteId = i.remoteId)
    (hsourced : ∀ i ∈ w.items, i.id = k → Sourced files (f i)) :
    Typed files N { w with toTables := w.updateItems k f } where
  ids := by
    rw [show (w.updateItems k f).items.map ImportItem.id =
      w.items.map ImportItem.id from map_updateRow hid]
    exact h.ids
  below := by
    intro i hi
    rcases mem_updateRow.mp hi with ⟨i', hi', -, rfl⟩ | ⟨hi, -⟩
    · exact (hid i').symm ▸ h.below i' hi'
    · exact h.below i hi
  sourced := by
    intro i hi
    rcases mem_updateRow.mp hi with ⟨i', hi', hk, rfl⟩ | ⟨hi, -⟩
    · exact hsourced i' hi' hk
    · exact h.sourced i hi
  read := h.read
  known := by
    intro g hg row hrow
    obtain ⟨hlt, hsame⟩ := h.known g hg row hrow
    refine ⟨hlt, fun i hi hrowId => ?_⟩
    rcases mem_updateRow.mp hi with ⟨i', hi', -, rfl⟩ | ⟨hi, -⟩
    · rw [hremote]
      exact hsame i' hi' ((hid i').symm.trans hrowId)
    · exact hsame i hi hrowId

theorem Typed.addItems (h : Typed files N w) {rows : List NewItem}
    (hrows : RowsSourced files rows) :
    Typed files N { w with toTables := w.addItems rows } where
  ids := by
    rw [show (w.addItems rows).items.map ImportItem.id = w.items.map ImportItem.id ++
      (freshRows w.nextItemId rows).map ImportItem.id from List.map_append]
    refine List.nodup_append.mpr ⟨h.ids, freshRows_nodup rows _, ?_⟩
    intro x hx y hy hxy
    obtain ⟨i, hi, rfl⟩ := List.mem_map.mp hx
    obtain ⟨i', hi', rfl⟩ := List.mem_map.mp hy
    obtain ⟨-, -, hle, -⟩ := mem_freshRows hi'
    exact Nat.not_lt_of_le hle (hxy ▸ h.below i hi)
  below := by
    intro i hi
    rcases List.mem_append.mp hi with hi | hi
    · exact Nat.lt_add_right rows.length (h.below i hi)
    · exact freshRows_below hi
  sourced := by
    intro i hi
    rcases List.mem_append.mp hi with hi | hi
    · exact h.sourced i hi
    · obtain ⟨n, hn, -, hrow⟩ := mem_freshRows hi
      rw [hrow]
      exact hrows n hn
  read := h.read
  known := by
    intro g hg row hrow
    obtain ⟨hlt, hsame⟩ := h.known g hg row hrow
    refine ⟨Nat.lt_add_right rows.length hlt, fun i hi hid => ?_⟩
    rcases List.mem_append.mp hi with hi | hi
    · exact hsame i hi hid
    · obtain ⟨-, -, hle, -⟩ := mem_freshRows hi
      exact absurd hlt (Nat.not_lt_of_le (hid ▸ hle))

theorem repoint_id (dto : Repoint) (j : JobId) (i : ImportItem) : (dto.apply j i).id = i.id := by
  unfold Repoint.apply
  split <;> rfl

theorem repoint_remoteId (dto : Repoint) (j : JobId) (i : ImportItem) :
    (dto.apply j i).remoteId = i.remoteId := by
  unfold Repoint.apply
  split <;> rfl

/-- What an operation does to the tables keeps every item sourced. -/
theorem Typed.write (h : Typed files (g ::ₘ N) w) (hpermit : g.Permits files o) :
    Typed files (g ::ₘ N) (importHandler o r w).2 := by
  cases o with
  | insertItems rows =>
    simp only [importHandler]
    split
    · exact h.addItems hpermit
    · exact h
  | repointItem k j dto =>
    refine h.updateItems (f := dto.apply j) (repoint_id dto j) (repoint_remoteId dto j) ?_
    intro i hi hk
    cases hfile : dto.file with
    | none =>
      simp only [Repoint.apply, hfile]
      exact h.sourced i hi
    | some file =>
      obtain ⟨hin, row, hrow, hrowId, hremote⟩ := hpermit file hfile
      have hsame := (h.known g (Multiset.mem_cons_self g N) row hrow).2 i hi (hk.trans hrowId.symm)
      simp only [Repoint.apply, hfile]
      exact ⟨file, hin, hremote.symm.trans hsame.symm, rfl⟩
  | markItem k dto =>
    refine h.updateItems (f := dto.apply) (fun _ => rfl) (fun _ => rfl) ?_
    intro i hi _
    exact h.sourced i hi
  | queueImportFiles ks =>
    simp only [importHandler]
    split <;> exact h.same rfl rfl
  | _ => exact h.same rfl rfl

/-- What the caller notes about an operation is so. -/
theorem Typed.perform (h : Typed files (g ::ₘ N) w) (hpermit : g.Permits files o) :
    Typed files (g.note ⟨o, (importHandler o r w).1⟩ ::ₘ N) (importHandler o r w).2 := by
  have hwrite := h.write (r := r) hpermit
  have hself := Multiset.mem_cons_self g N
  cases o with
  | getItem k =>
    refine h.noted ?_ (h.known g hself)
    intro i hi
    exact h.sourced i (mem_of_findRow hi).1
  | getExistingByRemoteIds eventId provider remoteIds =>
    refine h.noted (h.read g hself) ?_
    intro row hrow
    have hmem : row ∈ w.items := List.mem_of_mem_filter hrow
    exact ⟨h.below row hmem, fun i hi hid => congrArg _ (row_unique h.ids hi hmem hid)⟩
  | _ => exact hwrite

theorem Typed.add (h : Typed files N w) : Typed files ({} ::ₘ N) w where
  ids := h.ids
  below := h.below
  sourced := h.sourced
  read := by
    intro g hg
    rcases Multiset.mem_cons.mp hg with rfl | hg
    · simp
    · exact h.read g hg
  known := by
    intro g hg
    rcases Multiset.mem_cons.mp hg with rfl | hg
    · simp
    · exact h.known g hg

theorem Typed.drop (h : Typed files (g ::ₘ N) w) : Typed files N w where
  ids := h.ids
  below := h.below
  sourced := h.sourced
  read := fun g hg => h.read g (Multiset.mem_cons_of_mem hg)
  known := fun g hg => h.known g (Multiset.mem_cons_of_mem hg)

theorem accept_items {fuel : ℕ} {c : ImportCall} (h : (importServer fuel).accept c w = some w') :
    w'.items = w.items ∧ w'.nextItemId = w.nextItemId := by
  have hqueued :
    (if c ∈ w.queue then some { w with queue := w.queue.erase c } else none) = some w' →
      w'.items = w.items ∧ w'.nextItemId = w.nextItemId := by
    intro h
    split at h
    · cases h
      exact ⟨rfl, rfl⟩
    · cases h
  cases c with
  | importFolder j => exact hqueued h
  | importFile x => exact hqueued h
  | createImport job =>
    cases h
    exact ⟨rfl, rfl⟩
  | cancel eventId j =>
    cases h
    exact ⟨rfl, rfl⟩

theorem release_items {fuel : ℕ} {c : ImportCall} {verdict : Verdict} {again : Bool}
    (h : (importServer fuel).release c verdict again w = some w') :
    w'.items = w.items ∧ w'.nextItemId = w.nextItemId := by
  cases verdict with
  | unended => cases h
  | failed =>
    cases again <;>
    · cases h
      exact ⟨rfl, rfl⟩
  | _ =>
    cases h
    exact ⟨rfl, rfl⟩

theorem typed_preserves (fuel : ℕ) :
    Preserves (importServer fuel) (fun _ _ e => ProvidedBy files e) (typing files) (fun _ => {})
      (fun _ _ _ => True) (Typed files) where
  accept := by
    intro c N w w' h hw
    obtain ⟨hitems, hnext⟩ := accept_items hw
    exact (h.same hitems hnext).add
  perform := by
    intro p t N o r hnotes h hpermit hprovided
    exact ⟨hprovided, h.perform hpermit⟩
  release := by
    intro c verdict g again N w w' h _ hw
    obtain ⟨hitems, hnext⟩ := release_items hw
    exact (h.drop).same hitems hnext

theorem note_item {e : ImportEvent} {i : ImportItem} (h : (g.note e).item = some i) :
    g.item = some i ∨ ∃ x, e = ⟨.getItem x, some i⟩ := by
  obtain ⟨o, r⟩ := e
  cases o with
  | getItem x =>
    cases (h : r = some i)
    exact .inr ⟨x, rfl⟩
  | _ => exact .inl h

/-- The item a call holds is one it has read. -/
theorem read_of_notes {t : ImportThread} {i : ImportItem}
    (h : (t.notes (typing files) (fun _ => {})).item = some i) :
    ∃ x, (⟨.getItem x, some i⟩ : ImportEvent) ∈ t.past := by
  have hfold :
    ∀ (past : List ImportEvent) (g : TypeNote), (past.foldl TypeNote.note g).item = some i →
      g.item = some i ∨ ∃ x, (⟨.getItem x, some i⟩ : ImportEvent) ∈ past := by
    intro past
    induction past with
    | nil => exact fun g hg => .inl hg
    | cons e past ih =>
      intro g hg
      rcases ih _ hg with hg | ⟨x, hx⟩
      · rcases note_item hg with hg | ⟨x, rfl⟩
        · exact .inl hg
        · exact .inr ⟨x, List.mem_cons_self⟩
      · exact .inr ⟨x, List.mem_cons_of_mem e hx⟩
  rcases hfold t.past {} h with hnone | hread
  · cases hnone
  · exact hread

/-- Every asset that is created comes from a file that the listing let in, by
the item its worker has read. -/
theorem created_from {fuel : ℕ} {p : ImportPool} {m : ImportMove} {t : ImportThread}
    {asset : NewAsset}
    {r : Except ImportError Unit}
    (h : (importServer fuel).Reaches (fun _ _ e => ProvidedBy files e) importStart p)
    (hevent : (importServer fuel).event m p = some (t, ⟨.createAsset asset, r⟩)) :
    ∃ file item x job assetId checksum size, LetIn files file ∧
      (⟨.getItem x, some item⟩ : ImportEvent) ∈ t.past ∧ file.id = item.remoteId ∧
      file.name = item.remoteName ∧ asset = assetOf job item assetId checksum size := by
  obtain ⟨N, -, -, htyped, ⟨item, job, assetId, checksum, size, hitem, hasset⟩, -⟩ :=
    h.event (prog_typing fuel) (typed_preserves fuel) rfl typed_start hevent
  obtain ⟨x, hread⟩ := read_of_notes hitem
  obtain ⟨file, hin, hid, hname⟩ := htyped.read _ (Multiset.mem_cons_self _ N) item hitem
  exact ⟨file, item, x, job, assetId, checksum, size, hin, hread, hid, hname, hasset⟩

end Runs

/-- The asset agrees with the kind the provider reported just when the table
lists the name's extension with it; and in every run each asset created is that
of a file the listing let in. -/
theorem imported_type_agrees_iff (files : RemoteFile → Prop) (fuel : ℕ) :
    (∀ (file : RemoteFile) (job : ImportJob) (item : ImportItem) (assetId checksum : String)
    (size : ℕ),
      item.remoteName = file.name →
      (TypeAgrees file (assetOf job item assetId checksum size) ↔
        ∀ kind, reportedAs kind file.mimeType = true → ListedAs kind file.name)) ∧
    ∀ (p : ImportPool) (m : ImportMove) (t : ImportThread) (asset : NewAsset)
    (r : Except ImportError Unit),
      (importServer fuel).Reaches (fun _ _ e => ProvidedBy files e) importStart p →
      (importServer fuel).event m p = some (t, ⟨.createAsset asset, r⟩) →
      ∃ file item x, files file ∧ importable file.mimeType = true ∧
        (⟨.getItem x, some item⟩ : ImportEvent) ∈ t.past ∧ file.id = item.remoteId ∧
        file.name = item.remoteName ∧ asset.originalFilename = file.name ∧
        (TypeAgrees file asset ↔ ∀ kind, reportedAs kind file.mimeType = true →
        ListedAs kind file.name) := by
  refine ⟨fun file job item assetId checksum size hname => typeAgrees_iff hname, ?_⟩
  intro p m t asset r h hevent
  obtain ⟨file, item, x, job, assetId, checksum, size, hin, hread, hid, hname, rfl⟩ :=
    created_from h hevent
  exact ⟨file, item, x, hin.1, hin.2, hread, hid, hname, hname.symm, typeAgrees_iff hname.symm⟩

/-- A folder with one film, under an extension the table does not have. -/
def film : RemoteFile :=
  { id := "film", name := "toast.m4v", size := some 10, checksum := some "md5", mimeType :=
    "video/x-m4v" }

/-- The film's worker is about to create its asset. -/
def filmFetched : List ImportMove :=
  let answers := answering { files := [film] } none
  wholeCall 0 4 answers importAlbum ++ wholeCall 0 9 answers (.importFolder 0) ++
    .start (.importFile 0) :: performs 0 12 answers

def filmJob : ImportJob :=
  NewJob.row { eventId := "event", orgId := "org", cloudAccountId := "account", provider := .gDrive,
               folderRemoteId := "folder", recursive := false } 0

def ImportOp.creates : ImportOp → Bool
  | .createAsset _ => true
  | _ => false

theorem imported_type_agrees_iff_film :
    ∃ (p : ImportPool) (t : ImportThread) (asset : NewAsset),
      (importServer 1).play (fun _ _ e => ProvidedBy (· = film) e) filmFetched importStart =
      some p ∧
      ∃ file item x, file = film ∧ importable file.mimeType = true ∧
        (⟨.getItem x, some item⟩ : ImportEvent) ∈ t.past ∧ file.id = item.remoteId ∧
        file.name = item.remoteName ∧ asset.originalFilename = file.name ∧
        (TypeAgrees file asset ↔
          ∀ kind, reportedAs kind file.mimeType = true → ListedAs kind file.name) := by
  let answers := answering { files := [film] } none
  let P : ImportPool → ImportThread → ImportEvent → Prop := fun _ _ e => ProvidedBy (· = film) e
  let p := ((importServer 1).play P filmFetched importStart).get (by decide)
  have hplay : (importServer 1).play P filmFetched importStart = some p := (Option.some_get _).symm
  have hnext : ((importServer 1).event (.perform 0 answers) p).map (fun te => te.2.1.creates) =
      some true := by decide
  obtain ⟨⟨t, o, r⟩, hevent, hcreates⟩ := Option.map_eq_some_iff.mp hnext
  cases o with
  | createAsset asset =>
    exact ⟨p, t, asset, hplay,
      (imported_type_agrees_iff (· = film) 1).2 p (.perform 0 answers) t asset r
      (Server.Reaches.start.play filmFetched hplay) hevent⟩
  | _ => cases hcreates

/-- A video the provider reports as such becomes an image. -/
theorem not_imported_type_agrees :
    ¬ ∀ (file : RemoteFile) (job : ImportJob) (item : ImportItem) (assetId checksum : String)
    (size : ℕ),
      importable file.mimeType = true → item.remoteName = file.name →
      TypeAgrees file (assetOf job item assetId checksum size) := by
  intro h
  have hagrees :=
    h film filmJob ((newItem filmJob film).row 0) "asset" "checksum" 10 (by decide) rfl
  exact absurd (hagrees .video (by decide)).1 (by decide)

end EventLens.Import
