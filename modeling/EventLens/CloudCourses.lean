import EventLens.CloudAccounts

/-!
The course of a call over the connected accounts: the accounts it knows to be
connected, the errors it met and the pages it listed. A call that knows its
account counts on `requireAccount`; a worker that meets only errors it recovers
from marks no item failed; an attempt fails only after an error, and goes back
to waiting only after a rate limit.
-/

namespace EventLens.Import

open Programs Contract

structure Course where
  call : CloudCall
  known : List (String × String) := []
  limited : Bool := false
  struck : Bool := false
  pages : ℕ := 0

/-- The organisation and account that an answer shows to be connected. -/
def learned : ImportEvent → List (String × String)
  | ⟨.getJob _, r⟩ => (r : Option ImportJob).toList.map (fun job => (job.orgId, job.cloudAccountId))
  | ⟨.requireAccount orgId _, r⟩ =>
    match (r : Except ImportError (String × CloudProvider)) with
    | .ok account => [(orgId, account.1)]
    | .error _ => []
  | _ => []

def Course.note (g : Course) (e : ImportEvent) : Course :=
  { call := g.call
    known := g.known ++ learned e
    limited := g.limited || limitMet e
    struck := g.struck || errorMet e
    pages := g.pages + if pageListed e then 1 else 0 }

/-- What a call counts on: its account is there, and a worker's errors mend. -/
structure Course.Expects (g : Course) (e : ImportEvent) : Prop where
  account :
    ∀ orgId accountId, e.1 = .requireAccount orgId accountId → (orgId, accountId) ∈ g.known →
    failure e = none
  mends : ∀ x, g.call = .imports (.importFile x) → Mends e

def Course.Permits (g : Course) : ImportOp → Prop
  | .markItem _ dto => dto.status ≠ .failed
  | .repointItem _ _ dto => dto.status ≠ .failed
  | .createJob job => (job.orgId, job.cloudAccountId) ∈ g.known
  | .queueImportFolder _ => ∃ job, g.call = .imports (.createImport job)
  | .queueImportFiles _ => ∃ j, g.call = .imports (.importFolder j)
  | _ => True

def courses : Contract ImportOp ImportRes Course where
  note := Course.note
  expects := Course.Expects
  permits := Course.Permits

/-- Work of the import queue. -/
def CloudCall.Queued (c : CloudCall) : Prop :=
  (∃ j, c = .imports (.importFolder j)) ∨ ∃ x, c = .imports (.importFile x)

/-- How a course may end. -/
def Ends (fuel : ℕ) (c : CloudCall) (verdict : Verdict) (g : Course) : Prop :=
  match verdict with
  | .rateLimited => g.limited = true ∧ c.Queued
  | .failed => g.struck = true ∧ ∃ j, c = .imports (.importFolder j)
  | .unended => fuel ≤ g.pages
  | .success | .skipped | .refused _ => True

def Closes (fuel : ℕ) (c : CloudCall) (verdict : Verdict) (g : Course) : Prop :=
  g.call = c ∧ Ends fuel c verdict g

/-- The call has met this error. -/
def Told (error : ImportError) (g : Course) : Prop :=
  if error.limits then g.limited = true else g.struck = true

/-- The course of a call that knows its account. -/
structure Holds (c : CloudCall) (account : String × String) (g : Course) : Prop where
  call : g.call = c
  known : account ∈ g.known

section Courses

variable {c : CloudCall} {account : String × String} {g : Course} {e : ImportEvent}
  {error : ImportError}
  {job : ImportJob} {item : ImportItem} {j : JobId} {x : ItemId}

theorem Holds.note (h : Holds c account g) (e : ImportEvent) : Holds c account (g.note e) :=
  ⟨h.call, List.mem_append_left _ h.known⟩

theorem told_note (h : failure e = some error) : Told error (g.note e) := by
  rw [Told]
  cases hlimits : error.limits with
  | true => simp [Course.note, limitMet, h, hlimits]
  | false => simp [Course.note, errorMet, h, hlimits]

theorem told_limited {ms : ℕ} (h : Told (.rateLimit ms) g) : g.limited = true := by
  simpa [Told, ImportError.limits] using h

theorem told_struck (h : Told error g) (hlimits : error.limits = false) : g.struck = true := by
  simpa [Told, hlimits] using h

theorem pages_note : g.pages ≤ (g.note e).pages := Nat.le_add_right _ _

/-- The account is there for a call that knows it. -/
theorem account_answers {orgId accountId : String} {r : Except ImportError (String × CloudProvider)}
    (h : Holds c (orgId, accountId) g) (hr : g.Expects ⟨.requireAccount orgId accountId, r⟩) :
    ∃ found, r = .ok found := by
  have hnone := hr.account orgId accountId rfl h.known
  cases r with
  | ok found => exact ⟨found, rfl⟩
  | error e => cases hnone

/-! Workers. -/

/-- How the body of the `try` of a worker may end. -/
def FileEnds (c : CloudCall) (r : Except ImportError Verdict) (g : Course) : Prop :=
  g.call = c ∧
    match r with
    | .ok verdict => verdict = .success
    | .error e => e.limits = true ∧ g.limited = true

/-- An error that a worker meets is a rate limit. -/
theorem fileEnds_error (hcall : g.call = .imports (.importFile x)) (h : g.Expects e)
    (hfail : failure e = some error) (hasset : ∀ asset, e.1 ≠ .createAsset asset)
    (haccount : ∀ orgId accountId, e.1 ≠ .requireAccount orgId accountId) :
    FileEnds (.imports (.importFile x)) (.error error) (g.note e) := by
  have hmends := h.mends x hcall
  rw [Mends, hfail] at hmends
  have hlimits : error.limits = true := by
    cases error with
    | rateLimit ms => rfl
    | assetChecksumConstraint text =>
      split at hmends <;> simp_all
    | other text =>
      split at hmends <;> simp_all
  have htold := told_note (g := g) hfail
  rw [Told, if_pos hlimits] at htold
  exact ⟨hcall, hlimits, htold⟩

theorem finishItem_courses (counter : Counter) :
    courses.Follows (finishItem j counter) (fun _ g' => g'.call = g.call) g := by
  refine ⟨trivial, fun _ _ => ⟨trivial, fun n _ => ?_⟩⟩
  cases n with
  | succ n => rfl
  | zero =>
    refine ⟨trivial, fun r _ => ?_⟩
    cases r with
    | none => rfl
    | some job =>
      change courses.Follows (if job.status = .importing then _ else _) _ _
      by_cases hs : job.status = .importing
      · rw [if_pos hs]
        exact ⟨trivial, fun _ _ => rfl⟩
      · rw [if_neg hs]
        rfl

theorem linkExisting_courses {assetId : Option String} (h : g.call = c) :
    courses.Follows (linkExisting x job assetId).run (FileEnds c) g := by
  refine ⟨by simp [courses, Course.Permits], fun _ _ => ?_⟩
  refine (follows_lift _ _ _ _ _).mpr (follows_mono _ ?_ _ _ (finishItem_courses .skippedFiles))
  intro _ g' hcall
  exact ⟨hcall.trans h, rfl⟩

theorem storeFile_courses {checksum : String} {size : ℕ} (h : g.call = .imports (.importFile x)) :
    courses.Follows (storeFile x job item checksum size).run
    (FileEnds (.imports (.importFile x))) g := by
  refine ⟨trivial, fun assetId _ => ⟨trivial, fun stored hstored => ?_⟩⟩
  cases stored with
  | error e => exact fileEnds_error h hstored rfl (by simp) (by simp)
  | ok _ =>
    refine ⟨trivial, fun created hcreated => ?_⟩
    cases created with
    | ok _ =>
      refine ⟨trivial, fun queued hqueued => ?_⟩
      cases queued with
      | error e => exact fileEnds_error h hqueued rfl (by simp) (by simp)
      | ok _ =>
        refine ⟨by simp [courses, Course.Permits], fun _ _ => ?_⟩
        refine (follows_lift _ _ _ _ _).mpr (follows_mono _ ?_ _ _ (finishItem_courses .doneFiles))
        intro _ g' hcall
        exact ⟨hcall.trans h, rfl⟩
    | error e =>
      have hmends := hcreated.mends x h
      cases e with
      | rateLimit ms =>
        have htold := told_note (g := (g.note ⟨.randomUUID, assetId⟩).note
          ⟨.putFile (stagingPath x) (assetOf job item assetId checksum size).storageKey
            (assetOf job item assetId checksum size).mimeType, .ok ()⟩)
          (e := ⟨.createAsset (assetOf job item assetId checksum size), .error (.rateLimit ms)⟩) rfl
        exact ⟨h, rfl, htold⟩
      | other text => exact hmends.elim
      | assetChecksumConstraint text =>
        refine ⟨trivial, fun _ _ => ⟨trivial, fun winner hwinner => ?_⟩⟩
        cases winner with
        | error e => exact fileEnds_error h hwinner rfl (by simp) (by simp)
        | ok winner => exact linkExisting_courses h

theorem importFile_courses (h : Holds (.imports (.importFile x))
    (job.orgId, job.cloudAccountId) g) :
    courses.Follows (importFile x job item).run (FileEnds (.imports (.importFile x))) g := by
  have hcall := h.call
  refine ⟨by simp [courses, Course.Permits], fun _ _ => ⟨trivial, fun found hfound => ?_⟩⟩
  obtain ⟨found, rfl⟩ := account_answers (h.note _) hfound
  refine ⟨trivial, fun accessToken htoken => ?_⟩
  cases accessToken with
  | error e => exact fileEnds_error hcall htoken rfl (by simp) (by simp)
  | ok accessToken =>
  refine ⟨trivial, fun made hmade => ?_⟩
  cases made with
  | error e => exact fileEnds_error hcall hmade rfl (by simp) (by simp)
  | ok _ =>
  refine ⟨trivial, fun downloaded hdownloaded => ?_⟩
  cases downloaded with
  | error e => exact fileEnds_error hcall hdownloaded rfl (by simp) (by simp)
  | ok _ =>
  refine ⟨trivial, fun checksum hchecksum => ?_⟩
  cases checksum with
  | error e => exact fileEnds_error hcall hchecksum rfl (by simp) (by simp)
  | ok checksum =>
  refine ⟨trivial, fun size hsize => ?_⟩
  cases size with
  | error e => exact fileEnds_error hcall hsize rfl (by simp) (by simp)
  | ok size =>
  refine ⟨trivial, fun existing hexisting => ?_⟩
  cases existing with
  | error e => exact fileEnds_error hcall hexisting rfl (by simp) (by simp)
  | ok existing =>
  cases existing with
  | some assetId => exact linkExisting_courses hcall
  | none => exact storeFile_courses hcall

theorem recoverFile_courses {r : Except ImportError Verdict} (fuel : ℕ)
    (h : FileEnds (.imports (.importFile x)) r g) :
    courses.Follows (recoverFile x job r) (Ends fuel (.imports (.importFile x))) g := by
  obtain ⟨-, hr⟩ := h
  cases r with
  | ok verdict =>
    cases hr
    trivial
  | error e =>
    obtain ⟨hlimits, hlimited⟩ := hr
    cases e with
    | rateLimit ms =>
      refine ⟨by simp [courses, Course.Permits], fun _ _ => ⟨trivial, fun _ _ => ?_⟩⟩
      exact ⟨by simp [courses, Course.note, hlimited], .inr ⟨x, rfl⟩⟩
    | assetChecksumConstraint text => cases hlimits
    | other text => cases hlimits

theorem ends_note {fuel : ℕ} {verdict : Verdict} (h : Ends fuel c verdict g) (e : ImportEvent) :
    Ends fuel c verdict (g.note e) := by
  cases verdict with
  | rateLimited => exact ⟨by simp [Course.note, h.1], h.2⟩
  | failed => exact ⟨by simp [Course.note, h.1], h.2⟩
  | unended => exact Nat.le_trans h pages_note
  | success => trivial
  | skipped => trivial
  | refused text => trivial

theorem handleImportFile_courses (fuel : ℕ) (x : ItemId) :
    courses.Follows (handleImportFile x) (Ends fuel (.imports (.importFile x)))
      { call := .imports (.importFile x) } := by
  refine ⟨trivial, fun r _ => ?_⟩
  cases r with
  | none => trivial
  | some item =>
    change courses.Follows (if item.status ≠ .pending then _ else _) _ _
    by_cases hstatus : item.status ≠ .pending
    · rw [if_pos hstatus]
      trivial
    · rw [if_neg hstatus]
      refine ⟨trivial, fun r _ => ?_⟩
      cases r with
      | none => trivial
      | some job =>
        change courses.Follows (if job.status = .cancelled then _ else _) _ _
        by_cases hcancelled : job.status = .cancelled
        · rw [if_pos hcancelled]
          trivial
        · rw [if_neg hcancelled]
          refine follows_seq _ (importFile_courses ⟨rfl, by simp [courses, Course.note, learned]⟩)
            fun outcome g hbody => ?_
          refine follows_seq _ (recoverFile_courses fuel hbody) fun verdict g' hends => ?_
          exact ⟨trivial, fun _ _ => ends_note hends _⟩

/-! Listings. -/

/-- A course and what it has become. -/
structure Course.Later (g g' : Course) : Prop where
  call : g'.call = g.call
  known : ∀ q ∈ g.known, q ∈ g'.known
  pages : g.pages ≤ g'.pages

theorem Course.later_refl (g : Course) : g.Later g := ⟨rfl, fun _ h => h, Nat.le_refl _⟩

theorem Course.Later.trans {g₁ g₂ g₃ : Course} (h : g₁.Later g₂) (h' : g₂.Later g₃) : g₁.Later g₃ :=
  ⟨h'.call.trans h.call, fun q hq => h'.known q (h.known q hq), Nat.le_trans h.pages h'.pages⟩

theorem later_note (g : Course) (e : ImportEvent) : g.Later (g.note e) :=
  ⟨rfl, fun _ hq => List.mem_append_left _ hq, pages_note⟩

theorem Holds.later {g' : Course} (h : Holds c account g) (hlater : g.Later g') :
    Holds c account g' :=
  ⟨hlater.call.trans h.call, hlater.known _ h.known⟩

/-- A part of a listing ends, by an error only if it has met one. -/
def Goes {α : Type} (g : Course) (r : Except ImportError α) (g' : Course) : Prop :=
  g.Later g' ∧ ∀ error, r = .error error → Told error g'

theorem goes_ok {α : Type} {g' : Course} {a : α} (h : g.Later g') :
    Goes g (.ok a : Except ImportError α) g' := ⟨h, fun _ he => (by cases he)⟩

theorem goes_error {α : Type} {g₁ : Course} (h : g.Later g₁) (hfail : failure e = some error) :
    Goes g (.error error : Except ImportError α) (g₁.note e) := by
  refine ⟨h.trans (later_note g₁ e), fun error' he => ?_⟩
  cases he
  exact told_note hfail

theorem classify_courses {existing : List ImportItem} {files : List RemoteFile}
    {toInsert : List NewItem}
    {skipped : ℕ} :
    courses.Follows (classify job existing files toInsert skipped) (fun _ g' => g.Later g') g := by
  induction files generalizing g toInsert skipped with
  | nil => exact g.later_refl
  | cons file files ih =>
    rw [classify]
    split
    · exact ih
    · split
      · refine ⟨by simp [courses, Course.Permits], fun r _ => follows_mono _ ?_ _ _ ih⟩
        exact fun _ _ h => (later_note g _).trans h
      · refine ⟨by simp [courses, Course.Permits], fun r _ => follows_mono _ ?_ _ _ ih⟩
        exact fun _ _ h => (later_note g _).trans h

theorem insertItems_courses {items : List NewItem} :
    courses.Follows (insertItems items).run (fun r g' => Goes g r g') g := by
  rw [insertItems]
  split
  · exact goes_ok g.later_refl
  · refine ⟨trivial, fun r _ => ?_⟩
    cases r with
    | ok out => exact goes_ok (later_note g _)
    | error e => exact goes_error g.later_refl rfl

theorem upsertListingPage_courses {files : List RemoteFile} :
    courses.Follows (upsertListingPage job files).run (fun r g' => Goes g r g') g := by
  rw [upsertListingPage]
  split
  · exact goes_ok g.later_refl
  · refine ⟨trivial, fun existing _ => ?_⟩
    refine (follows_lift _ _ _ _ _).mpr (follows_mono _ ?_ _ _ classify_courses)
    intro out g₁ hlater
    refine (follows_attempt _ _ _ _ _).mpr (follows_mono _ ?_ _ _ insertItems_courses)
    intro r g₂ hr
    have hlater' := ((later_note g _).trans hlater).trans hr.1
    cases r with
    | ok rows => exact goes_ok hlater'
    | error e => exact ⟨hlater', fun error he => hr.2 error (by cases he; rfl)⟩

/-- The pages of a listing end, with the fuel used up only once so many pages are
listed. -/
def PagesEnd (g : Course) (fuel : ℕ) (r : Except ImportError (Option (ℕ × ℕ)))
    (g' : Course) : Prop :=
  Goes g r g' ∧ (r = .ok none → g.pages + fuel ≤ g'.pages)

theorem listPages_courses {fuel : ℕ} {folderQueue : List String} {folderId : String}
    {pageToken : Option String} {listed skipped : ℕ}
    (h : Holds c (job.orgId, job.cloudAccountId) g) :
    courses.Follows (listPages job fuel folderQueue folderId pageToken listed skipped).run
      (PagesEnd g fuel) g := by
  induction fuel generalizing folderQueue folderId pageToken listed skipped g with
  | zero => exact ⟨goes_ok g.later_refl, fun _ => Nat.le_refl _⟩
  | succ fuel ih =>
    refine ⟨trivial, fun found hfound => ?_⟩
    obtain ⟨found, rfl⟩ := account_answers h hfound
    have hlater := later_note g ⟨.requireAccount job.orgId job.cloudAccountId, .ok found⟩
    refine ⟨trivial, fun accessToken _ => ?_⟩
    cases accessToken with
    | error e => exact ⟨goes_error hlater rfl, fun hnone => (by cases hnone)⟩
    | ok accessToken =>
    have hlater := hlater.trans (later_note _ ⟨.getFreshAccessToken found.1, .ok accessToken⟩)
    refine ⟨trivial, fun page _ => ?_⟩
    cases page with
    | error e => exact ⟨goes_error hlater rfl, fun hnone => (by cases hnone)⟩
    | ok page =>
    have hpages : ∀ g₁ : Course,
        (g₁.note ⟨.listFilesPage accessToken folderId pageToken, .ok page⟩).pages = g₁.pages + 1 :=
      fun _ => rfl
    have hlater' :=
      hlater.trans (later_note _ ⟨.listFilesPage accessToken folderId pageToken, .ok page⟩)
    refine (follows_attempt _ _ _ _ _).mpr (follows_mono _ ?_ _ _ upsertListingPage_courses)
    intro r g₁ hr
    have hall := hlater'.trans hr.1
    cases r with
    | error e =>
      exact ⟨⟨hall, fun error he => hr.2 error (by cases he; rfl)⟩, fun hnone => (by cases hnone)⟩
    | ok outcome =>
      have hmore : g.pages + 1 ≤ g₁.pages :=
        Nat.le_trans (Nat.succ_le_succ hlater.pages)
          (Nat.le_trans (Nat.le_of_eq (hpages _).symm) hr.1.pages)
      have hrest : ∀ r' g₂, PagesEnd g₁ fuel r' g₂ → PagesEnd g (fuel + 1) r' g₂ := by
        rintro r' g₂ ⟨⟨hlater₂, htold⟩, hfuel⟩
        refine ⟨⟨hall.trans hlater₂, htold⟩, fun hnone => ?_⟩
        have hle := hfuel hnone
        omega
      have hholds := h.later hall
      generalize truthyToken page.nextPageToken = token
      generalize (if job.recursive then folderQueue ++ page.subfolderIds else folderQueue) = queue
      cases token with
      | some token => exact follows_mono _ hrest _ _ (ih hholds)
      | none =>
        cases queue with
        | cons folder queue => exact follows_mono _ hrest _ _ (ih hholds)
        | nil => exact ⟨goes_ok hall, fun hnone => (by cases hnone)⟩

/-- How the body of the `try` of a listing may end. -/
def FolderEnds (fuel : ℕ) (r : Except ImportError Verdict) (g : Course) : Prop :=
  match r with
  | .ok .unended => fuel ≤ g.pages
  | .ok verdict => verdict = .success
  | .error e => Told e g

theorem fanOut_courses {listed skipped fuel : ℕ} (h : g.call = .imports (.importFolder j)) :
    courses.Follows (fanOut j listed skipped).run (FolderEnds fuel) g := by
  refine ⟨trivial, fun pending _ => ?_⟩
  change courses.Follows (ExceptT.run (if pending = [] then _ else _)) _ _
  by_cases hpending : pending = []
  · rw [if_pos hpending]
    exact ⟨trivial, fun _ _ => rfl⟩
  · rw [if_neg hpending]
    refine ⟨trivial, fun _ _ => ⟨⟨j, h⟩, fun r _ => ?_⟩⟩
    cases r with
    | ok _ => rfl
    | error text => exact told_note (e := ⟨.queueImportFiles pending, .error text⟩) rfl

theorem listFolder_courses {fuel : ℕ}
    (h : Holds (.imports (.importFolder j)) (job.orgId, job.cloudAccountId) g) :
    courses.Follows (listFolder j job fuel).run (FolderEnds fuel) g := by
  refine (follows_attempt _ _ _ _ _).mpr (follows_mono _ ?_ _ _ (listPages_courses h))
  rintro r g' ⟨⟨hlater, htold⟩, hfuel⟩
  cases r with
  | error e => exact htold e rfl
  | ok out =>
    cases out with
    | none => exact Nat.le_trans (Nat.le_add_left _ _) (hfuel rfl)
    | some out => exact fanOut_courses (hlater.call.trans h.call)

theorem handleImportFolder_courses (fuel : ℕ) (j : JobId) :
    courses.Follows (handleImportFolder fuel j) (Ends fuel (.imports (.importFolder j)))
      { call := .imports (.importFolder j) } := by
  refine ⟨trivial, fun r _ => ?_⟩
  cases r with
  | none => trivial
  | some job =>
    change courses.Follows (if job.status = .cancelled then _ else _) _ _
    by_cases hcancelled : job.status = .cancelled
    · rw [if_pos hcancelled]
      trivial
    · rw [if_neg hcancelled]
      refine follows_seq _ (listFolder_courses ⟨rfl, by simp [courses, Course.note, learned]⟩)
        fun r g hr => ?_
      cases r with
      | ok verdict => cases verdict <;> trivial
      | error e =>
        cases e with
        | rateLimit ms =>
          have hlimited := told_limited hr
          exact ⟨trivial, fun _ _ => ⟨by simp [courses, Course.note, hlimited], .inl ⟨j, rfl⟩⟩⟩
        | other text =>
          have hstruck := told_struck hr rfl
          exact ⟨trivial, fun _ _ => ⟨by simp [courses, Course.note, hstruck], ⟨j, rfl⟩⟩⟩
        | assetChecksumConstraint text =>
          have hstruck := told_struck hr rfl
          exact ⟨trivial, fun _ _ => ⟨by simp [courses, Course.note, hstruck], ⟨j, rfl⟩⟩⟩

/-! The API. -/

theorem createImport_courses (fuel : ℕ) (job : NewJob) :
    courses.Follows (createImport job) (Ends fuel (.imports (.createImport job)))
      { call := .imports (.createImport job) } := by
  refine ⟨trivial, fun orgId _ => ?_⟩
  cases orgId with
  | error e => trivial
  | ok orgId =>
    refine ⟨trivial, fun account _ => ?_⟩
    cases account with
    | error e => trivial
    | ok account =>
      refine ⟨by simp [courses, Course.Permits, Course.note, learned], fun k _ => ?_⟩
      exact ⟨⟨job, rfl⟩, fun _ _ => trivial⟩

theorem cancel_courses (fuel : ℕ) (eventId : String) (j : JobId) :
    courses.Follows (cancel eventId j) (Ends fuel (.imports (.cancel eventId j)))
      { call := .imports (.cancel eventId j) } := by
  refine ⟨trivial, fun r _ => ?_⟩
  simp only [Prog.bind_done]
  cases r.filter (fun job => job.eventId = eventId) with
  | none => trivial
  | some job =>
    change courses.Follows (if _ then _ else _) _ _
    split
    · trivial
    · exact ⟨trivial, fun _ _ => trivial⟩

theorem listFolders_courses (fuel : ℕ) (orgId accountId : String) :
    courses.Follows (listFolders orgId accountId) (Ends fuel (.listFolders orgId accountId))
      { call := .listFolders orgId accountId } := by
  refine ⟨trivial, fun account _ => ?_⟩
  cases account with
  | error e => trivial
  | ok account =>
    refine ⟨trivial, fun accessToken _ => ?_⟩
    cases accessToken with
    | error e => trivial
    | ok accessToken => trivial

theorem follows_call {α : Type} {prog : ImportProg α} {Q : α → Course → Prop} {g : Course}
    (h : courses.Follows prog Q g) :
    courses.Follows prog (fun value g' => g'.call = g.call ∧ Q value g') g := by
  induction prog generalizing g with
  | done value => exact ⟨rfl, h⟩
  | perform o next ih => exact ⟨h.1, fun r hr => ih r (h.2 r hr)⟩

/-- Every call keeps to its course. -/
theorem prog_courses (fuel : ℕ) (c : CloudCall) :
    courses.Follows (c.prog fuel) (Closes fuel c) { call := c } := by
  have hends : courses.Follows (c.prog fuel) (Ends fuel c) { call := c } := by
    cases c with
    | imports c =>
      cases c with
      | importFolder j => exact handleImportFolder_courses fuel j
      | importFile x => exact handleImportFile_courses fuel x
      | createImport job => exact createImport_courses fuel job
      | cancel eventId j => exact cancel_courses fuel eventId j
    | connect account => trivial
    | listFolders orgId accountId => exact listFolders_courses fuel orgId accountId
    | tick now => trivial
  exact follows_call hends

end Courses

end EventLens.Import
