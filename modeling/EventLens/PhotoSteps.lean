import EventLens.PhotoFacts

/-!
The steps of the work on photos: what one operation of one call does to the
rows, files, objects and jobs, and why everything stays true.
-/

namespace EventLens.Photos

open Programs Media

/-! One call advances. -/

section Steps

variable {own : Option ℕ} {fresh : List AssetRow} {N : Multiset Work} {g g' : Work}
  {s s' : MediaStore}
  {item : JobItem} {row row' : AssetRow}

theorem Whole.apart (h : Whole (g ::ₘ N) s) {other : Work} (hother : other ∈ N) {a : ℕ}
    (ha : g.drawn = some a) : other.drawn ≠ some a := by
  intro hsame
  have hdrawn := h.drawn
  rw [Multiset.filterMap_cons_some _ _ _ ha] at hdrawn
  exact (Multiset.nodup_cons.mp hdrawn).1 ((Multiset.mem_filterMap _ _).mpr ⟨other, hother, hsame⟩)

theorem Whole.apart_after (h : Whole (g ::ₘ N) s)
    (hdraws : ∀ a, g'.drawn = some a → s.nextUuid ≤ a ∨ g.drawn = some a) :
    ((g' ::ₘ N).filterMap Work.drawn).Nodup := by
  have hrest : (N.filterMap Work.drawn).Nodup :=
    Multiset.nodup_of_le (Multiset.filterMap_le_filterMap _ (Multiset.le_cons_self N g)) h.drawn
  cases hg' : g'.drawn with
  | none =>
    rw [Multiset.filterMap_cons_none _ _ hg']
    exact hrest
  | some a =>
    rw [Multiset.filterMap_cons_some _ _ _ hg']
    refine Multiset.nodup_cons.mpr ⟨fun hmem => ?_, hrest⟩
    obtain ⟨other, hother, hsame⟩ := (Multiset.mem_filterMap _ _).mp hmem
    rcases hdraws a hg' with hnew | hold
    · exact absurd ((h.calls other (Multiset.mem_cons_of_mem hother)).drawn a hsame)
        (Nat.not_lt.mpr hnew)
    · exact h.apart hother hold hsame

/-- The call that advances is the one that has drawn, deleted and brought. -/
theorem Whole.advance (h : Whole (g ::ₘ N) s) (hown : own = none ∨ own = g.drawn)
    (hl : Later own fresh (g ::ₘ N) s (g' ::ₘ N) s')
    (hshown : Shown fresh (g ::ₘ N) s (g' ::ₘ N) s')
    (hsound : g'.Sound (g' ::ₘ N) s') : Whole (g' ::ₘ N) s' := by
  refine h.later hl hshown fun g'' hg'' => ?_
  rcases Multiset.mem_cons.mp hg'' with rfl | hg''
  · exact .inr hsound
  · refine .inl ⟨Multiset.mem_cons_of_mem hg'', fun a ha => ?_⟩
    rcases hown with hnone | hdrawn
    · rw [hnone] at ha
      cases ha
    · exact h.apart hg'' (hdrawn ▸ ha)

theorem Awaited.step (h : Awaited (g ::ₘ N) s item)
    (hjobs : ∀ n, (n, item) ∈ s.jobs → (n, item) ∈ s'.jobs)
    (hg : item ∈ g.owes ∨ g.Runs item → Awaited (g' ::ₘ N) s' item) :
    Awaited (g' ::ₘ N) s' item := by
  rcases h with ⟨n, hjob⟩ | ⟨other, hother, hdoes⟩
  · exact .inl ⟨n, hjobs n hjob⟩
  · rcases Multiset.mem_cons.mp hother with rfl | hother
    · exact hg hdoes
    · exact .inr ⟨other, Multiset.mem_cons_of_mem hother, hdoes⟩

theorem Retained.step (h : Retained (g ::ₘ N) s item)
    (hjobs : ∀ n, (n, item) ∈ s.jobs → (n, item) ∈ s'.jobs)
    (hfailed : ∀ n, (n, item) ∈ s.failed → (n, item) ∈ s'.failed)
    (hg : item ∈ g.owes ∨ g.Runs item → Retained (g' ::ₘ N) s' item)
    (hended : (∃ n, g.call = .job n item) → g.ended = some .failed → Retained (g' ::ₘ N) s' item) :
    Retained (g' ::ₘ N) s' item := by
  rcases h with hawaited | ⟨n, hjob⟩ | ⟨other, hother, hcall, hfail⟩
  · rcases hawaited with ⟨n, hjob⟩ | ⟨other, hother, hdoes⟩
    · exact .inl (.inl ⟨n, hjobs n hjob⟩)
    · rcases Multiset.mem_cons.mp hother with rfl | hother
      · exact hg hdoes
      · exact .inl (.inr ⟨other, Multiset.mem_cons_of_mem hother, hdoes⟩)
  · exact .inr (.inl ⟨n, hfailed n hjob⟩)
  · rcases Multiset.mem_cons.mp hother with rfl | hother
    · exact hended hcall hfail
    · exact .inr (.inr ⟨other, Multiset.mem_cons_of_mem hother, hcall, hfail⟩)

/-- The status of an asset stays true as long as its jobs and files stay. -/
theorem Truthful.mono {M M' : Multiset Work} (h : Truthful M s row)
    (hident : row.toAssetIdentity = row'.toAssetIdentity) (htype : row.type = row'.type)
    (hstatus : row.status = row'.status)
    (hawaited : Awaited M s (.assetProcess row.id) → Awaited M' s' (.assetProcess row.id))
    (hretained : Retained M s (.assetProcess row.id) → Retained M' s' (.assetProcess row.id))
    (hvideo : row.type = .video → Retained M s (.videoTranscode row.id) →
      derivative row.toAssetIdentity .encodedVideo ∈ s'.files ∨
      Retained M' s' (.videoTranscode row.id))
    (hfiles : ∀ type, derivative row.toAssetIdentity type ∈ s.files →
      derivative row.toAssetIdentity type ∈ s'.files) : Truthful M' s' row' := by
  unfold Truthful at h ⊢
  rw [← hstatus, ← htype, ← hident]
  cases hcase : row.status with
  | staged => trivial
  | stored =>
    rw [hcase] at h
    exact hawaited h
  | failed =>
    rw [hcase] at h
    exact hretained h
  | processed =>
    rw [hcase] at h
    obtain ⟨hpreview, hthumbnail, hencoded⟩ := h
    exact ⟨hfiles _ hpreview, hfiles _ hthumbnail, fun hv =>
      (hencoded hv).elim (fun hfile => .inl (hfiles _ hfile)) (hvideo hv)⟩

/-- The call is as far with its job as it was. -/
structure Alike (g g' : Work) : Prop where
  call : g'.call = g.call
  idle : g'.idle = g.idle
  ended : g'.ended = g.ended
  owes : ∀ item ∈ g.owes, item ∈ g'.owes

theorem Alike.refl (g : Work) : Alike g g := ⟨rfl, rfl, rfl, fun _ h => h⟩

theorem Alike.runs (h : Alike g g') (hruns : g.Runs item) : g'.Runs item := by
  obtain ⟨⟨n, hcall⟩, hidle, hended⟩ := hruns
  exact ⟨⟨n, h.call.trans hcall⟩, h.idle.trans hidle, h.ended.trans hended⟩

theorem Alike.does (h : Alike g g') (hdoes : item ∈ g.owes ∨ g.Runs item) :
    item ∈ g'.owes ∨ g'.Runs item :=
  hdoes.imp (h.owes item) h.runs

theorem Awaited.alike (h : Awaited (g ::ₘ N) s item) (ha : Alike g g')
    (hjobs : ∀ n, (n, item) ∈ s.jobs → (n, item) ∈ s'.jobs) : Awaited (g' ::ₘ N) s' item :=
  h.step hjobs fun hdoes => .inr ⟨g', Multiset.mem_cons_self g' N, ha.does hdoes⟩

theorem Retained.alike (h : Retained (g ::ₘ N) s item) (ha : Alike g g')
    (hjobs : ∀ n, (n, item) ∈ s.jobs → (n, item) ∈ s'.jobs)
    (hfailed : ∀ n, (n, item) ∈ s.failed →
    (n, item) ∈ s'.failed) : Retained (g' ::ₘ N) s' item := by
  have hmem : g' ∈ g' ::ₘ N := Multiset.mem_cons_self g' N
  refine h.step hjobs hfailed (fun hdoes => .inl (.inr ⟨g', hmem, ha.does hdoes⟩)) fun hcall
    hended => ?_
  obtain ⟨n, hcall⟩ := hcall
  exact .inr (.inr ⟨g', hmem, ⟨n, ha.call.trans hcall⟩, ha.ended.trans hended⟩)

theorem Truthful.alike (h : Truthful (g ::ₘ N) s row) (ha : Alike g g')
    (hident : row.toAssetIdentity = row'.toAssetIdentity) (htype : row.type = row'.type)
    (hstatus : row.status = row'.status) (hjobs : ∀ job ∈ s.jobs, job ∈ s'.jobs)
    (hfailed : ∀ job ∈ s.failed, job ∈ s'.failed)
    (hfiles : ∀ type, derivative row.toAssetIdentity type ∈ s.files →
      derivative row.toAssetIdentity type ∈ s'.files) : Truthful (g' ::ₘ N) s' row' :=
  h.mono hident htype hstatus (fun haw => haw.alike ha fun _ => hjobs _)
    (fun hret => hret.alike ha (fun _ => hjobs _) fun _ => hfailed _)
    (fun _ hret => .inr (hret.alike ha (fun _ => hjobs _) fun _ => hfailed _)) hfiles

/-! Steps that change no table of photos. -/

/-- The rows, the events and the files stay, and objects are only added. -/
structure Stays (s s' : MediaStore) : Prop where
  assets : s'.assets = s.assets
  events : s'.events = s.events
  files : s'.files = s.files
  bucket : ∀ key ∈ s.bucket, key ∈ s'.bucket
  next : s.nextUuid ≤ s'.nextUuid

structure Same (s s' : MediaStore) : Prop extends Stays s s' where
  jobs : s'.jobs = s.jobs
  failed : s'.failed = s.failed

theorem Stays.refl (s : MediaStore) : Stays s s := ⟨rfl, rfl, rfl, fun _ h => h, le_rfl⟩

theorem Same.refl (s : MediaStore) : Same s s := ⟨.refl s, rfl, rfl⟩

theorem Stays.later (h : Stays s s') (hdoomed : ∀ pfx ∈ g.doomed, pfx ∈ g'.doomed)
    (hdraws : ∀ a, g'.drawn = some a → s.nextUuid ≤ a ∨ g.drawn = some a) :
    Later none [] (g ::ₘ N) s (g' ::ₘ N) s' where
  next := h.next
  drawn other hother a ha := by
    rcases Multiset.mem_cons.mp hother with rfl | hother
    · exact (hdraws a ha).imp_right fun hold => ⟨g, Multiset.mem_cons_self g N, hold⟩
    · exact .inr ⟨other, Multiset.mem_cons_of_mem hother, ha⟩
  owned a ha := by cases ha
  brings row hrow := absurd hrow List.not_mem_nil
  rows row hrow := .inr ⟨row, h.assets ▸ hrow, rfl, rfl, id⟩
  events event hevent := h.events ▸ hevent
  doomed other hother pfx hpfx := by
    rcases Multiset.mem_cons.mp hother with rfl | hother
    · exact .inr ⟨g', Multiset.mem_cons_self g' N, pfx, hdoomed pfx hpfx, rfl⟩
    · exact .inr ⟨other, Multiset.mem_cons_of_mem hother, pfx, hpfx, rfl⟩
  files f hf _ := h.files.symm ▸ hf
  bucket key hkey := .inl (h.bucket key hkey)

theorem tasked_step (h : Tasked (g' ::ₘ N) s' item) (hcall : g'.call = g.call)
    (hjobs : ∀ n, (n, item) ∈ s'.jobs ++ s'.failed → (n, item) ∈ s.jobs ++ s.failed) :
    Tasked (g ::ₘ N) s item := by
  rcases h with ⟨n, hjob⟩ | ⟨other, hother, n, hn⟩
  · exact .inl ⟨n, hjobs n hjob⟩
  · rcases Multiset.mem_cons.mp hother with rfl | hother
    · exact .inr ⟨g, Multiset.mem_cons_self g N, n, hcall.symm.trans hn⟩
    · exact .inr ⟨other, Multiset.mem_cons_of_mem hother, n, hn⟩

theorem Stays.shown (hstays : Stays s s') (h : Whole (g ::ₘ N) s)
    (hdraws : ∀ a, g'.drawn = some a → s.nextUuid ≤ a ∨ g.drawn = some a)
    (htasks : ∀ item, Tasked (g' ::ₘ N) s' item → Tasked (g ::ₘ N) s item ∨
      (∀ keys, item = .cleanupKeys keys → ∀ key ∈ keys, Expendable (g' ::ₘ N) s' key) ∧
        ∀ pfx, item = .cleanupPrefix pfx → Leaving (g' ::ₘ N) s' pfx.eventId)
    (htruthful : ∀ row ∈ s.assets, row.deletedAt = none → Truthful (g' ::ₘ N) s' row) :
    Shown [] (g ::ₘ N) s (g' ::ₘ N) s' where
  ids := by rw [hstays.assets]; exact h.ids
  eventIds := by rw [hstays.events]; exact h.eventIds
  homes row hrow := by
    rw [MediaStore.hasEvent, hstays.events]
    exact (h.rows row (hstays.assets ▸ hrow)).2.2
  brings row hrow := absurd hrow List.not_mem_nil
  files f hf := by
    rw [hstays.files] at hf
    obtain ⟨⟨row, hrow, hid, -⟩, -⟩ := h.files f hf
    exact .inl ⟨hf, row, hstays.assets.symm ▸ hrow, hid⟩
  tasks := htasks
  truthful row hrow hlive := htruthful row (hstays.assets ▸ hrow) hlive
  drawn := h.apart_after hdraws

/-- A step that changes no table and leaves the call as far with its job. -/
theorem Whole.aside (h : Whole (g ::ₘ N) s) (hsame : Same s s') (ha : Alike g g')
    (hdoomed : g'.doomed = g.doomed)
    (hdraws : ∀ a, g'.drawn = some a → s.nextUuid ≤ a ∨ g.drawn = some a)
    (hsound : g.Sound (g' ::ₘ N) s' → g'.Sound (g' ::ₘ N) s') : Whole (g' ::ₘ N) s' := by
  have hl : Later none [] (g ::ₘ N) s (g' ::ₘ N) s' :=
    hsame.later (fun pfx hpfx => hdoomed ▸ hpfx) hdraws
  refine h.advance (.inl rfl) hl
    (hsame.shown h hdraws (fun item htask => .inl ?_) fun row hrow hlive => ?_)
    (hsound ?_)
  · exact tasked_step htask ha.call fun n hjob => by rwa [hsame.jobs, hsame.failed] at hjob
  · refine (h.truthful row hrow hlive).alike ha rfl rfl rfl ?_ ?_ ?_
    · exact fun job hjob => hsame.jobs.symm ▸ hjob
    · exact fun job hjob => hsame.failed.symm ▸ hjob
    · exact fun type hfile => hsame.files.symm ▸ hfile
  · exact (h.calls g (Multiset.mem_cons_self g N)).later hl fun a hnone => by cases hnone

theorem Whole.quiet (h : Whole (g ::ₘ N) s) (hsame : Same s s') : Whole (g ::ₘ N) s' :=
  h.aside hsame (.refl g) rfl (fun _ ha => .inr ha) id

/-- An event that is seen is the only one of its id. -/
theorem Whole.sees (h : Whole (g ::ₘ N) s) {events : List EventRow}
    (hevents : ∀ event ∈ events, event ∈ s.events) :
    Whole ({ g with seen := events.map prefixOf ++ g.seen } ::ₘ N) s := by
  refine h.aside (Same.refl s) ⟨rfl, rfl, rfl, fun _ h => h⟩ rfl (fun _ ha => .inr ha) fun hsound =>
    ?_
  refine { hsound with
    seen := fun pfx hpfx event hevent hid => ?_
    doomed := fun pfx hpfx => List.mem_append_right _ (hsound.doomed pfx hpfx) }
  rcases List.mem_append.mp hpfx with hnew | hold
  · obtain ⟨known, hknown, rfl⟩ := List.mem_map.mp hnew
    rw [List.inj_on_of_nodup_map h.eventIds hevent (hevents known hknown) hid]
    rfl
  · exact hsound.seen pfx hold event hevent hid

theorem Whole.draws (h : Whole (g ::ₘ N) s) (hnone : g.drawn = none) :
    Whole ({ g with drawn := some s.nextUuid } ::ₘ N) { s with nextUuid := s.nextUuid + 1 } := by
  refine h.aside ⟨⟨rfl, rfl, rfl, fun _ hkey => hkey, Nat.le_succ _⟩, rfl, rfl⟩
    ⟨rfl, rfl, rfl, fun _ h => h⟩ rfl
    (fun a ha => .inl (Option.some.inj ha).le) fun hsound => ?_
  refine { hsound with
    drawn := fun a ha => ?_
    held := fun key hkey => ⟨(hsound.held key hkey).1, fun a ha => ?_⟩ }
  · rw [← Option.some.inj ha]
    exact Nat.lt_succ_self _
  · rcases (hsound.held key hkey).2 a ha with hsettled | hdrawn
    · exact .inl hsettled
    · rw [hnone] at hdrawn
      cases hdrawn

theorem Whole.puts (h : Whole (g ::ₘ N) s) {key : StorageKey} (howns : g.Owns key) :
    Whole ({ g with held := key :: g.held } ::ₘ N) (s.putFile key) := by
  have hmore : ∀ k ∈ s.bucket, k ∈ (s.putFile key).bucket := by
    intro k hk
    rw [MediaStore.putFile]
    by_cases hsame : k = key
    · exact List.mem_append_right _ (List.mem_singleton.mpr hsame)
    · exact List.mem_append_left _ (List.mem_filter.mpr ⟨hk, decide_eq_true hsame⟩)
  refine h.aside ⟨⟨rfl, rfl, rfl, hmore, le_rfl⟩, rfl, rfl⟩
    ⟨rfl, rfl, rfl, fun _ h => h⟩ rfl (fun _ ha => .inr ha)
    fun hsound => ?_
  refine { hsound with held := fun k hk => ?_ }
  rcases List.mem_cons.mp hk with rfl | hk
  · refine ⟨.inl (List.mem_append_right _ (List.mem_singleton_self k)), fun a ha => ?_⟩
    rcases howns a ha with ⟨held, hheld, rfl⟩ | hdrawn
    · exact .inl (hsound.asset held hheld).2.1
    · exact .inr hdrawn
  · exact hsound.held k hk

/-- The objects listed belong to the event that the cleanup is for. -/
theorem Whole.pages (h : Whole (g ::ₘ N) s) {n : ℕ} {pfx : EventPrefix}
    (hcall : g.call = .job n (.cleanupPrefix pfx))
    (cursor : Option StorageKey) :
    Whole ({ g with paged := (s.listObjects pfx cursor).rows } ::ₘ N) s := by
  refine h.aside (Same.refl s) ⟨rfl, rfl, rfl, fun _ h => h⟩ rfl (fun _ ha => .inr ha) fun hsound =>
    ?_
  refine { hsound with paged := fun key hkey => .inl ?_ }
  have hleaving : Leaving (g ::ₘ N) s pfx.eventId :=
    h.prefixes pfx (.inr ⟨g, Multiset.mem_cons_self g N, n, hcall⟩)
  have hl :
    Later none [] (g ::ₘ N) s ({ g with paged := (s.listObjects pfx cursor).rows } ::ₘ N) s :=
    (Stays.refl s).later (fun _ hpfx => hpfx) fun _ ha => .inr ha
  have hunder : key.under pfx = true := by
    have hlisted := Keyset.mem_of_listing hkey
    exact (List.mem_filter.mp hlisted).2
  rw [show key.eventId = pfx.eventId from (of_decide_eq_true hunder).2]
  exact hleaving.later hl

/-- The asset that a job reads is live, and the only one of its id. -/
theorem Whole.takes (h : Whole (g ::ₘ N) s) {assetId : ℕ} (hcall : assetOf g.call = some assetId)
    (hfiled : g.filed = []) : Whole (g.takes (s.getByIdUnscoped assetId) ::ₘ N) s := by
  have hl : Later none [] (g ::ₘ N) s (g.takes (s.getByIdUnscoped assetId) ::ₘ N) s :=
    (Stays.refl s).later (fun _ hpfx => hpfx) fun _ ha => .inr ha
  have hmem : g.takes (s.getByIdUnscoped assetId) ∈ g.takes (s.getByIdUnscoped assetId) ::ₘ N :=
    Multiset.mem_cons_self _ N
  have hread : ∀ found, s.getByIdUnscoped assetId = some found →
      found ∈ s.assets ∧ found.id = assetId ∧ found.deletedAt = none := by
    intro found hfound
    rw [MediaStore.getByIdUnscoped] at hfound
    have hmatch := List.find?_some hfound
    obtain ⟨hid, hlive⟩ := of_decide_eq_true hmatch
    exact ⟨List.mem_of_find?_eq_some hfound, hid, hlive⟩
  have hlive :
    ∀ row ∈ s.assets, row.deletedAt = none → row.id = assetId →
    s.getByIdUnscoped assetId = some row := by
    intro row hrow hnone hid
    cases hfound : s.getByIdUnscoped assetId with
    | none => exact absurd (decide_eq_true ⟨hid, hnone⟩) (List.find?_eq_none.mp hfound row hrow)
    | some found =>
      obtain ⟨hmem, hsame, -⟩ := hread found hfound
      rw [h.unique hmem hrow (hsame.trans hid.symm)]
  have hsound : g.Sound (g.takes (s.getByIdUnscoped assetId) ::ₘ N) s :=
    (h.calls g (Multiset.mem_cons_self g N)).later hl fun a hnone => by cases hnone
  refine h.advance (.inl rfl) hl ((Stays.refl s).shown h (fun _ ha => .inr ha)
    (fun item htask => .inl (tasked_step htask rfl fun _ => id)) fun row hrow hnone => ?_) ?_
  · -- a job that is idle has found no live row
    have hruns :
      ∀ item, (item = .assetProcess row.id ∨ item = .videoTranscode row.id ∧ row.type = .video) →
        g.Runs item → (g.takes (s.getByIdUnscoped assetId)).Runs item := by
      intro item hitem hrun
      obtain ⟨⟨n, hn⟩, -, hended⟩ := hrun
      refine ⟨⟨n, hn⟩, ?_, hended⟩
      have hid : row.id = assetId := by
        rw [hn] at hcall
        rcases hitem with rfl | ⟨rfl, -⟩ <;> exact Option.some.inj hcall
      change (s.getByIdUnscoped assetId).all (fun row => transcodes g.call ∧
        row.type ≠ .video) = false
      rw [hlive row hrow hnone hid]
      refine decide_eq_false fun hidle => ?_
      rcases hitem with rfl | ⟨-, hvideo⟩
      · rw [hn] at hidle
        cases hidle.1
      · exact hidle.2 hvideo
    refine (h.truthful row hrow hnone).mono rfl rfl rfl (fun haw => ?_) (fun hret => ?_)
      (fun hvideo hret => .inr ?_)
      fun _ => id
    · exact haw.step (fun _ => id) fun hdoes => .inr ⟨_, hmem, hdoes.imp_right (hruns _ (.inl rfl))⟩
    · exact hret.step (fun _ => id) (fun _ => id)
        (fun hdoes => .inl (.inr ⟨_, hmem, hdoes.imp_right (hruns _ (.inl rfl))⟩))
        fun hn hfail => .inr (.inr ⟨_, hmem, hn, hfail⟩)
    · exact hret.step (fun _ => id) (fun _ => id)
        (fun hdoes => .inl (.inr ⟨_, hmem, hdoes.imp_right (hruns _ (.inr ⟨rfl, hvideo⟩))⟩))
        fun hn hfail => .inr (.inr ⟨_, hmem, hn, hfail⟩)
  · refine { hsound with
      asset := fun held hheld => ?_
      filed := fun type htype => by
        change type ∈ g.filed at htype
        rw [hfiled] at htype
        cases htype }
    obtain ⟨found, hfound, rfl⟩ := Option.map_eq_some_iff.mp hheld
    obtain ⟨hrow, hid, -⟩ := hread found hfound
    refine ⟨hcall.trans (congrArg some hid.symm), (h.rows found hrow).1.later hl,
      fun row hrow' hsame => ?_⟩
    rw [h.unique hrow' hrow hsame]
    exact ⟨rfl, rfl⟩

theorem Whole.deletes (h : Whole (g ::ₘ N) s) {keys : List StorageKey}
    (hmay : ∀ key ∈ keys, g.MayDelete key) :
    Whole ({ g with held := g.held.filter (fun key => key ∉ keys) } ::ₘ N) (s.deleteKeys keys) := by
  have hg := Multiset.mem_cons_self g N
  have hcalls := h.calls g hg
  have hbefore : Later none [] (g ::ₘ N) s
      ({ g with held := g.held.filter (fun key => key ∉ keys) } ::ₘ N) s :=
    (Stays.refl s).later (fun _ hpfx => hpfx) fun _ ha => .inr ha
  have hexpendable : ∀ key, Expendable (g ::ₘ N) s key →
      Expendable ({ g with held := g.held.filter (fun key => key ∉ keys) } ::ₘ N) s key :=
    fun key hkey => hkey.later hbefore
  have hl : Later g.drawn [] (g ::ₘ N) s
      ({ g with held := g.held.filter (fun key => key ∉ keys) } ::ₘ N) (s.deleteKeys keys) :=
    { hbefore with
      owned := fun a ha => ⟨g, hg, ha⟩
      brings := fun row hrow => absurd hrow List.not_mem_nil
      bucket := fun key hkey => by
        by_cases hdeleted : key ∈ keys
        · refine .inr ?_
          rcases hmay key hdeleted with hdrawn | hpaged | ⟨n, all, hcall, hall⟩
          · exact .inr hdrawn
          · exact .inl (hexpendable key (hcalls.paged key hpaged))
          · exact .inl (hexpendable key (h.cleanups all (.inr ⟨g, hg, n, hcall⟩) key hall))
        · exact .inl (List.mem_filter.mpr ⟨hkey, decide_eq_true hdeleted⟩) }
  have hsound := hcalls.later hbefore fun a hnone => by cases hnone
  have hshown :
    Shown [] (g ::ₘ N) s ({ g with held := g.held.filter (fun key => key ∉ keys) } ::ₘ N) s :=
    (Stays.refl s).shown h (fun _ ha => .inr ha)
      (fun item htask => .inl (tasked_step htask rfl fun _ => id))
      fun row hrow hlive =>
        (h.truthful row hrow hlive).alike ⟨rfl, rfl, rfl, fun _ h => h⟩ rfl rfl rfl
        (fun _ => id) (fun _ => id) fun _ => id
  refine h.advance (.inr rfl) hl ?_ ?_
  · exact { hshown with
      brings := fun row hrow => absurd hrow List.not_mem_nil
      files := fun f hf => by
        obtain ⟨⟨row, hrow, hid, -⟩, -⟩ := h.files f hf
        exact .inl ⟨hf, row, hrow, hid⟩ }
  · refine { hsound with held := fun key hkey => ?_ }
    obtain ⟨hheld, hkept⟩ := List.mem_filter.mp hkey
    refine ⟨?_, (hsound.held key hheld).2⟩
    rcases (hsound.held key hheld).1 with hbucket | hexpendable
    · exact .inl (List.mem_filter.mpr ⟨hbucket, hkept⟩)
    · exact .inr hexpendable

/-- A row comes with its object, and with the job that is owed to it. -/
theorem Whole.creates (h : Whole (g ::ₘ N) s) (hdrawn : g.drawn = some row.id)
    (horiginal : Original row)
    (hheld : row.storageKey ∈ g.held) (hstatus : row.status = .stored)
    (hevent : s.hasEvent row.eventId = true) :
    Whole ({ g with drawn := none, owes := .assetProcess row.id :: g.owes } ::ₘ N)
    (s.insertAsset row) := by
  have hg := Multiset.mem_cons_self g N
  have hcalls := h.calls g hg
  have hl : Later g.drawn [row] (g ::ₘ N) s
      ({ g with drawn := none, owes := .assetProcess row.id :: g.owes } ::ₘ N)
        (s.insertAsset row) :=
    { next := le_rfl
      drawn := fun other hother a ha => by
        rcases Multiset.mem_cons.mp hother with rfl | hother
        · cases ha
        · exact .inr ⟨other, Multiset.mem_cons_of_mem hother, ha⟩
      owned := fun a ha => ⟨g, hg, ha⟩
      brings := fun other hother => by rw [List.mem_singleton.mp hother, hdrawn]
      rows := fun other hother => by
        rcases List.mem_append.mp hother with hold | hnew
        · exact .inr ⟨other, hold, rfl, rfl, id⟩
        · exact .inl hnew
      events := fun event hevent => hevent
      doomed := fun other hother pfx hpfx => by
        rcases Multiset.mem_cons.mp hother with rfl | hother
        · exact .inr ⟨_, Multiset.mem_cons_self _ N, pfx, hpfx, rfl⟩
        · exact .inr ⟨other, Multiset.mem_cons_of_mem hother, pfx, hpfx, rfl⟩
      files := fun f hf _ => hf
      bucket := fun key hkey => .inl hkey }
  have hsettled : Settled ({ g with drawn := none, owes := .assetProcess row.id :: g.owes } ::ₘ N)
      (s.insertAsset row) row.id := by
    refine ⟨hcalls.drawn _ hdrawn, fun other hother ha => ?_⟩
    rcases Multiset.mem_cons.mp hother with rfl | hother
    · cases ha
    · exact h.apart hother hdrawn ha
  have hkeeps : ∀ key, Kept (g ::ₘ N) s key →
      Kept ({ g with drawn := none, owes := .assetProcess row.id :: g.owes } ::ₘ N)
        (s.insertAsset row) key :=
    fun key hkept => hkept.imp id fun hexpendable => hexpendable.later hl
  have hsound := hcalls.knows hl fun key hkey => hkeeps key (hcalls.held key hkey).1
  have halike : Alike g { g with drawn := none, owes := .assetProcess row.id :: g.owes } :=
    ⟨rfl, rfl, rfl, fun _ howes => List.mem_cons_of_mem _ howes⟩
  refine h.advance (.inr rfl) hl ?_ ?_
  · exact
      { ids := by
          rw [MediaStore.insertAsset, List.map_append]
          refine h.ids.append (List.nodup_singleton _) fun id hid hnew => ?_
          obtain ⟨old, hold, rfl⟩ := List.mem_map.mp hid
          exact (h.rows old hold).1.2 g hg
            (hdrawn.trans (congrArg some (List.mem_singleton.mp hnew).symm))
        eventIds := h.eventIds
        homes := fun other hother => by
          rcases List.mem_append.mp hother with hold | hnew
          · exact (h.rows other hold).2.2
          · rw [List.mem_singleton.mp hnew]
            exact hevent
        brings := fun other hother => by
          rw [List.mem_singleton.mp hother]
          exact ⟨hsettled, horiginal, hkeeps _ (hcalls.held _ hheld).1⟩
        files := fun f hf => by
          obtain ⟨⟨old, hold, hid, -⟩, -⟩ := h.files f hf
          exact .inl ⟨hf, old, List.mem_append_left _ hold, hid⟩
        tasks := fun item htask => .inl (tasked_step htask rfl fun _ => id)
        truthful := fun other hother hlive => by
          rcases List.mem_append.mp hother with hold | hnew
          · exact (h.truthful other hold hlive).alike halike rfl rfl rfl (fun _ => id)
              (fun _ => id) fun _ => id
          · rw [List.mem_singleton.mp hnew, Truthful, hstatus]
            exact .inr ⟨_, Multiset.mem_cons_self _ N, .inl List.mem_cons_self⟩
        drawn := h.apart_after fun a ha => by cases ha }
  · refine { hsound with
      drawn := fun a ha => by cases ha
      held := fun key hkey => ⟨(hsound.held key hkey).1, fun a ha => .inl ?_⟩ }
    rcases (hsound.held key hkey).2 a ha with hold | hown
    · exact hold
    · rw [hdrawn] at hown
      cases hown
      exact hsettled

theorem Whole.queues (h : Whole (g ::ₘ N) s) {job : JobItem}
    (hkeys : ∀ keys, job = .cleanupKeys keys → ∀ key ∈ keys, key ∈ g.collected)
    (hseen : ∀ pfx, job = .cleanupPrefix pfx → pfx ∈ g.seen) : Whole (g.queues job ::ₘ N)
    (s.queue job) := by
  have hg := Multiset.mem_cons_self (g.queues job) N
  have hdoomed : ∀ pfx ∈ g.doomed, pfx ∈ (g.queues job).doomed := by
    intro pfx hpfx
    cases job with
    | cleanupPrefix p => exact List.mem_cons_of_mem _ hpfx
    | _ => exact hpfx
  have hstays : Stays s (s.queue job) := ⟨rfl, rfl, rfl, fun _ hkey => hkey, le_rfl⟩
  have hl : Later none [] (g ::ₘ N) s (g.queues job ::ₘ N) (s.queue job) :=
    hstays.later hdoomed fun _ ha => .inr ha
  have hsound := (h.calls g (Multiset.mem_cons_self g N)).later hl fun a hnone => by cases hnone
  have hjobs : ∀ item n, (n, item) ∈ s.jobs → (n, item) ∈ (s.queue job).jobs :=
    fun _ _ hjob => List.mem_append_left _ hjob
  have hqueued :
    ∀ item, item ∈ g.owes ∨ g.Runs item → Awaited (g.queues job ::ₘ N) (s.queue job) item := by
    intro item hdoes
    rcases hdoes with howes | hruns
    · by_cases hsame : item = job
      · exact .inl ⟨s.nextJob, List.mem_append_right _ (List.mem_singleton.mpr (congrArg _ hsame))⟩
      · exact .inr ⟨_, hg, .inl (List.mem_filter.mpr ⟨howes, decide_eq_true hsame⟩)⟩
    · exact .inr ⟨_, hg, .inr hruns⟩
  have hretains :
    ∀ item, Retained (g ::ₘ N) s item → Retained (g.queues job ::ₘ N) (s.queue job) item :=
    fun item hret => hret.step (hjobs item) (fun _ => id) (fun hdoes => .inl (hqueued item hdoes))
      fun hn hfail => .inr (.inr ⟨_, hg, hn, hfail⟩)
  refine h.advance (.inl rfl) hl (hstays.shown h (fun _ ha => .inr ha) (fun item htask => ?_)
    fun row hrow hlive => ?_) ?_
  · rcases htask with ⟨n, hjob⟩ | ⟨other, hother, n, hn⟩
    · rcases List.mem_append.mp hjob with hjob | hfailed
      · rcases List.mem_append.mp hjob with hold | hnew
        · exact .inl (.inl ⟨n, List.mem_append_left _ hold⟩)
        · obtain ⟨-, rfl⟩ := Prod.mk.inj (List.mem_singleton.mp hnew)
          refine .inr ⟨fun keys hitem key hkey => hsound.collected key (hkeys keys hitem key hkey),
            fun pfx hitem => ?_⟩
          subst hitem
          exact .inr ⟨_, hg, pfx, List.mem_cons_self, rfl⟩
      · exact .inl (.inl ⟨n, List.mem_append_right _ hfailed⟩)
    · refine .inl (.inr ?_)
      rcases Multiset.mem_cons.mp hother with rfl | hother
      · exact ⟨g, Multiset.mem_cons_self g N, n, hn⟩
      · exact ⟨other, Multiset.mem_cons_of_mem hother, n, hn⟩
  · exact (h.truthful row hrow hlive).mono rfl rfl rfl (fun haw => haw.step (hjobs _) (hqueued _))
      (hretains _)
      (fun _ hret => .inr (hretains _ hret)) fun _ => id
  · refine { hsound with doomed := fun pfx hpfx => ?_ }
    cases job with
    | cleanupPrefix p =>
      rcases List.mem_cons.mp hpfx with rfl | hold
      · exact hseen pfx rfl
      · exact hsound.doomed pfx hold
    | _ => exact hsound.doomed pfx hpfx

/-- The row of a derivative that was put, in place of one that says the same. -/
theorem Whole.upserts (h : Whole (g ::ₘ N) s) {held : AssetIdentity × Import.AssetType}
    {type : AssetFileType}
    (hasset : g.asset = some held) (hheld : (derivative held.1 type).storageKey ∈ g.held)
    (hthere : s.hasAsset held.1.id = true) :
    Whole ({ g with filed := type :: g.filed } ::ₘ N) (s.upsertFile (derivative held.1 type)) := by
  have hcalls := h.calls g (Multiset.mem_cons_self g N)
  obtain ⟨row, hrow, hid⟩ := List.any_eq_true.mp hthere
  have hrows := (hcalls.asset held hasset).2.2
  have hnew : derivative held.1 type ∈ (s.upsertFile (derivative held.1 type)).files :=
    List.mem_append_right _ (List.mem_singleton_self _)
  have hfiles : ∀ f ∈ s.files, f ∈ (s.upsertFile (derivative held.1 type)).files := by
    intro f hf
    by_cases hsame :
      f.assetId = (derivative held.1 type).assetId ∧ f.type = (derivative held.1 type).type
    · obtain ⟨⟨other, hother, hotherId, hderived⟩, -⟩ := h.files f hf
      have hident := (hrows other hother (hotherId.trans hsame.1)).1
      have htype : f.type = type := hsame.2
      rw [hderived, hident, htype]
      exact hnew
    · exact List.mem_append_left _ (List.mem_filter.mpr ⟨hf, decide_eq_true hsame⟩)
  have hbefore : Later none [] (g ::ₘ N) s ({ g with filed := type :: g.filed } ::ₘ N) s :=
    (Stays.refl s).later (fun _ hpfx => hpfx) fun _ ha => .inr ha
  have hl : Later none [] (g ::ₘ N) s ({ g with filed := type :: g.filed } ::ₘ N)
      (s.upsertFile (derivative held.1 type)) :=
    { hbefore with
      files := fun f hf _ => hfiles f hf }
  have hsound := hcalls.later hl fun a hnone => by cases hnone
  refine h.advance (.inl rfl) hl ?_ ?_
  · exact
      { ids := h.ids
        eventIds := h.eventIds
        homes := fun other hother => (h.rows other hother).2.2
        brings := fun other hother => absurd hother List.not_mem_nil
        files := fun f hf => by
          rcases List.mem_append.mp hf with hold | hadded
          · have hf := (List.mem_filter.mp hold).1
            obtain ⟨⟨other, hother, hotherId, -⟩, -⟩ := h.files f hf
            exact .inl ⟨hf, other, hother, hotherId⟩
          · obtain rfl := List.mem_singleton.mp hadded
            have hident := (hrows row hrow (of_decide_eq_true hid)).1
            exact .inr ⟨⟨row, hrow, of_decide_eq_true hid, by
              rw [hident]; rfl⟩, (hsound.held _ hheld).1⟩
        tasks := fun item htask => .inl (tasked_step htask rfl fun _ => id)
        truthful :=
          fun other hother hlive =>
          (h.truthful other hother hlive).alike ⟨rfl, rfl, rfl, fun _ h => h⟩
          rfl rfl rfl (fun _ => id) (fun _ => id) fun _ => hfiles _
        drawn := h.apart_after fun _ ha => .inr ha }
  · refine { hsound with filed := fun other hother => ?_ }
    rcases List.mem_cons.mp hother with rfl | hold
    · exact ⟨held, hasset, fun _ _ _ => hnew⟩
    · exact hsound.filed other hold

/-- A call sets the status of an asset, and what the status says is so; a job
sets it of its own asset. -/
theorem Whole.sets (h : Whole (g ::ₘ N) s) {assetId : ℕ} {status : AssetStatus}
    (ended : Option AssetStatus) (owes : List JobItem)
    (hcall : ∀ n item, g.call = .job n item → item = .assetProcess assetId)
    (howes : ∀ item ∈ g.owes, item ∈ owes)
    (hstatus : ∀ row ∈ s.assets, row.id = assetId →
      Truthful ({ g with ended := ended, owes := owes } ::ₘ N) (s.setStatus assetId status)
        { row with status := status }) :
    Whole ({ g with ended := ended, owes := owes } ::ₘ N) (s.setStatus assetId status) := by
  have hg := Multiset.mem_cons_self ({ g with ended := ended, owes := owes } : Work) N
  have hold : ∀ row' ∈ (s.setStatus assetId status).assets, ∃ row ∈ s.assets,
      row' = if row.id = assetId then { row with status := status } else row := by
    intro row' hrow'
    obtain ⟨row, hrow, rfl⟩ := List.mem_map.mp hrow'
    refine ⟨row, hrow, ?_⟩
    simp only [decide_eq_true_eq]
  have hids :
    (s.setStatus assetId status).assets.map (fun row => row.id) =
    s.assets.map (fun row => row.id) := by
    rw [MediaStore.setStatus, MediaStore.updateAssets, List.map_map]
    refine List.map_congr_left fun row _ => ?_
    simp only [Function.comp_apply]
    split <;> rfl
  have hbefore : Later none [] (g ::ₘ N) s ({ g with ended := ended, owes := owes } ::ₘ N) s :=
    (Stays.refl s).later (fun _ hpfx => hpfx) fun _ ha => .inr ha
  have hl : Later none [] (g ::ₘ N) s ({ g with ended := ended, owes := owes } ::ₘ N)
      (s.setStatus assetId status) :=
    { hbefore with
      rows := fun row' hrow' => by
        obtain ⟨row, hrow, rfl⟩ := hold row' hrow'
        refine .inr ⟨row, hrow, ?_⟩
        split <;> exact ⟨rfl, rfl, id⟩
      files := fun f hf _ => hf
      bucket := fun key hkey => .inl hkey }
  have hsound := (h.calls g (Multiset.mem_cons_self g N)).later hl fun a hnone => by cases hnone
  refine h.advance (.inl rfl) hl ?_ { hsound with }
  exact
    { ids := by rw [hids]; exact h.ids
      eventIds := h.eventIds
      homes := fun row' hrow' => by
        obtain ⟨row, hrow, rfl⟩ := hold row' hrow'
        split <;> exact (h.rows row hrow).2.2
      brings := fun row hrow => absurd hrow List.not_mem_nil
      files := fun f hf => by
        obtain ⟨⟨row, hrow, hid, -⟩, -⟩ := h.files f hf
        have hmem : f.assetId ∈ (s.setStatus assetId status).assets.map (fun row => row.id) := by
          rw [hids]
          exact List.mem_map.mpr ⟨row, hrow, hid⟩
        obtain ⟨row', hrow', hid'⟩ := List.mem_map.mp hmem
        exact .inl ⟨hf, row', hrow', hid'⟩
      tasks := fun item htask => .inl (tasked_step htask rfl fun _ => id)
      truthful := fun row' hrow' hlive => by
        obtain ⟨row, hrow, rfl⟩ := hold row' hrow'
        split
        · rename_i hid
          exact hstatus row hrow hid
        · rename_i hid
          rw [if_neg hid] at hlive
          -- the job is that of another asset
          have hother : ∀ item, (item = .assetProcess row.id ∨ item = .videoTranscode row.id) →
              ∀ k, g.call ≠ .job k item := by
            intro item hitem k hk
            have hown := hcall k item hk
            rcases hitem with rfl | rfl
            · exact hid (JobItem.assetProcess.inj hown)
            · cases hown
          have hdoes : ∀ item, (item = .assetProcess row.id ∨ item = .videoTranscode row.id) →
              item ∈ g.owes ∨ g.Runs item →
              Awaited ({ g with ended := ended, owes := owes } ::ₘ N)
                (s.setStatus assetId status) item := by
            intro item hitem hdoes
            rcases hdoes with howed | ⟨⟨k, hk⟩, -⟩
            · exact .inr ⟨_, hg, .inl (howes item howed)⟩
            · exact absurd hk (hother item hitem k)
          have hretains : ∀ item, (item = .assetProcess row.id ∨ item = .videoTranscode row.id) →
              Retained (g ::ₘ N) s item →
              Retained ({ g with ended := ended, owes := owes } ::ₘ N)
                (s.setStatus assetId status) item :=
            fun item hitem hret =>
              hret.step (fun _ => id) (fun _ => id) (fun hd => .inl (hdoes item hitem hd))
              fun hn _ => absurd hn.choose_spec (hother item hitem _)
          exact (h.truthful row hrow hlive).mono rfl rfl rfl
            (fun haw => haw.step (fun _ => id) (hdoes _ (.inl rfl))) (hretains _ (.inl rfl))
            (fun _ hret => .inr (hretains _ (.inr rfl) hret)) fun _ => id
      drawn := h.apart_after fun _ ha => .inr ha }

/-- What is listed for deletion is dead. -/
theorem Work.Sound.lists {M : Multiset Work} (h : g.Sound M s) {rows : List AssetRow}
    (hrows : ∀ row ∈ rows, Original row ∧ Dead M s row.id) : (g.lists rows).Sound M s :=
  { h with
    listed := fun a ha => by
      obtain ⟨row, hrow, rfl⟩ := List.mem_map.mp ha
      exact (hrows row hrow).2
    collected := fun key hkey => .inr fun a ha => by
      obtain ⟨row, hrow, rfl⟩ := List.mem_map.mp hkey
      obtain ⟨horiginal, hdead⟩ := hrows row hrow
      rw [original_assetId horiginal] at ha
      cases ha
      exact hdead }

theorem Whole.lists (h : Whole (g ::ₘ N) s) {rows : List AssetRow}
    (hrows : ∀ row ∈ rows, row ∈ s.assets ∧
    row.deletedAt ≠ none) : Whole (g.lists rows ::ₘ N) s := by
  have hl : Later none [] (g ::ₘ N) s (g.lists rows ::ₘ N) s :=
    (Stays.refl s).later (fun _ hpfx => hpfx) fun _ ha => .inr ha
  refine h.aside (Same.refl s) ⟨rfl, rfl, rfl, fun _ h => h⟩ rfl (fun _ ha => .inr ha) fun hsound =>
    ?_
  refine hsound.lists fun row hrow => ?_
  obtain ⟨hmem, hdeleted⟩ := hrows row hrow
  obtain ⟨hsettled, horiginal, -⟩ := h.rows row hmem
  refine ⟨horiginal, hsettled.later hl, fun other hother hid => ?_⟩
  rw [h.unique hother hmem hid]
  exact hdeleted

/-- Live assets die, and are listed. -/
theorem Whole.dies (h : Whole (g ::ₘ N) s) (eventId : ℕ) (ids : List ℕ) :
    Whole (g.lists (s.softDeleteMany eventId ids).1 ::ₘ N) (s.softDeleteMany eventId ids).2 := by
  have hold : ∀ row' ∈ (s.softDeleteMany eventId ids).2.assets, ∃ row ∈ s.assets,
      row' = if MediaStore.deletes eventId ids row then
        { row with deletedAt := some s.clock } else row := by
    intro row' hrow'
    obtain ⟨row, hrow, rfl⟩ := List.mem_map.mp hrow'
    exact ⟨row, hrow, rfl⟩
  have hids :
    (s.softDeleteMany eventId ids).2.assets.map (fun row => row.id) =
    s.assets.map (fun row => row.id) := by
    rw [MediaStore.softDeleteMany, MediaStore.updateAssets, List.map_map]
    refine List.map_congr_left fun row _ => ?_
    simp only [Function.comp_apply]
    split <;> rfl
  have hbefore : Later none [] (g ::ₘ N) s (g.lists (s.softDeleteMany eventId ids).1 ::ₘ N) s :=
    (Stays.refl s).later (fun _ hpfx => hpfx) fun _ ha => .inr ha
  have hl : Later none [] (g ::ₘ N) s (g.lists (s.softDeleteMany eventId ids).1 ::ₘ N)
      (s.softDeleteMany eventId ids).2 :=
    { hbefore with
      rows := fun row' hrow' => by
        obtain ⟨row, hrow, rfl⟩ := hold row' hrow'
        refine .inr ⟨row, hrow, ?_⟩
        split
        · exact ⟨rfl, rfl, fun _ => Option.some_ne_none _⟩
        · exact ⟨rfl, rfl, id⟩
      files := fun f hf _ => hf
      bucket := fun key hkey => .inl hkey }
  have hsound := (h.calls g (Multiset.mem_cons_self g N)).later hl fun a hnone => by cases hnone
  refine h.advance (.inl rfl) hl ?_ (hsound.lists fun row hrow => ?_)
  · exact
      { ids := by rw [hids]; exact h.ids
        eventIds := h.eventIds
        homes := fun row' hrow' => by
          obtain ⟨row, hrow, rfl⟩ := hold row' hrow'
          split <;> exact (h.rows row hrow).2.2
        brings := fun row hrow => absurd hrow List.not_mem_nil
        files := fun f hf => by
          obtain ⟨⟨row, hrow, hid, -⟩, -⟩ := h.files f hf
          have hmem :
            f.assetId ∈ (s.softDeleteMany eventId ids).2.assets.map (fun row => row.id) := by
            rw [hids]
            exact List.mem_map.mpr ⟨row, hrow, hid⟩
          obtain ⟨row', hrow', hid'⟩ := List.mem_map.mp hmem
          exact .inl ⟨hf, row', hrow', hid'⟩
        tasks := fun item htask => .inl (tasked_step htask rfl fun _ => id)
        truthful := fun row' hrow' hlive => by
          obtain ⟨row, hrow, rfl⟩ := hold row' hrow'
          split at hlive
          · cases hlive
          · rename_i hspared
            rw [if_neg hspared]
            exact (h.truthful row hrow hlive).alike ⟨rfl, rfl, rfl,
              fun _ h => h⟩ rfl rfl rfl (fun _ => id)
              (fun _ => id) fun _ => id
        drawn := h.apart_after fun _ ha => .inr ha }
  · obtain ⟨live, hlive, rfl⟩ := List.mem_map.mp hrow
    obtain ⟨hmem, hdeletes⟩ := List.mem_filter.mp hlive
    obtain ⟨hsettled, horiginal, -⟩ := h.rows live hmem
    refine ⟨horiginal, hsettled.later hl, fun row' hrow' hid => ?_⟩
    obtain ⟨other, hother, rfl⟩ := hold row' hrow'
    have hsame : other = live := by
      refine h.unique hother hmem (Eq.trans ?_ hid)
      split <;> rfl
    rw [hsame, if_pos hdeletes]
    exact Option.some_ne_none _

/-- The files of a dead asset. -/
theorem Whole.gathers (h : Whole (g ::ₘ N) s) {assetId : ℕ} (hlisted : assetId ∈ g.listed) :
    Whole ({ g with collected :=
    g.collected ++ (s.getFiles assetId).map FileRow.storageKey } ::ₘ N) s := by
  refine h.aside (Same.refl s) ⟨rfl, rfl, rfl, fun _ h => h⟩ rfl (fun _ ha => .inr ha) fun hsound =>
    ?_
  refine { hsound with collected := fun key hkey => ?_ }
  rcases List.mem_append.mp hkey with hold | hnew
  · exact hsound.collected key hold
  · obtain ⟨f, hf, rfl⟩ := List.mem_map.mp hnew
    obtain ⟨hmem, hid⟩ := List.mem_filter.mp hf
    refine .inr fun a ha => ?_
    rw [(h.file_assetId hmem).1, of_decide_eq_true hid] at ha
    cases ha
    exact hsound.listed assetId hlisted

/-- Rows go, with their files; events go, with all their rows. -/
theorem Whole.drops (h : Whole (g ::ₘ N) s) (keep : AssetRow → Bool) (ids : List ℕ)
    (doomed : List EventPrefix)
    (hsub : ∀ pfx ∈ doomed, pfx ∈ g.doomed) (hdoomed : ∀ pfx ∈ g.doomed, pfx ∈ doomed ∨
      MediaStore.hasEvent { s with events := s.events.filter (fun event => event.id ∉ ids) }
        pfx.eventId = false)
    (hkeep : ∀ row, keep row = true → row.eventId ∉ ids)
    (hassets : s'.assets = s.assets.filter keep)
    (hfiles : s'.files = s.files.filter (fun f => (s.assets.filter keep).any
      (fun a => a.id = f.assetId)))
    (hevents : s'.events = s.events.filter (fun event => event.id ∉ ids))
    (hrest : s'.bucket = s.bucket ∧ s'.jobs = s.jobs ∧
      s'.failed = s.failed ∧ s'.nextUuid = s.nextUuid) :
    Whole ({ g with doomed := doomed } ::ₘ N) s' := by
  obtain ⟨hbucket, hjobs, hfailed, hnext⟩ := hrest
  have hrow : ∀ row ∈ s'.assets, row ∈ s.assets ∧ keep row = true := by
    intro row hrow
    rw [hassets] at hrow
    exact List.mem_filter.mp hrow
  have hstays : ∀ f ∈ s.files, (∃ row ∈ s'.assets, row.id = f.assetId) → f ∈ s'.files := by
    intro f hf hthere
    obtain ⟨row, hmem, hid⟩ := hthere
    rw [hfiles]
    refine List.mem_filter.mpr ⟨hf, List.any_eq_true.mpr ⟨row, hassets ▸ hmem, decide_eq_true hid⟩⟩
  have hl : Later none [] (g ::ₘ N) s ({ g with doomed := doomed } ::ₘ N) s' :=
    { next := hnext.ge
      drawn := fun other hother a ha => by
        rcases Multiset.mem_cons.mp hother with rfl | hother
        · exact .inr ⟨g, Multiset.mem_cons_self g N, ha⟩
        · exact .inr ⟨other, Multiset.mem_cons_of_mem hother, ha⟩
      owned := fun a ha => by cases ha
      brings := fun row hrow => absurd hrow List.not_mem_nil
      rows := fun row hmem => .inr ⟨row, (hrow row hmem).1, rfl, rfl, id⟩
      events := fun event hevent => by
        rw [hevents] at hevent
        exact (List.mem_filter.mp hevent).1
      doomed := fun other hother pfx hpfx => by
        rcases Multiset.mem_cons.mp hother with rfl | hother
        · rcases hdoomed pfx hpfx with hstill | hgone
          · exact .inr ⟨_, Multiset.mem_cons_self _ N, pfx, hstill, rfl⟩
          · refine .inl ?_
            rw [MediaStore.hasEvent, hevents]
            exact hgone
        · exact .inr ⟨other, Multiset.mem_cons_of_mem hother, pfx, hpfx, rfl⟩
      files := hstays
      bucket := fun key hkey => .inl (hbucket ▸ hkey) }
  have hsound := (h.calls g (Multiset.mem_cons_self g N)).later hl fun a hnone => by cases hnone
  refine h.advance (.inl rfl) hl ?_
    { hsound with doomed := fun pfx hpfx => hsound.doomed pfx (hsub pfx hpfx) }
  exact
    { ids := by
        rw [hassets]
        exact h.ids.sublist (List.filter_sublist.map _)
      eventIds := by
        rw [hevents]
        exact h.eventIds.sublist (List.filter_sublist.map _)
      homes := fun row hmem => by
        obtain ⟨hmem, hkept⟩ := hrow row hmem
        obtain ⟨event, hevent, hid⟩ := List.any_eq_true.mp (h.rows row hmem).2.2
        rw [MediaStore.hasEvent, hevents]
        refine List.any_eq_true.mpr ⟨event, List.mem_filter.mpr ⟨hevent, decide_eq_true ?_⟩, hid⟩
        rw [of_decide_eq_true hid]
        exact hkeep row hkept
      brings := fun row hrow => absurd hrow List.not_mem_nil
      files := fun f hf => by
        rw [hfiles] at hf
        obtain ⟨hf, hany⟩ := List.mem_filter.mp hf
        obtain ⟨row, hmem, hid⟩ := List.any_eq_true.mp hany
        exact .inl ⟨hf, row, hassets.symm ▸ hmem, of_decide_eq_true hid⟩
      tasks := fun item htask =>
        .inl (tasked_step htask rfl fun n hjob => by rwa [hjobs, hfailed] at hjob)
      truthful := fun row hmem hlive => by
        refine (h.truthful row (hrow row hmem).1 hlive).alike ⟨rfl, rfl, rfl,
          fun _ h => h⟩ rfl rfl rfl
          (fun job hjob => hjobs.symm ▸ hjob)
            (fun job hjob => hfailed.symm ▸ hjob) fun type hfile => ?_
        exact hstays _ hfile ⟨row, hmem, rfl⟩
      drawn := h.apart_after fun _ ha => .inr ha }

/-- A statement that changes no table of photos. -/
theorem Whole.stated (h : Whole (g ::ₘ N) s) {after : Except MediaError MediaStore}
    (hafter : ∀ s', after = .ok s' → Same s s') : Whole (g ::ₘ N) (Media.stated after s).2 := by
  cases after with
  | error e => exact h
  | ok s' => exact h.quiet (hafter s' rfl)

theorem onAsset_ok {assetId : ℕ} {e : MediaError} {after : MediaStore}
    (h : s.onAsset assetId e after = .ok s') : s.hasAsset assetId = true ∧ s' = after := by
  rw [MediaStore.onAsset] at h
  split at h
  · rename_i hthere
    cases h
    exact ⟨hthere, rfl⟩
  · cases h

theorem own_job {n assetId : ℕ} (hcall : g.call = .job n (.assetProcess assetId)) (k : ℕ)
    (item : JobItem) (hjob : g.call = .job k item) : item = .assetProcess assetId :=
  (MediaCall.job.inj (hjob.symm.trans hcall)).2

theorem Whole.processed (h : Whole (g ::ₘ N) s) {n assetId : ℕ}
    {held : AssetIdentity × Import.AssetType}
    (hcall : g.call = .job n (.assetProcess assetId)) (hasset : g.asset = some held)
    (hid : held.1.id = assetId)
    (howes : g.owes = []) (hpreview : .preview ∈ g.filed) (hthumbnail : .thumbnail ∈ g.filed) :
    Whole ({ g with ended := some .processed, owes := followUps assetId held.2 } ::ₘ N)
      (s.setStatus assetId .processed) := by
  have hcalls := h.calls g (Multiset.mem_cons_self g N)
  refine h.sets _ _ (own_job hcall) (fun item howed => ?_) fun row hrow hrowId => ?_
  · rw [howes] at howed
    cases howed
  · obtain ⟨hident, htype⟩ := (hcalls.asset held hasset).2.2 row hrow (hrowId.trans hid.symm)
    have hfiled : ∀ type ∈ g.filed, derivative row.toAssetIdentity type ∈ s.files := by
      intro type hmem
      obtain ⟨other, hother, hfiles⟩ := hcalls.filed type hmem
      cases hasset.symm.trans hother
      rw [hident]
      exact hfiles row hrow (hrowId.trans hid.symm)
    refine ⟨hfiled _ hpreview, hfiled _ hthumbnail, fun hvideo => .inr (.inl (.inr ?_))⟩
    refine ⟨_, Multiset.mem_cons_self _ N, .inl ?_⟩
    have hfollows : held.2 = .video := htype.symm.trans hvideo
    change JobItem.videoTranscode row.id ∈ followUps assetId held.2
    rw [followUps, if_pos hfollows, hrowId]
    exact List.mem_append_right _ (List.mem_singleton_self _)

theorem Whole.failed (h : Whole (g ::ₘ N) s) {n assetId : ℕ}
    (hcall : g.call = .job n (.assetProcess assetId)) :
    Whole ({ g with ended := some .failed } ::ₘ N) (s.setStatus assetId .failed) := by
  refine h.sets _ g.owes (own_job hcall) (fun _ howed => howed) fun row _ hid => ?_
  refine .inr (.inr ⟨_, Multiset.mem_cons_self _ N, ⟨n, ?_⟩, rfl⟩)
  change g.call = .job n (.assetProcess row.id)
  rw [hcall, hid]

/-- A photo that is to be processed again is owed its job. -/
theorem Whole.rewinds (h : Whole (g ::ₘ N) s) {eventId assetId : ℕ}
    (hcall : g.call = .runJob eventId assetId) :
    Whole ({ g with owes := .assetProcess assetId :: g.owes } ::ₘ N)
    (s.setStatus assetId .stored) := by
  refine h.sets g.ended _ (fun n item hjob => ?_) (fun _ howed => List.mem_cons_of_mem _ howed)
    fun row _ hid => ?_
  · rw [hcall] at hjob
    cases hjob
  · refine .inr ⟨_, Multiset.mem_cons_self _ N, .inl ?_⟩
    rw [hid]
    exact List.mem_cons_self ..

/-- A row comes with its object, or does not come. -/
theorem Whole.creating (h : Whole (g ::ₘ N) s) {row : AssetRow}
    (r : MediaRes (.create row))
    (hpermit : g.Permits (.create row)) :
    Whole (g.note ⟨.create row, (mediaHandler (.create row) r s).1⟩ ::ₘ N)
      (mediaHandler (.create row) r s).2 := by
  obtain ⟨hdrawn, horiginal, hheld, hstatus⟩ := hpermit
  change Whole (g.note ⟨.create row, (Media.stated (s.create row) s).1⟩ ::ₘ N)
    (Media.stated (s.create row) s).2
  cases hcreate : s.create row with
  | error e => exact h
  | ok s' =>
    rw [MediaStore.create] at hcreate
    split at hcreate
    · cases hcreate
    · split at hcreate
      · rename_i hevent
        cases hcreate
        exact h.creates hdrawn horiginal hheld hstatus hevent
      · cases hcreate

theorem Whole.filing (h : Whole (g ::ₘ N) s) {file : FileRow}
    (r : MediaRes (.upsertFile file))
    (hpermit : g.Permits (.upsertFile file)) :
    Whole (g.note ⟨.upsertFile file, (mediaHandler (.upsertFile file) r s).1⟩ ::ₘ N)
      (mediaHandler (.upsertFile file) r s).2 := by
  obtain ⟨held, hasset, type, rfl, hheld⟩ := hpermit
  change Whole (g.note ⟨.upsertFile (derivative held.1 type), (Media.stated _ s).1⟩ ::ₘ N)
    (Media.stated _ s).2
  cases hfile : s.onAsset (derivative held.1 type).assetId foreignKey
      (s.upsertFile (derivative held.1 type)) with
  | error e => exact h
  | ok s' =>
    obtain ⟨hthere, rfl⟩ := onAsset_ok hfile
    exact h.upserts hasset hheld hthere

theorem Whole.processing (h : Whole (g ::ₘ N) s) {assetId : ℕ}
    (r : MediaRes (.updateProcessed assetId))
    (hpermit : g.Permits (.updateProcessed assetId)) :
    Whole (g.note ⟨.updateProcessed assetId, (mediaHandler (.updateProcessed assetId) r s).1⟩ ::ₘ N)
      (mediaHandler (.updateProcessed assetId) r s).2 := by
  obtain ⟨⟨n, hcall⟩, ⟨held, hasset, hid⟩, howes, hpreview, hthumbnail⟩ := hpermit
  change Whole (g.note ⟨.updateProcessed assetId, (Media.stated _ s).1⟩ ::ₘ N) (Media.stated _ s).2
  cases hprocessed : s.onAsset assetId noResult (s.setStatus assetId .processed) with
  | error e => exact h
  | ok s' =>
    obtain ⟨-, rfl⟩ := onAsset_ok hprocessed
    have hnote : g.note ⟨.updateProcessed assetId, .ok ()⟩ =
        { g with ended := some .processed, owes := followUps assetId held.2 } := by
      simp [Work.note, hasset]
    change Whole (g.note ⟨.updateProcessed assetId, .ok ()⟩ ::ₘ N) _
    rw [hnote]
    exact h.processed hcall hasset hid howes hpreview hthumbnail

theorem Whole.listsFiles (h : Whole (g ::ₘ N) s) (assetId : ℕ)
    (r : MediaRes (.getFiles assetId)) :
    Whole (g.note ⟨.getFiles assetId, (mediaHandler (.getFiles assetId) r s).1⟩ ::ₘ N)
      (mediaHandler (.getFiles assetId) r s).2 := by
  by_cases hlisted : assetId ∈ g.listed
  · have hnote : g.note ⟨.getFiles assetId, s.getFiles assetId⟩ =
        { g with collected := g.collected ++ (s.getFiles assetId).map FileRow.storageKey } :=
          if_pos hlisted
    change Whole (g.note ⟨.getFiles assetId, s.getFiles assetId⟩ ::ₘ N) s
    rw [hnote]
    exact h.gathers hlisted
  · have hnote : g.note ⟨.getFiles assetId, s.getFiles assetId⟩ = g := if_neg hlisted
    change Whole (g.note ⟨.getFiles assetId, s.getFiles assetId⟩ ::ₘ N) s
    rw [hnote]
    exact h

theorem Whole.upsertsParticipant (h : Whole (g ::ₘ N) s) (dto : ParticipantUpsert)
    (r : MediaRes (.upsertParticipant dto)) :
    Whole (g.note ⟨.upsertParticipant dto, (mediaHandler (.upsertParticipant dto) r s).1⟩ ::ₘ N)
      (mediaHandler (.upsertParticipant dto) r s).2 := by
  have hsame : Same s (mediaHandler (.upsertParticipant dto) r s).2 := by
    simp only [mediaHandler, MediaStore.upsertParticipant]
    cases s.participants.find? (fun g => g.eventId = dto.eventId ∧
      g.email.toLower = dto.email.toLower ∧
        g.deletedAt = none) with
    | some found => exact ⟨⟨rfl, rfl, rfl, fun _ hkey => hkey, le_rfl⟩, rfl, rfl⟩
    | none =>
      by_cases hevent : s.hasEvent dto.eventId = true
      · simp only [hevent, if_true]
        exact ⟨⟨rfl, rfl, rfl, fun _ hkey => hkey, Nat.le_succ _⟩, rfl, rfl⟩
      · simp only [hevent]
        exact .refl s
  exact h.quiet hsame

/-- The event goes with its rows, or is gone already. -/
theorem Whole.hardDeletes (h : Whole (g ::ₘ N) s) (orgId eventId : ℕ)
    (r : MediaRes (.hardDelete orgId eventId)) :
    Whole (g.note ⟨.hardDelete orgId eventId,
    (mediaHandler (.hardDelete orgId eventId) r s).1⟩ ::ₘ N)
      (mediaHandler (.hardDelete orgId eventId) r s).2 := by
  have hcalls := h.calls g (Multiset.mem_cons_self g N)
  change Whole ({ g with
    doomed := g.doomed.filter (fun pfx => pfx ≠ StorageKeys.eventPrefix orgId eventId) } ::ₘ N)
    (s.hardDelete orgId eventId)
  rw [MediaStore.hardDelete]
  split
  · refine h.drops (fun row => row.eventId ∉ [eventId]) [eventId] _
      (fun _ hpfx => (List.mem_filter.mp hpfx).1) (fun pfx hpfx => ?_)
        (fun _ hkept => of_decide_eq_true hkept)
      rfl rfl rfl ⟨rfl, rfl, rfl, rfl⟩
    by_cases hdropped : pfx = StorageKeys.eventPrefix orgId eventId
    · refine .inr (hasEvent_eq_false.mpr fun event hevent hid => ?_)
      refine of_decide_eq_true (List.mem_filter.mp hevent).2 (List.mem_singleton.mpr ?_)
      rw [hid, hdropped]
      rfl
    · exact .inl (List.mem_filter.mpr ⟨hpfx, decide_eq_true hdropped⟩)
  · -- the event is gone already
    rename_i hnone
    have hgone : ∀ event ∈ s.events, event.id = eventId → event.orgId ≠ orgId := by
      intro event hevent hid horg
      exact hnone (List.any_eq_true.mpr ⟨event, hevent, decide_eq_true ⟨hid, horg⟩⟩)
    have hall : s.events.filter (fun event => event.id ∉ ([] : List ℕ)) = s.events := by simp
    have hassets : s.assets.filter (fun _ => true) = s.assets := List.filter_true s.assets
    refine h.drops (fun _ => true) [] _ (fun _ hpfx => (List.mem_filter.mp hpfx).1)
      (fun pfx hpfx => ?_)
        (fun _ _ => List.not_mem_nil) hassets.symm ?_ hall.symm ⟨rfl, rfl, rfl, rfl⟩
    · by_cases hdropped : pfx = StorageKeys.eventPrefix orgId eventId
      · refine .inr ?_
        rw [hall]
        refine hasEvent_eq_false.mpr fun event hevent hid => ?_
        rw [hdropped] at hid hpfx
        exact hgone event hevent hid (hcalls.seen _ (hcalls.doomed _ hpfx) event hevent hid)
      · exact .inl (List.mem_filter.mpr ⟨hpfx, decide_eq_true hdropped⟩)
    · refine (List.filter_eq_self.mpr fun f hf => ?_).symm
      obtain ⟨⟨row, hrow, hid, -⟩, -⟩ := h.files f hf
      exact List.any_eq_true.mpr ⟨row, hassets.symm ▸ hrow, decide_eq_true hid⟩

theorem Whole.performs {o : MediaOp} (r : MediaRes o) (h : Whole (g ::ₘ N) s)
    (hpermit : g.Permits o) :
    answered ⟨o, (mediaHandler o r s).1⟩ ∧
      Whole (g.note ⟨o, (mediaHandler o r s).1⟩ ::ₘ N) (mediaHandler o r s).2 := by
  cases o with
  | getEvent eventId =>
    constructor
    · intro event hevent
      have hmatch := List.find?_some hevent
      exact (of_decide_eq_true hmatch).1
    · refine h.sees fun event hevent => ?_
      exact List.mem_of_find?_eq_some (Option.mem_toList.mp hevent)
  | getActiveEvent slug =>
    refine ⟨trivial, ?_⟩
    have hsame : (mediaHandler (.getActiveEvent slug) r s).2 = s := by
      simp only [mediaHandler]
      split <;> rfl
    rw [hsame]
    exact h
  | deletedEvents cutoff =>
    exact ⟨trivial, h.sees fun event hevent => (List.mem_filter.mp hevent).1⟩
  | getByIdUnscoped assetId =>
    constructor
    · intro row hrow
      have hmatch := List.find?_some hrow
      exact (of_decide_eq_true hmatch).1
    · exact h.takes hpermit.1 hpermit.2.2
  | randomUUID => exact ⟨trivial, h.draws hpermit⟩
  | putFile key =>
    cases r with
    | error e => exact ⟨trivial, h⟩
    | ok _ => exact ⟨trivial, h.puts hpermit⟩
  | create row => exact ⟨trivial, h.creating r hpermit⟩
  | deleteKeys keys =>
    cases r with
    | error e => exact ⟨trivial, h⟩
    | ok _ => exact ⟨trivial, h.deletes hpermit⟩
  | listObjects pfx cursor =>
    obtain ⟨n, hcall⟩ := hpermit
    cases r with
    | error e => exact ⟨trivial, h⟩
    | ok _ => exact ⟨trivial, h.pages hcall cursor⟩
  | queue job =>
    refine ⟨trivial, h.queues (fun keys hjob => ?_) fun pfx hjob => ?_⟩
    · subst hjob
      exact hpermit
    · subst hjob
      exact hpermit
  | downloadToFile key =>
    refine ⟨trivial, ?_⟩
    have hsame : (mediaHandler (.downloadToFile key) r s).2 = s := by
      simp only [mediaHandler]
      split <;> rfl
    rw [hsame]
    exact h
  | upsertExif assetId =>
    refine ⟨trivial, h.stated fun s' hs' => ?_⟩
    obtain ⟨-, rfl⟩ := onAsset_ok hs'
    exact ⟨⟨rfl, rfl, rfl, fun _ hkey => hkey, le_rfl⟩, rfl, rfl⟩
  | updateCapturedAt assetId =>
    refine ⟨trivial, h.stated fun s' hs' => ?_⟩
    obtain ⟨-, rfl⟩ := onAsset_ok hs'
    exact .refl _
  | upsertFile file => exact ⟨trivial, h.filing r hpermit⟩
  | updateProcessed assetId => exact ⟨trivial, h.processing r hpermit⟩
  | setStatus assetId status =>
    rcases hpermit with ⟨rfl, n, hcall⟩ | ⟨rfl, eventId, hcall⟩
    · exact ⟨trivial, h.failed hcall⟩
    · exact ⟨trivial, h.rewinds hcall⟩
  | getFiles assetId => exact ⟨trivial, h.listsFiles assetId r⟩
  | upsertParticipant dto => exact ⟨trivial, h.upsertsParticipant dto r⟩
  | replaceSelfies participantId keys =>
    refine ⟨trivial, h.stated fun s' hs' => ?_⟩
    rw [MediaStore.replaceSelfies] at hs'
    split at hs'
    · cases hs'
      exact ⟨⟨rfl, rfl, rfl, fun _ hkey => hkey, le_rfl⟩, rfl, rfl⟩
    · cases hs'
  | setThumbnailKey personId key =>
    exact ⟨trivial, h.quiet ⟨⟨rfl, rfl, rfl, fun _ hkey => hkey, le_rfl⟩, rfl, rfl⟩⟩
  | markItem importItemId status assetId =>
    exact ⟨trivial, h.quiet ⟨⟨rfl, rfl, rfl, fun _ hkey => hkey, le_rfl⟩, rfl, rfl⟩⟩
  | softDeleteMany eventId ids => exact ⟨trivial, h.dies eventId ids⟩
  | deletedAssets cutoff =>
    refine ⟨trivial, h.lists fun row hrow => ?_⟩
    obtain ⟨hmem, hpast⟩ := List.mem_filter.mp hrow
    refine ⟨hmem, fun hnone => ?_⟩
    rw [hnone] at hpast
    cases hpast
  | deleteAssets ids job =>
    refine ⟨trivial, ?_⟩
    have hall : s.events.filter (fun event => event.id ∉ ([] : List ℕ)) = s.events := by simp
    exact h.drops (fun row => row.id ∉ ids) [] g.doomed (fun _ hpfx => hpfx)
      (fun _ hpfx => .inl hpfx) (fun _ _ => List.not_mem_nil) rfl rfl hall.symm ⟨rfl, rfl, rfl, rfl⟩
  | deleteEvents ids =>
    refine ⟨trivial, h.drops (fun row => row.eventId ∉ ids) ids _
      (fun _ hpfx => (List.mem_filter.mp hpfx).1) (fun pfx hpfx => ?_)
        (fun _ hkept => of_decide_eq_true hkept)
      rfl rfl rfl ⟨rfl, rfl, rfl, rfl⟩⟩
    by_cases hdropped : pfx.eventId ∈ ids
    · refine .inr (hasEvent_eq_false.mpr fun event hevent hid => ?_)
      exact of_decide_eq_true (List.mem_filter.mp hevent).2 (hid ▸ hdropped)
    · exact .inl (List.mem_filter.mpr ⟨hpfx, decide_eq_true hdropped⟩)
  | hardDelete orgId eventId => exact ⟨trivial, h.hardDeletes orgId eventId r⟩
  | _ => exact ⟨trivial, h⟩

end Steps

end EventLens.Photos
