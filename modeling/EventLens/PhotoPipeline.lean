import EventLens.AssetSweep
import EventLens.PhotoSteps

/-!
Nothing of a live photo is lost. Whatever runs side by side and whatever fails,
a live asset keeps its original and the objects of its derivatives until a call
is about to drop its event, and its status tells the truth: a stored asset has
a job to come, a failed one has its job still, and a processed one has its
preview and its thumbnail, and if it is a video, its encoding or a job for it.
-/

namespace EventLens.Photos

open Programs Media

/-! Calls that start and leave. -/

section Moves

variable {N : Multiset Work} {g : Work} {s s' : MediaStore} {c : MediaCall} {reply : MediaReply}
  {again : Bool}
  {fuel : ℕ} {item : JobItem}

/-- A job that starts is no longer queued but runs. -/
theorem accept_cases (h : (mediaServer fuel).accept c s = some s') :
    Stays s s' ∧ s'.failed = s.failed ∧
    ((∃ n item, c = .job n item ∧ (n, item) ∈ s.jobs ∧
    s'.jobs = s.jobs.filter (fun j => j ≠ (n, item))) ∨
      (∀ n item, c ≠ .job n item) ∧ s'.jobs = s.jobs) := by
  cases c with
  | job n item =>
    rw [mediaServer] at h
    simp only at h
    split at h
    · rename_i hjob
      cases h
      exact ⟨⟨rfl, rfl, rfl, fun _ hkey => hkey, le_rfl⟩, rfl, .inl ⟨n, item, rfl, hjob, rfl⟩⟩
    · cases h
  | elapse ms =>
    cases h
    exact ⟨⟨rfl, rfl, rfl, fun _ hkey => hkey, le_rfl⟩, rfl,
      .inr ⟨fun _ _ => MediaCall.noConfusion, rfl⟩⟩
  | _ =>
    cases h
    exact ⟨.refl s, rfl, .inr ⟨fun _ _ => MediaCall.noConfusion, rfl⟩⟩

theorem first_sound (M : Multiset Work) (s : MediaStore) (c : MediaCall) :
    (Work.first c).Sound M s where
  drawn a ha := by cases ha
  asset held hheld := by cases hheld
  held key hkey := absurd hkey List.not_mem_nil
  filed type htype := absurd htype List.not_mem_nil
  paged key hkey := absurd hkey List.not_mem_nil
  listed a ha := absurd ha List.not_mem_nil
  collected key hkey := absurd hkey List.not_mem_nil
  seen pfx hpfx := absurd hpfx List.not_mem_nil
  doomed pfx hpfx := absurd hpfx List.not_mem_nil

theorem Whole.accepts (h : Whole N s) (haccept : (mediaServer fuel).accept c s = some s') :
    Whole (.first c ::ₘ N) s' := by
  obtain ⟨hstays, hfailed, hjobs⟩ := accept_cases haccept
  have hmem := Multiset.mem_cons_self (Work.first c) N
  have hl : Later none [] N s (.first c ::ₘ N) s' :=
    { next := hstays.next
      drawn := fun other hother a ha => by
        rcases Multiset.mem_cons.mp hother with rfl | hother
        · cases ha
        · exact .inr ⟨other, hother, ha⟩
      owned := fun a ha => by cases ha
      brings := fun row hrow => absurd hrow List.not_mem_nil
      rows := fun row hrow => .inr ⟨row, hstays.assets ▸ hrow, rfl, rfl, id⟩
      events := fun event hevent => hstays.events ▸ hevent
      doomed :=
        fun other hother pfx hpfx => .inr ⟨other, Multiset.mem_cons_of_mem hother, pfx, hpfx, rfl⟩
      files := fun f hf _ => hstays.files.symm ▸ hf
      bucket := fun key hkey => .inl (hstays.bucket key hkey) }
  have hawaits : ∀ item, Awaited N s item → Awaited (.first c ::ₘ N) s' item := by
    intro item haw
    rcases haw with ⟨n, hjob⟩ | ⟨other, hother, hdoes⟩
    · rcases hjobs with ⟨k, started, hc, -, hrest⟩ | ⟨-, hrest⟩
      · by_cases hsame : (n, item) = (k, started)
        · obtain ⟨rfl, rfl⟩ := Prod.mk.inj hsame
          exact .inr ⟨_, hmem, .inr ⟨⟨n, hc⟩, rfl, rfl⟩⟩
        · refine .inl ⟨n, ?_⟩
          rw [hrest]
          exact List.mem_filter.mpr ⟨hjob, decide_eq_true hsame⟩
      · exact .inl ⟨n, hrest.symm ▸ hjob⟩
    · exact .inr ⟨other, Multiset.mem_cons_of_mem hother, hdoes⟩
  have hretains : ∀ item, Retained N s item → Retained (.first c ::ₘ N) s' item := by
    intro item hret
    rcases hret with haw | ⟨n, hjob⟩ | ⟨other, hother, hfail⟩
    · exact .inl (hawaits item haw)
    · exact .inr (.inl ⟨n, hfailed.symm ▸ hjob⟩)
    · exact .inr (.inr ⟨other, Multiset.mem_cons_of_mem hother, hfail⟩)
  refine h.later hl ?_ fun other hother => ?_
  · exact
      { ids := by rw [hstays.assets]; exact h.ids
        eventIds := by rw [hstays.events]; exact h.eventIds
        homes := fun row hrow => by
          rw [MediaStore.hasEvent, hstays.events]
          exact (h.rows row (hstays.assets ▸ hrow)).2.2
        brings := fun row hrow => absurd hrow List.not_mem_nil
        files := fun f hf => by
          rw [hstays.files] at hf
          obtain ⟨⟨row, hrow, hid, -⟩, -⟩ := h.files f hf
          exact .inl ⟨hf, row, hstays.assets.symm ▸ hrow, hid⟩
        tasks := fun item htask => by
          refine .inl ?_
          rcases htask with ⟨n, hjob⟩ | ⟨other, hother, n, hn⟩
          · rcases List.mem_append.mp hjob with hjob | hjob
            · refine .inl ⟨n, List.mem_append_left _ ?_⟩
              rcases hjobs with ⟨k, started, -, -, hrest⟩ | ⟨-, hrest⟩
              · rw [hrest] at hjob
                exact (List.mem_filter.mp hjob).1
              · exact hrest ▸ hjob
            · exact .inl ⟨n, List.mem_append_right _ (hfailed ▸ hjob)⟩
          · rcases Multiset.mem_cons.mp hother with rfl | hother
            · rcases hjobs with ⟨k, started, hc, hjob, -⟩ | ⟨hother, -⟩
              · obtain ⟨rfl, rfl⟩ := MediaCall.job.inj (hc.symm.trans hn)
                exact .inl ⟨k, List.mem_append_left _ hjob⟩
              · exact absurd hn (hother n item)
            · exact .inr ⟨other, hother, n, hn⟩
        truthful :=
          fun row hrow hlive => (h.truthful row (hstays.assets ▸ hrow) hlive).mono rfl rfl rfl
          (hawaits _) (hretains _) (fun _ hret => .inr (hretains _ hret)) fun _ hfile =>
            hstays.files.symm ▸ hfile
        drawn := by
          rw [Multiset.filterMap_cons_none _ _ rfl]
          exact h.drawn }
  · rcases Multiset.mem_cons.mp hother with rfl | hother
    · exact .inr (first_sound _ _ c)
    · exact .inl ⟨hother, fun a hnone => by cases hnone⟩

/-- A job that fails is queued again or given up. -/
theorem release_cases (h : (mediaServer fuel).release c reply again s = some s') : Stays s s' ∧
    (∀ job ∈ s.jobs, job ∈ s'.jobs) ∧ (∀ job ∈ s.failed, job ∈ s'.failed) ∧
    (∀ n item, (n, item) ∈ s'.jobs ++ s'.failed → (n, item) ∈ s.jobs ++ s.failed ∨
    c = .job n item) ∧
    ∀ n item, c = .job n item → reply.fails = true → (n, item) ∈ s'.jobs ++ s'.failed := by
  cases c with
  | job n item =>
    rw [mediaServer] at h
    simp only at h
    split at h
    · split at h
      · cases h
        refine ⟨⟨rfl, rfl, rfl, fun _ hkey => hkey, le_rfl⟩,
          fun _ hjob => List.mem_append_left _ hjob,
          fun _ hjob => hjob, fun k other hjob => ?_, fun k other hc _ => ?_⟩
        · rcases List.mem_append.mp hjob with hjob | hjob
          · rcases List.mem_append.mp hjob with hjob | hnew
            · exact .inl (List.mem_append_left _ hjob)
            · obtain ⟨rfl, rfl⟩ := Prod.mk.inj (List.mem_singleton.mp hnew)
              exact .inr rfl
          · exact .inl (List.mem_append_right _ hjob)
        · obtain ⟨rfl, rfl⟩ := MediaCall.job.inj hc
          exact List.mem_append_left _ (List.mem_append_right _ (List.mem_singleton_self _))
      · cases h
        refine ⟨⟨rfl, rfl, rfl, fun _ hkey => hkey, le_rfl⟩, fun _ hjob => hjob,
          fun _ hjob => List.mem_append_left _ hjob, fun k other hjob => ?_, fun k other hc _ => ?_⟩
        · rcases List.mem_append.mp hjob with hjob | hjob
          · exact .inl (List.mem_append_left _ hjob)
          · rcases List.mem_append.mp hjob with hjob | hnew
            · exact .inl (List.mem_append_right _ hjob)
            · obtain ⟨rfl, rfl⟩ := Prod.mk.inj (List.mem_singleton.mp hnew)
              exact .inr rfl
        · obtain ⟨rfl, rfl⟩ := MediaCall.job.inj hc
          exact List.mem_append_right _ (List.mem_append_right _ (List.mem_singleton_self _))
    · rename_i hfails
      cases h
      exact ⟨.refl _, fun _ hjob => hjob, fun _ hjob => hjob, fun _ _ hjob => .inl hjob,
        fun _ _ _ hfail => absurd hfail hfails⟩
  | _ =>
    cases h
    exact ⟨.refl _, fun _ hjob => hjob, fun _ hjob => hjob, fun _ _ hjob => .inl hjob,
      fun _ _ hc => by cases hc⟩

/-- A job that has not come to an end does not leave. -/
theorem over_ended (hover : g.Over c reply) (a : ℕ) : ¬ g.Runs (.assetProcess a) := by
  rintro ⟨⟨n, hn⟩, hidle, hnone⟩
  rcases hover.processed n a (hover.call.symm.trans hn) with ⟨-, hdone⟩ | hdone | ⟨hdone, -⟩
  · rw [hidle] at hdone
    cases hdone
  · rw [hnone] at hdone
    cases hdone
  · rw [hnone] at hdone
    cases hdone

theorem over_owes (hover : g.Over c reply) (item : JobItem) : item ∉ g.owes := by
  intro howed
  rw [hover.owes] at howed
  cases howed

theorem release_queued (hrelease : (mediaServer fuel).release c reply again s = some s') {n : ℕ}
    {item : JobItem} (hc : c = .job n item) (hfails : reply.fails = true) : Retained N s' item := by
  obtain ⟨-, -, -, -, hback⟩ := release_cases hrelease
  rcases List.mem_append.mp (hback n item hc hfails) with hjob | hjob
  · exact .inl (.inl ⟨n, hjob⟩)
  · exact .inr (.inl ⟨n, hjob⟩)

theorem release_awaits (hover : g.Over c reply)
    (hrelease : (mediaServer fuel).release c reply again s = some s') (a : ℕ)
    (haw : Awaited (g ::ₘ N) s (.assetProcess a)) : Awaited N s' (.assetProcess a) := by
  obtain ⟨-, hjobs, -⟩ := release_cases hrelease
  rcases haw with ⟨n, hjob⟩ | ⟨other, hother, hdoes⟩
  · exact .inl ⟨n, hjobs _ hjob⟩
  · rcases Multiset.mem_cons.mp hother with rfl | hother
    · exact hdoes.elim (fun howed => absurd howed (over_owes hover _)) fun hruns =>
        absurd hruns (over_ended hover a)
    · exact .inr ⟨other, hother, hdoes⟩

theorem release_retains (hover : g.Over c reply)
    (hrelease : (mediaServer fuel).release c reply again s = some s') (a : ℕ)
    (hret : Retained (g ::ₘ N) s (.assetProcess a)) : Retained N s' (.assetProcess a) := by
  obtain ⟨-, -, hfailed, -⟩ := release_cases hrelease
  rcases hret with haw | ⟨n, hjob⟩ | ⟨other, hother, ⟨n, hn⟩, hfail⟩
  · exact .inl (release_awaits hover hrelease a haw)
  · exact .inr (.inl ⟨n, hfailed _ hjob⟩)
  · rcases Multiset.mem_cons.mp hother with rfl | hother
    · have hc := hover.call.symm.trans hn
      rcases hover.processed n a hc with ⟨hnone, -⟩ | hdone | ⟨-, hfails⟩
      · rw [hfail] at hnone
        cases hnone
      · rw [hfail] at hdone
        cases hdone
      · exact release_queued hrelease hc hfails
    · exact .inr (.inr ⟨other, hother, ⟨n, hn⟩, hfail⟩)

/-- A transcoding leaves its file, or is still retained. -/
theorem Whole.release_videos (h : Whole (g ::ₘ N) s) (hover : g.Over c reply)
    (hrelease : (mediaServer fuel).release c reply again s = some s') {row : AssetRow}
    (hrow : row ∈ s.assets) (hret : Retained (g ::ₘ N) s (.videoTranscode row.id)) :
    derivative row.toAssetIdentity .encodedVideo ∈ s.files ∨
      Retained N s' (.videoTranscode row.id) := by
  obtain ⟨-, hjobs, hfailed, -⟩ := release_cases hrelease
  have hg := Multiset.mem_cons_self g N
  have hover' : ∀ n, g.call = .job n (.videoTranscode row.id) → g.idle = false ∨ g.ended ≠ none →
      derivative row.toAssetIdentity .encodedVideo ∈ s.files ∨
        Retained N s' (.videoTranscode row.id) := by
    intro n hn hunfinished
    have hc := hover.call.symm.trans hn
    obtain ⟨hnone, hdone⟩ := hover.transcoded n row.id hc
    rcases hdone with hidle | hfiled | hfails
    · rcases hunfinished with hbusy | hended
      · rw [hidle] at hbusy
        cases hbusy
      · exact absurd hnone hended
    · obtain ⟨held, hheld, hfiles⟩ := (h.calls g hg).filed _ hfiled
      obtain ⟨hof, -, hrows⟩ := (h.calls g hg).asset held hheld
      have hid : row.id = held.1.id := by
        rw [hn] at hof
        exact Option.some.inj hof
      rw [(hrows row hrow hid).1]
      exact .inl (hfiles row hrow hid)
    · exact .inr (release_queued hrelease hc hfails)
  rcases hret with haw | ⟨n, hjob⟩ | ⟨other, hother, ⟨n, hn⟩, hfail⟩
  · rcases haw with ⟨n, hjob⟩ | ⟨other, hother, hdoes⟩
    · exact .inr (.inl (.inl ⟨n, hjobs _ hjob⟩))
    · rcases Multiset.mem_cons.mp hother with rfl | hother
      · rcases hdoes with howed | ⟨⟨n, hn⟩, hidle, -⟩
        · exact absurd howed (over_owes hover _)
        · exact hover' n hn (.inl hidle)
      · exact .inr (.inl (.inr ⟨other, hother, hdoes⟩))
  · exact .inr (.inr (.inl ⟨n, hfailed _ hjob⟩))
  · rcases Multiset.mem_cons.mp hother with rfl | hother
    · refine hover' n hn (.inr ?_)
      rw [hfail]
      exact Option.some_ne_none _
    · exact .inr (.inr (.inr ⟨other, hother, ⟨n, hn⟩, hfail⟩))

theorem Whole.releases (h : Whole (g ::ₘ N) s) (hover : g.Over c reply)
    (hrelease : (mediaServer fuel).release c reply again s = some s') : Whole N s' := by
  obtain ⟨hstays, -, -, hnew, -⟩ := release_cases hrelease
  have hg := Multiset.mem_cons_self g N
  have hl : Later none [] (g ::ₘ N) s N s' :=
    { next := hstays.next
      drawn := fun other hother a ha => .inr ⟨other, Multiset.mem_cons_of_mem hother, ha⟩
      owned := fun a ha => by cases ha
      brings := fun row hrow => absurd hrow List.not_mem_nil
      rows := fun row hrow => .inr ⟨row, hstays.assets ▸ hrow, rfl, rfl, id⟩
      events := fun event hevent => hstays.events ▸ hevent
      doomed := fun other hother pfx hpfx => by
        rcases Multiset.mem_cons.mp hother with rfl | hother
        · rw [hover.doomed] at hpfx
          cases hpfx
        · exact .inr ⟨other, hother, pfx, hpfx, rfl⟩
      files := fun f hf _ => hstays.files.symm ▸ hf
      bucket := fun key hkey => .inl (hstays.bucket key hkey) }
  refine h.later hl ?_ fun other hother =>
    .inl ⟨Multiset.mem_cons_of_mem hother, fun a hnone => by cases hnone⟩
  exact
    { ids := by rw [hstays.assets]; exact h.ids
      eventIds := by rw [hstays.events]; exact h.eventIds
      homes := fun row hrow => by
        rw [MediaStore.hasEvent, hstays.events]
        exact (h.rows row (hstays.assets ▸ hrow)).2.2
      brings := fun row hrow => absurd hrow List.not_mem_nil
      files := fun f hf => by
        rw [hstays.files] at hf
        obtain ⟨⟨row, hrow, hid, -⟩, -⟩ := h.files f hf
        exact .inl ⟨hf, row, hstays.assets.symm ▸ hrow, hid⟩
      tasks := fun item htask => by
        refine .inl ?_
        rcases htask with ⟨n, hjob⟩ | ⟨other, hother, n, hn⟩
        · rcases hnew n item hjob with hold | hc
          · exact .inl ⟨n, hold⟩
          · exact .inr ⟨g, hg, n, hover.call.trans hc⟩
        · exact .inr ⟨other, Multiset.mem_cons_of_mem hother, n, hn⟩
      truthful := fun row hrow hlive => by
        rw [hstays.assets] at hrow
        exact (h.truthful row hrow hlive).mono rfl rfl rfl
          (release_awaits hover hrelease _) (release_retains hover hrelease _)
          (fun _ hret => (h.release_videos hover hrelease hrow hret).imp_left
            fun hfile => hstays.files.symm ▸ hfile)
          fun _ hfile => hstays.files.symm ▸ hfile
      drawn := Multiset.nodup_of_le (Multiset.filterMap_le_filterMap _ (Multiset.le_cons_self N g))
        h.drawn }

end Moves

/-! The pipeline. -/

/-- At rest every live photo has its objects and a status that is true, and no
cleanup is for it. -/
structure AtRest (s : MediaStore) : Prop where
  ids : (s.assets.map (fun row => row.id)).Nodup
  eventIds : (s.events.map EventRow.id).Nodup
  rows : ∀ row ∈ s.assets, row.id < s.nextUuid ∧ Original row ∧ s.hasEvent row.eventId = true
  files : ∀ f ∈ s.files, ∃ row ∈ s.assets, row.id = f.assetId ∧
    f = derivative row.toAssetIdentity f.type
  objects : ∀ row ∈ s.assets, row.deletedAt = none → row.storageKey ∈ s.bucket ∧
    ∀ f ∈ s.files, f.assetId = row.id → f.storageKey ∈ s.bucket
  cleanups : ∀ n keys, (n, JobItem.cleanupKeys keys) ∈ s.jobs ++ s.failed → ∀ key ∈ keys,
    ∀ a, key.assetId? = some a → a < s.nextUuid ∧ ∀ row ∈ s.assets, row.id = a →
      row.deletedAt ≠ none
  prefixes :
    ∀ n pfx, (n, JobItem.cleanupPrefix pfx) ∈ s.jobs ++ s.failed → s.hasEvent pfx.eventId = false
  truthful : ∀ row ∈ s.assets, row.deletedAt = none → Truthful 0 s row

theorem whole_of_atRest {s : MediaStore} (h : AtRest s) : Whole 0 s := by
  have hsettled : ∀ row ∈ s.assets, Settled 0 s row.id :=
    fun row hrow => ⟨(h.rows row hrow).1, by simp⟩
  have hdead : ∀ row ∈ s.assets, row.deletedAt ≠ none → Dead 0 s row.id := by
    intro row hrow hdeleted
    refine ⟨hsettled row hrow, fun other hother hid => ?_⟩
    rw [List.inj_on_of_nodup_map h.ids hother hrow hid]
    exact hdeleted
  have hkept : ∀ row ∈ s.assets, ∀ key : StorageKey, key.assetId? = some row.id →
      (row.deletedAt = none → key ∈ s.bucket) → Kept 0 s key := by
    intro row hrow key hkey hlive
    by_cases hnone : row.deletedAt = none
    · exact .inl (hlive hnone)
    · refine .inr (.inr fun a ha => ?_)
      rw [hkey] at ha
      cases ha
      exact hdead row hrow hnone
  have htask : ∀ item, Tasked 0 s item → ∃ n, (n, item) ∈ s.jobs ++ s.failed := by
    intro item htask
    rcases htask with hjob | ⟨g, hg, -⟩
    · exact hjob
    · exact absurd hg (Multiset.notMem_zero g)
  exact
    { ids := h.ids
      eventIds := h.eventIds
      rows := fun row hrow => ⟨hsettled row hrow, (h.rows row hrow).2⟩
      originals := fun row hrow => hkept row hrow _ (original_assetId (h.rows row hrow).2.1)
        fun hlive => (h.objects row hrow hlive).1
      files := fun f hf => by
        obtain ⟨row, hrow, hid, hderived⟩ := h.files f hf
        refine ⟨⟨row, hrow, hid, hderived⟩,
          hkept row hrow _ ?_ fun hlive => (h.objects row hrow hlive).2 f hf hid.symm⟩
        rw [hderived]
        exact derivative_assetId row.toAssetIdentity f.type
      cleanups := fun keys hcleanup key hkey => by
        obtain ⟨n, hjob⟩ := htask _ hcleanup
        refine .inr fun a ha => ?_
        obtain ⟨hbelow, hrows⟩ := h.cleanups n keys hjob key hkey a ha
        exact ⟨⟨hbelow, by simp⟩, hrows⟩
      prefixes := fun pfx hcleanup => by
        obtain ⟨n, hjob⟩ := htask _ hcleanup
        exact .inl (h.prefixes n pfx hjob)
      truthful := h.truthful
      drawn := by simp
      calls := by simp }

theorem whole_kept (fuel : ℕ) :
    Preserves (mediaServer fuel) (fun _ _ _ => True) photoWork Work.first Work.Over Whole where
  accept _ _ _ _ h haccept := h.accepts haccept
  perform _ _ _ _ r _ h hpermit _ := h.performs r hpermit
  release _ _ _ _ _ _ _ h hover hrelease := h.releases hover hrelease

/-- A call in progress has queued the objects of the event for deletion and is
about to drop the event. -/
def Departing (p : MediaPool) (eventId : ℕ) : Prop :=
  ∃ t ∈ p.threads, ∃ pfx ∈ (t.notes photoWork Work.first).doomed, pfx.eventId = eventId

/-- Whatever runs and whatever fails, a live photo has a status that is true,
and keeps its objects until its event is about to go. -/
theorem live_photos_whole {fuel : ℕ} {p₀ p : MediaPool} (hempty : p₀.threads = [])
    (hrest : AtRest p₀.state)
    (h : (mediaServer fuel).Reaches (fun _ _ _ => True) p₀ p) {row : AssetRow}
    (hrow : row ∈ p.state.assets)
    (hlive : row.deletedAt = none) :
    Truthful (notesOf photoWork Work.first p.threads) p.state row ∧
      (Departing p row.eventId ∨ row.storageKey ∈ p.state.bucket ∧
        ∀ f ∈ p.state.files, f.assetId = row.id → f.storageKey ∈ p.state.bucket) := by
  obtain ⟨-, hwhole⟩ :=
    h.invariant (calls_work fuel) (whole_kept fuel) hempty (whole_of_atRest hrest)
  refine ⟨hwhole.truthful row hrow hlive, ?_⟩
  obtain ⟨-, horiginal, hevent⟩ := hwhole.rows row hrow
  have hkeeps :
    ∀ key, Kept (notesOf photoWork Work.first p.threads) p.state key → key.eventId = row.eventId →
      key.assetId? = some row.id → Departing p row.eventId ∨ key ∈ p.state.bucket := by
    intro key hkept hof hasset
    rcases hkept with hkey | (hgone | ⟨g, hg, pfx, hpfx, hid⟩) | hdead
    · exact .inr hkey
    · rw [hof, hevent] at hgone
      cases hgone
    · obtain ⟨t, ht, rfl⟩ := mem_notesOf.mp hg
      exact .inl ⟨t, ht, pfx, hpfx, hid.trans hof⟩
    · exact absurd hlive ((hdead row.id hasset).2 row hrow rfl)
  by_cases hdeparting : Departing p row.eventId
  · exact .inl hdeparting
  refine .inr ⟨?_, fun f hf hid => ?_⟩
  · refine (hkeeps _ (hwhole.originals row hrow) ?_ (original_assetId horiginal)).resolve_left
      hdeparting
    obtain ⟨ext, hkey⟩ := horiginal
    rw [hkey]
    rfl
  · obtain ⟨⟨other, hother, hotherId, hderived⟩, hkept⟩ := hwhole.files f hf
    have hsame : other = row := hwhole.unique hother hrow (hotherId.trans hid)
    refine (hkeeps _ hkept ?_ ?_).resolve_left hdeparting
    · rw [hderived, hsame]
      cases f.type <;> rfl
    · rw [(hwhole.file_assetId hf).1, hid]

/-! A photo that is processed at the second attempt, while the removal of its
event is refused. -/

/-- The image tools fail. -/
def exhausted : (o : MediaOp) → MediaRes o
  | .work _ => .error (.failed "out of memory")
  | o => Media.working o

def secondAttempt : List MediaMove :=
  mediaCall 7 (.uploadAsset 1 partyPhoto) ++ .start (.job 0 (.assetProcess 10)) ::
    (List.replicate 4 (.perform 0 exhausted) ++ [.leave 0 true] ++ .start (.remove 2 1 "other") ::
      (mediaPerforms 0 1 ++ .start (.job 0 (.assetProcess 10)) :: mediaPerforms 1 16))

theorem party_atRest : AtRest partyStart.state where
  ids := List.nodup_nil
  eventIds := List.nodup_singleton 1
  rows _ hrow := absurd hrow List.not_mem_nil
  files _ hf := absurd hf List.not_mem_nil
  objects _ hrow := absurd hrow List.not_mem_nil
  cleanups _ _ hjob := absurd hjob List.not_mem_nil
  prefixes _ _ hjob := absurd hjob List.not_mem_nil
  truthful _ hrow := absurd hrow List.not_mem_nil

theorem live_photos_whole_secondAttempt :
    ∃ p, (mediaServer 1).play (fun _ _ _ => True) secondAttempt partyStart = some p ∧
      p.state.assets.map AssetRow.status = [.processed] ∧
      ∀ row ∈ p.state.assets, row.deletedAt = none →
        Truthful (notesOf photoWork Work.first p.threads) p.state row ∧
          (Departing p row.eventId ∨ row.storageKey ∈ p.state.bucket ∧
            ∀ f ∈ p.state.files, f.assetId = row.id → f.storageKey ∈ p.state.bucket) := by
  let p := ((mediaServer 1).play (fun _ _ _ => True) secondAttempt partyStart).get
    (by decide)
  have hplay : (mediaServer 1).play (fun _ _ _ => True) secondAttempt partyStart = some p :=
    (Option.some_get _).symm
  exact ⟨p, hplay, by decide, fun row hrow hlive =>
    live_photos_whole rfl party_atRest (Server.Reaches.start.play _ hplay) hrow hlive⟩

end EventLens.Photos
