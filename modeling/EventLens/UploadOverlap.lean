import EventLens.UploadBatches
import Mathlib.Data.List.Nodup

/-!
Batches that overlap. A task of the browser answers one file, and what goes on
after it goes on before the next task, one function at a time: no two batches
have a turn to come. So a batch that is being settled finds every other batch
settled, or an item of it in progress, and a timer is set only when nothing is
under way; a batch that begins clears the one timer there is.
-/

namespace EventLens.Panel

/-! What a change of the store leaves. -/

/-- No items come, ids stay, and active items stay active but for those `gone`. -/
structure Spares (s s' : UploadStore) (gone : List ℕ) : Prop where
  nextId : s'.nextId = s.nextId
  ids : (s'.items.map UploadItem.id).Sublist (s.items.map UploadItem.id)
  active : ∀ x ∈ s.items, x.state.active = true → x.id ∉ gone → ∃ y ∈ s'.items, y.id = x.id ∧
    y.state.active = true

namespace UploadStore

variable {s : UploadStore} {id : ℕ} {changes : UploadItem → UploadItem}

theorem map_id_modify {items : List UploadItem} (hid : ∀ x, (changes x).id = x.id) (n : ℕ) :
    (items.modify n changes).map UploadItem.id = items.map UploadItem.id := by
  refine List.ext_getElem? fun j => ?_
  rw [List.getElem?_map, List.getElem?_map, List.getElem?_modify]
  cases items[j]? with
  | none => rfl
  | some x =>
    by_cases hn : n = j
    · simp [hn, hid]
    · simp [hn]

/-- An item is patched only if it has the id. -/
theorem mem_patch (id : ℕ) (changes : UploadItem → UploadItem) {x : UploadItem} (hx : x ∈ s.items) :
    x ∈ (s.patch id changes).items ∨ x.id = id ∧ changes x ∈ (s.patch id changes).items := by
  obtain ⟨j, hj⟩ := List.mem_iff_getElem?.mp hx
  have hpatched := List.getElem?_modify changes (s.items.findIdx fun item => item.id = id) s.items j
  rw [hj] at hpatched
  by_cases hfound : (s.items.findIdx fun item => item.id = id) = j
  · refine .inr ⟨?_, List.mem_of_getElem? (hpatched.trans (by simp [hfound]))⟩
    obtain ⟨hlt, hget⟩ := List.getElem?_eq_some_iff.mp hj
    subst hfound
    have hp := List.findIdx_getElem (p := fun item : UploadItem => item.id = id) (w := hlt)
    rw [hget] at hp
    exact of_decide_eq_true hp
  · exact .inl (List.mem_of_getElem? (hpatched.trans (by simp [hfound])))

theorem patch_ids (hid : ∀ x, (changes x).id = x.id) :
    (s.patch id changes).items.map UploadItem.id = s.items.map UploadItem.id := map_id_modify hid _

theorem patch_sublist (hid : ∀ x, (changes x).id = x.id) :
    ((s.patch id changes).items.map UploadItem.id).Sublist (s.items.map UploadItem.id) := by
  rw [patch_ids hid]

end UploadStore

section Spares

variable {s s' s'' : UploadStore} {gone : List ℕ} {id : ℕ} {changes : UploadItem → UploadItem}

theorem spares_refl (s : UploadStore) (gone : List ℕ) : Spares s s gone :=
  ⟨rfl, List.Sublist.refl _, fun x hx hactive _ => ⟨x, hx, rfl, hactive⟩⟩

theorem Spares.trans (h : Spares s s' gone) (h' : Spares s' s'' gone) : Spares s s'' gone := by
  refine ⟨h'.nextId.trans h.nextId, h'.ids.trans h.ids, fun x hx hactive hgone => ?_⟩
  obtain ⟨y, hy, hid, hactive⟩ := h.active x hx hactive hgone
  obtain ⟨z, hz, hid', hactive⟩ := h'.active y hy hactive (hid ▸ hgone)
  exact ⟨z, hz, hid'.trans hid, hactive⟩

/-- A patch to an active state. -/
theorem spares_patch (hid : ∀ x, (changes x).id = x.id)
    (hactive : ∀ x, x.state.active = true →
    (changes x).state.active = true) : Spares s (s.patch id changes) [] := by
  refine ⟨rfl, UploadStore.patch_sublist hid, fun x hx hx' _ => ?_⟩
  rcases UploadStore.mem_patch id changes hx with hsame | ⟨-, hpatched⟩
  · exact ⟨x, hsame, rfl, hx'⟩
  · exact ⟨_, hpatched, hid x, hactive x hx'⟩

/-- A patch to any state. -/
theorem spares_closed (hid : ∀ x, (changes x).id = x.id) : Spares s (s.patch id changes) [id] := by
  refine ⟨rfl, UploadStore.patch_sublist hid, fun x hx hactive hgone => ?_⟩
  rcases UploadStore.mem_patch id changes hx with hsame | ⟨hx', -⟩
  · exact ⟨x, hsame, rfl, hactive⟩
  · exact absurd (List.mem_singleton.mpr hx') hgone

theorem spares_drop (s : UploadStore) (id : ℕ) : Spares s (s.drop id) [id] := by
  refine ⟨rfl, List.filter_sublist.map _, fun x hx hactive hgone => ?_⟩
  have hne : x.id ≠ id := fun heq => hgone (List.mem_singleton.mpr heq)
  exact ⟨x, List.mem_filter.mpr ⟨hx, decide_eq_true hne⟩, rfl, hactive⟩

theorem spares_failed (t : Tab) (id : ℕ) (message : String) :
    Spares t.store (t.failed id message) [id] :=
  spares_closed fun _ => rfl

theorem spares_foundDuplicate (t : Tab) (id : ℕ) : Spares t.store (t.foundDuplicate id) [id] :=
  ⟨rfl, (spares_drop t.store id).ids, (spares_drop t.store id).active⟩

theorem spares_accepted (t : Tab) (eventId id : ℕ) (file : File) (result : UploadResult)
    (thumbUrl : Except String String) :
    Spares t.store (t.accepted eventId id file result thumbUrl) [id] := by
  have hdone :
    Spares t.store (t.store.patch id fun item => { item with state := .done, progress :=
    100 }) [id] :=
    spares_closed fun _ => rfl
  cases thumbUrl with
  | ok url => exact ⟨rfl, hdone.ids, hdone.active⟩
  | error message => exact hdone.trans (spares_closed fun _ => rfl)

end Spares

/-! The invariant. -/

namespace Tab

/-- The turn that a batch waits for. -/
def phase (t : Tab) (k : ℕ) : Option Turn :=
    (t.microtasks.find? fun m => m.batch = k).map Microtask.turn

/-- The items have ids of their own, and those of the batches lie apart; at most
one function waits for its turn; a file that has not ended is shown as active;
and while a timer runs, it is the one the store knows of, and all is done. -/
structure Good (t : Tab) : Prop where
  distinct : (t.store.items.map UploadItem.id).Nodup
  below : ∀ x ∈ t.store.items, x.id < t.store.nextId
  spans : ∀ b ∈ t.batches, b.first + b.files.length ≤ t.store.nextId
  apart : ∀ {j k : ℕ} {b c : Batch}, t.batches[j]? = some b → t.batches[k]? = some c → j < k →
    b.first + b.files.length ≤ c.first
  one : t.microtasks = [] ∨ ∃ k turn, t.microtasks = [⟨k, turn⟩] ∧ k < t.batches.length
  keeps : ∀ {k : ℕ} {b : Batch}, t.batches[k]? = some b → b.Keeps (t.phase k)
  shown : ∀ b ∈ t.batches, ∀ i < b.files.length, i ∉ b.ended →
    ∃ x ∈ t.store.items, x.id = b.first + i ∧ x.state.active = true
  timed : ∀ timer ∈ t.timers, t.store.dismissTimer = some timer.id
  cleared :
    t.timers ≠ [] → (∀ x ∈ t.store.items, x.state = .done) ∧ ∀ b ∈ t.batches, b.settled = true

/-- Every batch has its workers. -/
def Manned (t : Tab) : Prop := ∀ b ∈ t.batches, 0 < b.workers.length

variable {t t' : Tab} {k w i : ℕ} {b b' : Batch} {worker next : Worker} {store : UploadStore}
  {gone : List ℕ}

theorem phase_of_nil (h : t.microtasks = []) (k : ℕ) : t.phase k = none := by
  rw [phase, h]
  rfl

theorem phase_of_singleton {turn : Turn} (h : t.microtasks = [⟨k, turn⟩]) :
    t.phase k = some turn := by
  rw [phase, h]
  simp

theorem phase_of_ne {turn : Turn} (h : t.microtasks = [⟨k, turn⟩]) {j : ℕ} (hne : j ≠ k) :
    t.phase j = none := by
  rw [phase, h]
  simp [Ne.symm hne]

/-- A batch that is yet to come waits for no turn. -/
theorem Good.phase_beyond (h : t.Good) (hk : t.batches.length ≤ k) : t.phase k = none := by
  rcases h.one with hnil | ⟨j, turn, hcons, hj⟩
  · exact phase_of_nil hnil k
  · exact phase_of_ne hcons (by omega)

/-- A turn that comes is the only one. -/
theorem Good.phase_of_cons (h : t.Good) {turn : Turn} {rest : List Microtask}
    (hmicro : t.microtasks = ⟨k, turn⟩ :: rest) :
    t.phase k = some turn ∧ rest = [] := by
  rcases h.one with hnil | ⟨j, turn', hcons, -⟩
  · rw [hnil] at hmicro
    cases hmicro
  · rw [hcons] at hmicro
    cases hmicro
    exact ⟨phase_of_singleton hcons, rfl⟩

/-- No timer runs as long as a batch is not settled. -/
theorem Good.no_timer (h : t.Good) (hb : b ∈ t.batches) (hopen : b.settled = false) :
    t.timers = [] := by
  by_contra htimers
  rw [(h.cleared htimers).2 b hb] at hopen
  cases hopen

/-- The files of all batches have different items. -/
theorem Good.same_file (h : t.Good) {j : ℕ} {c : Batch} (hb : t.batches[k]? = some b)
    (hc : t.batches[j]? = some c)
    {i' : ℕ} (hi : i < b.files.length) (hi' : i' < c.files.length)
    (hid : b.first + i = c.first + i') : k = j := by
  rcases Nat.lt_trichotomy k j with hlt | heq | hgt
  · have := h.apart hb hc hlt
    omega
  · exact heq
  · have := h.apart hc hb hgt
    omega

/-- A batch goes on to `b'`, and the items of `gone` are no longer active. -/
structure Goes (t t' : Tab) (k : ℕ) (b b' : Batch) (gone : List ℕ) : Prop where
  batches : t'.batches = t.batches.set k b'
  same : b'.first = b.first ∧ b'.files = b.files
  ended : b.ended ⊆ b'.ended
  timers : t'.timers = t.timers
  one : t'.microtasks = [] ∨ (∃ turn, t'.microtasks = [⟨k, turn⟩]) ∨ t'.microtasks = t.microtasks
  others : ∀ j, j ≠ k → t'.phase j = t.phase j
  keeps : b'.Keeps (t'.phase k)
  store : Spares t.store t'.store gone
  gone : ∀ id ∈ gone, ∃ i ∈ b'.ended, i < b.files.length ∧ id = b.first + i

theorem none_gone {P : ℕ → Prop} : ∀ id ∈ ([] : List ℕ), P id :=
    fun _ hid => absurd hid List.not_mem_nil

theorem Goes.at (h : Goes t t' k b b' gone) (hb : t.batches[k]? = some b) :
    t'.batches[k]? = some b' := by
  rw [h.batches]
  exact List.getElem?_set_self (List.getElem?_eq_some_iff.mp hb).1

theorem Goes.at_other (h : Goes t t' k b b' gone) {j : ℕ} (hne : j ≠ k) :
    t'.batches[j]? = t.batches[j]? := by
  rw [h.batches, List.getElem?_set_ne (Ne.symm hne)]

/-- Each batch is the one it was, or further on. -/
theorem Goes.before (h : Goes t t' k b b' gone) (hb : t.batches[k]? = some b) {j : ℕ} {c : Batch}
    (hc : t'.batches[j]? = some c) :
    ∃ c₀, t.batches[j]? = some c₀ ∧ c.first = c₀.first ∧ c.files = c₀.files ∧
    c₀.ended ⊆ c.ended := by
  by_cases hsame : j = k
  · subst hsame
    rw [h.at hb] at hc
    cases hc
    exact ⟨b, hb, h.same.1, h.same.2, h.ended⟩
  · exact ⟨c, h.at_other hsame ▸ hc, rfl, rfl, List.Subset.refl _⟩

/-- The items of files that have not ended stay active. -/
theorem Goes.spares (h : Goes t t' k b b' gone) (hgood : t.Good) (hb : t.batches[k]? = some b)
    {j : ℕ} {c c₀ : Batch}
    (hc : t'.batches[j]? = some c) (hc₀ : t.batches[j]? = some c₀) (hi : i < c₀.files.length)
    (hended : i ∉ c.ended) :
    c₀.first + i ∉ gone := by
  intro hgone
  obtain ⟨i', hi', hlt, hid⟩ := h.gone _ hgone
  obtain rfl := hgood.same_file hb hc₀ hlt hi hid.symm
  rw [hb] at hc₀
  cases hc₀
  rw [h.at hb] at hc
  cases hc
  have hsame : i' = i := by omega
  exact hended (hsame ▸ hi')

theorem Good.goes (h : t.Good) (hb : t.batches[k]? = some b) (hopen : b.settled = false)
    (hgoes : Goes t t' k b b' gone) : t'.Good := by
  have hk : k < t.batches.length := (List.getElem?_eq_some_iff.mp hb).1
  have hnone : t'.timers = [] := hgoes.timers.trans (h.no_timer (List.mem_of_getElem? hb) hopen)
  refine ⟨h.distinct.sublist hgoes.store.ids, fun x hx => ?_, fun c hc => ?_,
    fun hj hj' hlt => ?_, ?_,
    fun {j c} hc => ?_, fun c hc i hi hended => ?_, fun timer htimer => ?_, fun hne =>
      absurd hnone hne⟩
  · obtain ⟨y, hy, hid⟩ := List.mem_map.mp (hgoes.store.ids.subset (List.mem_map.mpr ⟨x, hx, rfl⟩))
    rw [hgoes.store.nextId, ← hid]
    exact h.below y hy
  · obtain ⟨j, hj⟩ := List.mem_iff_getElem?.mp hc
    obtain ⟨c₀, hc₀, hfirst, hfiles, -⟩ := hgoes.before hb hj
    rw [hfirst, hfiles, hgoes.store.nextId]
    exact h.spans c₀ (List.mem_of_getElem? hc₀)
  · obtain ⟨b₀, hb₀, hfirst, hfiles, -⟩ := hgoes.before hb hj
    obtain ⟨c₀, hc₀, hfirst', -, -⟩ := hgoes.before hb hj'
    rw [hfirst, hfiles, hfirst']
    exact h.apart hb₀ hc₀ hlt
  · rw [hgoes.batches, List.length_set]
    rcases hgoes.one with hnil | ⟨turn, hcons⟩ | hsame
    · exact .inl hnil
    · exact .inr ⟨k, turn, hcons, hk⟩
    · rw [hsame]
      exact h.one
  · by_cases hsame : j = k
    · subst hsame
      rw [hgoes.at hb] at hc
      cases hc
      exact hgoes.keeps
    · rw [hgoes.others j hsame]
      exact h.keeps (hgoes.at_other hsame ▸ hc)
  · obtain ⟨j, hj⟩ := List.mem_iff_getElem?.mp hc
    obtain ⟨c₀, hc₀, hfirst, hfiles, hmore⟩ := hgoes.before hb hj
    rw [hfiles] at hi
    obtain ⟨x, hx, hid, hactive⟩ :=
      h.shown c₀ (List.mem_of_getElem? hc₀) i hi fun hi' => hended (hmore hi')
    have hspared : x.id ∉ gone := hid ▸ hgoes.spares h hb hj hc₀ hi hended
    obtain ⟨y, hy, hid', hactive'⟩ := hgoes.store.active x hx hactive hspared
    exact ⟨y, hy, by rw [hid', hid, hfirst], hactive'⟩
  · rw [hnone] at htimer
    cases htimer

/-- What a worker of the batch waits for, no function being in its turn. -/
theorem waiting_spec (h : t.waiting k w = some (b, worker)) :
    t.microtasks = [] ∧ t.batches[k]? = some b ∧ b.workers[w]? = some worker := by
  unfold waiting at h
  split at h
  · cases h
  · rename_i hnil
    obtain ⟨b₀, hb, hworker⟩ := Option.bind_eq_some_iff.mp h
    obtain ⟨worker₀, hw, hpair⟩ := Option.map_eq_some_iff.mp hworker
    cases hpair
    exact ⟨not_not.mp hnil, hb, hw⟩

theorem current_ne_returned (hi : worker.current? = some i) : worker ≠ .returned := by
  rintro rfl
  cases hi

structure Steady (t : Tab) : Prop extends Good t where
  manned : t.Manned

theorem Manned.set (h : t.Manned) (hb : t.batches[k]? = some b)
    (hbatches : t'.batches = t.batches.set k b')
    (hlength : b'.workers.length = b.workers.length) : t'.Manned := by
  intro c hc
  rw [hbatches] at hc
  rcases List.mem_or_eq_of_mem_set hc with hc | rfl
  · exact h c hc
  · rw [hlength]
    exact h b (List.mem_of_getElem? hb)

theorem Steady.await (h : t.Steady) (hwaits : t.waiting k w = some (b, worker))
    (hi : worker.current? = some i)
    (hnext : next.current? = some i) (hstore : Spares t.store store []) :
    (t.await k w b next store).Steady := by
  obtain ⟨hnil, hb, hw⟩ := waiting_spec hwaits
  have hkeeps := h.keeps hb
  rw [phase_of_nil hnil] at hkeeps
  refine ⟨h.goes hb (hkeeps.open_of_worker hw (current_ne_returned hi))
    ⟨rfl, ⟨rfl, rfl⟩, List.Subset.refl _, rfl,
    .inl hnil, fun _ _ => rfl, ?_, hstore, none_gone⟩, h.manned.set hb rfl List.length_set⟩
  have hphase : (t.await k w b next store).phase k = none := phase_of_nil hnil k
  rw [hphase]
  exact hkeeps.await hw hi hnext

theorem Steady.finish (h : t.Steady) (hwaits : t.waiting k w = some (b, worker))
    (hi : worker.current? = some i)
    (hstore : Spares t.store store [b.first + i]) : (t.finish k w i b store).Steady := by
  obtain ⟨hnil, hb, hw⟩ := waiting_spec hwaits
  have hkeeps := h.keeps hb
  rw [phase_of_nil hnil] at hkeeps
  have hmicro : (t.finish k w i b store).microtasks = [⟨k, .resume w⟩] := by
    rw [Tab.finish, hnil]
    rfl
  refine ⟨h.goes hb (hkeeps.open_of_worker hw (current_ne_returned hi)) ⟨rfl, ⟨rfl, rfl⟩,
    List.subset_append_left _ _, rfl, .inr (.inl ⟨_, hmicro⟩), fun j hne =>
      ?_, ?_, hstore, fun id hid => ?_⟩,
    h.manned.set hb rfl List.length_set⟩
  · rw [phase_of_ne hmicro hne, phase_of_nil hnil]
  · rw [phase_of_singleton hmicro]
    exact hkeeps.finish hw hi
  · refine ⟨i, List.mem_append_right _ (List.mem_singleton_self i), (hkeeps.not_ended hw hi).2, ?_⟩
    exact List.mem_singleton.mp hid

/-! The functions that wait for their turn. -/

theorem resume_steady (h : t.Steady) (hmicro : t.microtasks = [⟨k, .resume w⟩])
    (hb : t.batches[k]? = some b) :
    (({ t with microtasks := [] } : Tab).turn k w b).Steady := by
  have hkeeps := h.keeps hb
  rw [phase_of_singleton hmicro] at hkeeps
  have hopen := hkeeps.open_of_worker ((hkeeps.resuming w).mpr rfl) (by decide)
  unfold turn
  split
  · rename_i hmore
    refine ⟨h.goes hb hopen ⟨rfl, ⟨rfl, rfl⟩, List.Subset.refl _, rfl, .inl rfl, fun j hne => ?_,
      hkeeps.takes hmore,
      spares_patch (fun _ => rfl) fun _ _ => rfl, none_gone⟩, h.manned.set hb rfl List.length_set⟩
    rw [phase_of_ne hmicro hne, phase_of_nil rfl]
  · rename_i hdone
    refine ⟨h.goes hb hopen ⟨rfl, ⟨rfl, rfl⟩, List.Subset.refl _, rfl, .inr (.inl ⟨_, rfl⟩),
      fun j hne => ?_, ?_,
      spares_refl _ [], none_gone⟩, h.manned.set hb rfl List.length_set⟩
    · rw [phase_of_ne hmicro hne]
      exact phase_of_ne rfl hne
    · rw [phase_of_singleton rfl]
      exact hkeeps.returns hdone

theorem element_steady (h : t.Steady) (hmicro : t.microtasks = [⟨k, .element⟩])
    (hb : t.batches[k]? = some b) :
    (({ t with microtasks := [] } : Tab).element k b).Steady := by
  have hkeeps := h.keeps hb
  rw [phase_of_singleton hmicro] at hkeeps
  have hnext := hkeeps.element
  unfold element
  dsimp only
  split
  · rename_i hall
    rw [if_pos hall] at hnext
    refine ⟨h.goes hb hkeeps.open_of_element ⟨rfl, ⟨rfl, rfl⟩, List.Subset.refl _, rfl,
      .inr (.inl ⟨_, rfl⟩),
      fun j hne => ?_, ?_, spares_refl _ [], none_gone⟩, h.manned.set hb rfl rfl⟩
    · rw [phase_of_ne hmicro hne]
      exact phase_of_ne rfl hne
    · rw [phase_of_singleton rfl]
      exact hnext
  · rename_i hmore
    rw [if_neg hmore] at hnext
    refine ⟨h.goes hb hkeeps.open_of_element ⟨rfl, ⟨rfl, rfl⟩, List.Subset.refl _, rfl, .inl rfl,
      fun j hne => ?_,
      hnext, spares_refl _ [], none_gone⟩, h.manned.set hb rfl rfl⟩
    rw [phase_of_ne hmicro hne, phase_of_nil rfl]

/-- A batch is settled alone: if every item is done then, every other batch is
settled already. -/
theorem settle_steady (h : t.Steady) (hmicro : t.microtasks = [⟨k, .settle⟩])
    (hb : t.batches[k]? = some b) :
    (({ t with microtasks := [] } : Tab).settle k b).Steady := by
  have hkeeps := h.keeps hb
  rw [phase_of_singleton hmicro] at hkeeps
  have hopen := hkeeps.open_of_settle
  have hnone := h.no_timer (List.mem_of_getElem? hb) hopen
  have hsteady :
    ({ t with microtasks := [], batches :=
    t.batches.set k { b with settled := true } } : Tab).Steady := by
    refine ⟨h.goes hb hopen ⟨rfl, ⟨rfl, rfl⟩, List.Subset.refl _, rfl, .inl rfl, fun j hne => ?_,
      hkeeps.settle,
      spares_refl _ [], none_gone⟩, h.manned.set hb rfl rfl⟩
    rw [phase_of_ne hmicro hne, phase_of_nil rfl]
  unfold settle
  dsimp only
  split
  · rename_i hall
    have hdone : ∀ x ∈ t.store.items, x.state = .done :=
      fun x hx => of_decide_eq_true (List.all_eq_true.mp hall x hx)
    refine ⟨⟨hsteady.distinct, hsteady.below, hsteady.spans, hsteady.apart, hsteady.one,
      hsteady.keeps, hsteady.shown,
      fun timer htimer => ?_, fun _ => ⟨hdone, fun c hc => ?_⟩⟩, hsteady.manned⟩
    · rw [hnone] at htimer
      cases List.mem_singleton.mp htimer
      rfl
    · by_contra hnot
      have hfalse : c.settled = false := Bool.eq_false_iff.mpr hnot
      obtain ⟨j, hj⟩ := List.mem_iff_getElem?.mp hc
      obtain ⟨w, worker, i, hw, hi⟩ := (hsteady.keeps hj).waits (hsteady.manned c hc) hfalse
      obtain ⟨hended, hlt⟩ := (hsteady.keeps hj).not_ended hw hi
      obtain ⟨x, hx, -, hactive⟩ := hsteady.shown c hc i hlt hended
      rw [hdone x hx] at hactive
      cases hactive
  · exact hsteady

/-! The calls of the page. -/

/-- A batch begins its workers, each with the next file. -/
theorem startWorkers_good (n : ℕ) (h : t.Good) (hb : t.batches[k]? = some b)
    (hopen : b.settled = false)
    (hphase : t.phase k = none) (hfiles : b.cursor + n ≤ b.files.length) :
    (startWorkers k n t).Good ∧ ∃ b', (startWorkers k n t).batches = t.batches.set k b' ∧
      b'.workers.length = b.workers.length + n := by
  induction n generalizing t b with
  | zero =>
    obtain ⟨hlt, rfl⟩ := List.getElem?_eq_some_iff.mp hb
    exact ⟨h, _, (List.set_getElem_self hlt).symm, rfl⟩
  | succ n ih =>
    rw [startWorkers, hb]
    dsimp only
    have hk : k < t.batches.length := (List.getElem?_eq_some_iff.mp hb).1
    have hmore : b.cursor < b.files.length := by omega
    have hturn : t.turn k b.workers.length { b with workers := b.workers ++ [.resuming] } =
        { t with
          store := t.store.patch (b.first + b.cursor) fun item => { item with state := .hashing }
          batches := t.batches.set k { b with
            cursor := b.cursor + 1
            workers := (b.workers ++ [Worker.resuming]).set b.workers.length (.hashing b.cursor)
            begun := b.begun ++ [b.cursor] } } := if_pos hmore
    have hkeeps := h.keeps hb
    rw [hphase] at hkeeps
    have hgood :
      (t.turn k b.workers.length { b with workers := b.workers ++ [.resuming] }).Good := by
      rw [hturn]
      refine h.goes hb hopen ⟨rfl, ⟨rfl, rfl⟩, List.Subset.refl _, rfl, .inr (.inr rfl),
        fun _ _ => rfl, ?_,
        spares_patch (fun _ => rfl) fun _ _ => rfl, none_gone⟩
      change Batch.Keeps _ (t.phase k)
      rw [hphase]
      exact (hkeeps.start hopen).takes hmore
    rw [hturn] at hgood ⊢
    obtain ⟨hgood', b', hbatches, hlength⟩ := ih hgood (List.getElem?_set_self hk) hopen hphase (by
      change b.cursor + 1 + n ≤ b.files.length
      omega)
    refine ⟨hgood', b', ?_, ?_⟩
    · rw [hbatches]
      exact List.set_set _
    · rw [hlength]
      simp
      omega

theorem newItems_ids (firstId : ℕ) (files : List File) :
    (newItems firstId files).map UploadItem.id = (List.range files.length).map fun index =>
    firstId + index := by
  refine List.ext_getElem (by simp [newItems]) fun index _ _ => ?_
  simp [newItems]

theorem mem_newItems {firstId : ℕ} {files : List File} {x : UploadItem}
    (hx : x ∈ newItems firstId files) :
    firstId ≤ x.id ∧ x.id < firstId + files.length := by
  have hid : x.id ∈ (newItems firstId files).map UploadItem.id := List.mem_map.mpr ⟨x, hx, rfl⟩
  rw [newItems_ids] at hid
  obtain ⟨index, hindex, heq⟩ := List.mem_map.mp hid
  have hlt := List.mem_range.mp hindex
  omega

theorem exists_newItem (firstId : ℕ) {files : List File} (hi : i < files.length) :
    ∃ x ∈ newItems firstId files, x.id = firstId + i ∧ x.state.active = true := by
  have hget : (newItems firstId files)[i]? =
      some { id := firstId + i, name := files[i].name, state := .pending, progress := 0 } := by
    simp [newItems, hi]
  exact ⟨_, List.mem_of_getElem? hget, rfl, rfl⟩

theorem clearTimer_good (h : t.Good) : t.clearTimer.Good ∧ t.clearTimer.timers = [] ∧
    t.clearTimer.batches = t.batches ∧ t.clearTimer.microtasks = t.microtasks ∧
    t.clearTimer.store.items = t.store.items ∧ t.clearTimer.store.nextId = t.store.nextId := by
  unfold clearTimer
  cases hhandle : t.store.dismissTimer with
  | none =>
    have hnone : t.timers = [] := by
      refine List.eq_nil_iff_forall_not_mem.mpr fun timer htimer => ?_
      have := h.timed timer htimer
      rw [hhandle] at this
      cases this
    exact ⟨h, hnone, rfl, rfl, rfl, rfl⟩
  | some handle =>
    have hnone : (t.timers.filter fun timer => timer.id ≠ handle) = [] := by
      refine List.filter_eq_nil_iff.mpr fun timer htimer => ?_
      have hsame := h.timed timer htimer
      rw [hhandle] at hsame
      cases hsame
      simp
    refine ⟨⟨h.distinct, h.below, h.spans, h.apart, h.one, h.keeps, h.shown, fun timer htimer => ?_,
      fun hne => absurd hnone hne⟩, hnone, rfl, rfl, rfl, rfl⟩
    dsimp only at htimer
    rw [hnone] at htimer
    cases htimer

/-- A batch before its workers begin. -/
theorem append_good (h : t.Good) (htimers : t.timers = []) (eventId : ℕ) (files : List File) :
    ({ t with
      store := { t.store with
        duplicates := 0
        nextId := t.store.nextId + files.length
        items := newItems t.store.nextId files ++ t.store.items }
      batches :=
      t.batches ++ [{ eventId := eventId, files := files, first := t.store.nextId }] } :
      Tab).Good := by
  have hbatch : ∀ {j : ℕ} {c : Batch},
      (t.batches ++
        [({ eventId := eventId, files := files, first := t.store.nextId } : Batch)])[j]? = some c →
      t.batches[j]? = some c ∨
        j = t.batches.length ∧ c = { eventId := eventId, files := files, first :=
          t.store.nextId } := by
    intro j c hc
    rcases Nat.lt_or_ge j t.batches.length with hlt | hge
    · exact .inl (List.getElem?_append_left hlt ▸ hc)
    · rw [List.getElem?_append_right hge, List.getElem?_singleton] at hc
      split at hc
      · cases hc
        exact .inr ⟨by omega, rfl⟩
      · cases hc
  have hmem :
    ∀ {c : Batch},
    c ∈ t.batches ++ [({ eventId := eventId, files := files, first := t.store.nextId } : Batch)] →
      c ∈ t.batches ∨ c = { eventId := eventId, files := files, first := t.store.nextId } := by
    intro c hc
    rcases List.mem_append.mp hc with hc | hc
    · exact .inl hc
    · exact .inr (List.mem_singleton.mp hc)
  refine ⟨?_, fun x hx => ?_, fun c hc => ?_, fun {j k b c} hj hk hlt => ?_, ?_, fun {j c} hj => ?_,
    fun c hc i hi hended => ?_, fun timer htimer => ?_, fun hne => absurd htimers hne⟩
  · change ((newItems t.store.nextId files ++ t.store.items).map UploadItem.id).Nodup
    rw [List.map_append, newItems_ids]
    refine List.nodup_append.mpr ⟨?_, h.distinct, fun id hid id' hid' => ?_⟩
    · exact List.Nodup.map (fun _ _ heq => Nat.add_left_cancel heq) List.nodup_range
    · obtain ⟨index, -, rfl⟩ := List.mem_map.mp hid
      obtain ⟨x, hx, rfl⟩ := List.mem_map.mp hid'
      have hbelow := h.below x hx
      omega
  · change x.id < t.store.nextId + files.length
    rcases List.mem_append.mp hx with hx | hx
    · exact (mem_newItems hx).2
    · exact Nat.lt_of_lt_of_le (h.below x hx) (Nat.le_add_right _ _)
  · change c.first + c.files.length ≤ t.store.nextId + files.length
    rcases hmem hc with hc | rfl
    · exact Nat.le_trans (h.spans c hc) (Nat.le_add_right _ _)
    · exact Nat.le_refl _
  · rcases hbatch hk with hk | ⟨rfl, rfl⟩
    · rcases hbatch hj with hj | ⟨rfl, rfl⟩
      · exact h.apart hj hk hlt
      · have := (List.getElem?_eq_some_iff.mp hk).1
        omega
    · rcases hbatch hj with hj | ⟨rfl, rfl⟩
      · exact h.spans b (List.mem_of_getElem? hj)
      · omega
  · rcases h.one with hnil | ⟨k, turn, hcons, hk⟩
    · exact .inl hnil
    · refine .inr ⟨k, turn, hcons, ?_⟩
      rw [List.length_append]
      omega
  · rcases hbatch hj with hj | ⟨rfl, rfl⟩
    · exact h.keeps hj
    · change Batch.Keeps _ (t.phase t.batches.length)
      rw [h.phase_beyond (Nat.le_refl _)]
      exact Batch.keeps_new eventId t.store.nextId files
  · rcases hmem hc with hc | rfl
    · obtain ⟨x, hx, hid, hactive⟩ := h.shown c hc i hi hended
      exact ⟨x, List.mem_append_right _ hx, hid, hactive⟩
    · obtain ⟨x, hx, hid, hactive⟩ := exists_newItem t.store.nextId hi
      exact ⟨x, List.mem_append_left _ hx, hid, hactive⟩
  · rw [htimers] at htimer
    cases htimer

theorem enqueue_good (h : t.Good) (eventId : ℕ) (files : List File) :
    (t.enqueue eventId files).Good ∧ (t.Manned → (t.enqueue eventId files).Manned) := by
  unfold enqueue
  split
  · exact ⟨h, id⟩
  · rename_i hfiles
    obtain ⟨hgood, htimers, hbatches, -, -, -⟩ := clearTimer_good h
    have hpos : 0 < files.length := List.length_pos_of_ne_nil hfiles
    have happend := append_good hgood htimers eventId files
    have hlast := List.getElem?_concat_length (l := t.clearTimer.batches)
      (a := ({ eventId := eventId, files := files, first := t.clearTimer.store.nextId } : Batch))
    obtain ⟨hstarted, b', hset, hlength⟩ :=
      startWorkers_good (min UPLOAD_CONCURRENCY files.length) happend hlast rfl
      (hgood.phase_beyond (Nat.le_refl _)) (by
        change 0 + min UPLOAD_CONCURRENCY files.length ≤ files.length
        omega)
    refine ⟨hstarted, fun hmanned c hc => ?_⟩
    rw [hset, List.set_append_right _ _ (Nat.le_refl _), Nat.sub_self, hbatches] at hc
    rcases List.mem_append.mp hc with hc | hc
    · exact hmanned c hc
    · rw [List.mem_singleton.mp hc, hlength]
      have hthree : 0 < UPLOAD_CONCURRENCY := by decide
      change 0 < 0 + min UPLOAD_CONCURRENCY files.length
      omega

/-- The panel is cleared when every file has ended. -/
theorem dismiss_good (h : t.Good) (hended : ∀ b ∈ t.batches, ∀ i < b.files.length, i ∈ b.ended)
    {timers : List Timer} (hsub : ∀ timer ∈ timers, timer ∈ t.timers) :
    ({ t with store := t.store.dismiss, timers := timers } : Tab).Good := by
  refine ⟨List.nodup_nil, fun x hx => (by cases hx), h.spans, h.apart, h.one, h.keeps,
    fun b hb i hi hnot => absurd (hended b hb i hi) hnot, fun timer htimer =>
      h.timed timer (hsub timer htimer),
    fun hne => ⟨fun x hx => (by cases hx), (h.cleared ?_).2⟩⟩
  rintro hnil
  obtain ⟨timer, htimer⟩ := List.exists_mem_of_ne_nil _ hne
  have hmem := hsub timer htimer
  rw [hnil] at hmem
  cases hmem

/-- The button is there only when every file has ended. -/
theorem ended_of_dismissible (h : t.Good) (hbutton : t.store.Dismissible) (hb : b ∈ t.batches)
    (hi : i < b.files.length) : i ∈ b.ended := by
  by_contra hnot
  obtain ⟨x, hx, -, hactive⟩ := h.shown b hb i hi hnot
  have hcount := List.countP_eq_zero.mp hbutton.2 x hx
  cases hstate : x.state <;> simp [hstate, UploadState.active] at hcount hactive

/-- A change of the store while a worker waits. -/
theorem restore_good (h : t.Good) (htimers : t.timers = []) (hstore : Spares t.store store []) :
    ({ t with store := store } : Tab).Good := by
  refine ⟨h.distinct.sublist hstore.ids, fun x hx => ?_, fun c hc => ?_, h.apart, h.one, h.keeps,
    fun c hc i hi hended => ?_, fun timer htimer => ?_, fun hne => absurd htimers hne⟩
  · obtain ⟨y, hy, hid⟩ := List.mem_map.mp (hstore.ids.subset (List.mem_map.mpr ⟨x, hx, rfl⟩))
    change x.id < store.nextId
    rw [hstore.nextId, ← hid]
    exact h.below y hy
  · change c.first + c.files.length ≤ store.nextId
    rw [hstore.nextId]
    exact h.spans c hc
  · obtain ⟨x, hx, hid, hactive⟩ := h.shown c hc i hi hended
    obtain ⟨y, hy, hid', hactive'⟩ := hstore.active x hx hactive List.not_mem_nil
    exact ⟨y, hy, hid'.trans hid, hactive'⟩
  · rw [htimers] at htimer
    cases htimer

/-! Every step. -/

theorem hashed_steady (h : t.Steady) {checksum : Except String String}
    (hstep : t.hashed k w checksum = some t') :
    t'.Steady := by
  unfold hashed at hstep
  split at hstep
  · rename_i hwaits
    split at hstep <;> cases hstep
    · exact h.await hwaits rfl rfl (spares_refl _ [])
    · exact h.finish hwaits rfl (spares_failed t _ _)
  · cases hstep

theorem checked_steady (h : t.Steady) {answer : Except String (List CheckResult)}
    (hstep : t.checked k w answer = some t') : t'.Steady := by
  unfold checked at hstep
  split at hstep
  · rename_i hwaits
    split at hstep
    · split at hstep <;> cases hstep
      · exact h.finish hwaits rfl (spares_foundDuplicate t _)
      · exact h.await hwaits rfl rfl (spares_patch (fun _ => rfl) fun _ _ => rfl)
    · cases hstep
      exact h.finish hwaits rfl (spares_failed t _ _)
  · cases hstep

theorem progressed_steady (h : t.Steady) {percent : ℕ}
    (hstep : t.progressed k w percent = some t') : t'.Steady := by
  unfold progressed at hstep
  split at hstep
  · rename_i hwaits
    cases hstep
    obtain ⟨-, hb, hw⟩ := waiting_spec hwaits
    have hopen := (h.keeps hb).open_of_worker hw (current_ne_returned rfl)
    have htimers := h.no_timer (List.mem_of_getElem? hb) hopen
    exact ⟨restore_good h.toGood htimers (spares_patch (fun _ => rfl) fun _ hactive => hactive),
      h.manned⟩
  · cases hstep

theorem uploaded_steady (h : t.Steady) {answer : Except String UploadResult}
    {thumbUrl : Except String String}
    (hstep : t.uploaded k w answer thumbUrl = some t') : t'.Steady := by
  unfold uploaded at hstep
  split at hstep
  · rename_i hwaits
    split at hstep
    · split at hstep
      · cases hstep
        exact h.finish hwaits rfl (spares_foundDuplicate t _)
      · obtain ⟨file, -, hfinish⟩ := Option.map_eq_some_iff.mp hstep
        rw [← hfinish]
        exact h.finish hwaits rfl (spares_accepted t _ _ file _ _)
    · cases hstep
      exact h.finish hwaits rfl (spares_failed t _ _)
  · cases hstep

theorem microtask_steady (h : t.Steady) (hstep : t.microtask = some t') : t'.Steady := by
  unfold microtask at hstep
  split at hstep
  · cases hstep
  · rename_i k turn rest hmicro
    obtain ⟨-, hrest⟩ := h.phase_of_cons hmicro
    subst hrest
    obtain ⟨b, hb, hturn⟩ := Option.map_eq_some_iff.mp hstep
    rw [← hturn]
    cases turn with
    | resume w => exact resume_steady h hmicro hb
    | element => exact element_steady h hmicro hb
    | settle => exact settle_steady h hmicro hb

theorem fire_steady (h : t.Steady) {id : ℕ} (hstep : t.fire id = some t') : t'.Steady := by
  unfold fire at hstep
  split at hstep
  · rename_i hdue
    cases hstep
    have hne : t.timers ≠ [] := by
      intro hnil
      rw [hnil] at hdue
      simp at hdue
    refine ⟨dismiss_good h.toGood (fun b hb i hi => ?_) fun timer htimer => List.mem_of_mem_filter
      htimer, h.manned⟩
    obtain ⟨k, hk⟩ := List.mem_iff_getElem?.mp hb
    exact (h.keeps hk).all_ended ((h.cleared hne).2 b hb) hi
  · cases hstep

end Tab

open Tab

variable {t t' : Tab}

theorem step_steady {a : Step} (h : t.Steady) (hstep : step a t = some t') : t'.Steady := by
  cases a with
  | enqueue eventId files =>
    cases hstep
    obtain ⟨hgood, hmanned⟩ := enqueue_good h.toGood eventId files
    exact ⟨hgood, hmanned h.manned⟩
  | hashed k w checksum => exact hashed_steady h hstep
  | checked k w answer => exact checked_steady h hstep
  | progressed k w percent => exact progressed_steady h hstep
  | uploaded k w answer thumbUrl => exact uploaded_steady h hstep
  | microtask => exact microtask_steady h hstep
  | dismiss =>
    rw [step] at hstep
    split at hstep
    · rename_i hbutton
      cases hstep
      exact ⟨dismiss_good h.toGood (fun b hb i hi => ended_of_dismissible h.toGood hbutton hb hi)
        fun _ htimer => htimer,
        h.manned⟩
    · cases hstep
  | takeFresh eventId =>
    cases hstep
    exact ⟨⟨h.distinct, h.below, h.spans, h.apart, h.one, h.keeps, h.shown, h.timed, h.cleared⟩,
      h.manned⟩
  | elapse ms =>
    cases hstep
    exact ⟨⟨h.distinct, h.below, h.spans, h.apart, h.one, h.keeps, h.shown, h.timed, h.cleared⟩,
      h.manned⟩
  | fire id => exact fire_steady h hstep

theorem steady_start : ({} : Tab).Steady :=
  ⟨⟨List.nodup_nil, fun x hx => (by cases hx), fun b hb => (by cases hb),
    fun hb _ _ => (by cases hb), .inl rfl,
    fun hb => (by cases hb), fun b hb => (by cases hb), fun timer htimer => (by cases htimer),
    fun hne => absurd rfl hne⟩, fun b hb => (by cases hb)⟩

theorem run_steady {steps : List Step} (h : t.Steady) (hrun : run steps t = some t') :
    t'.Steady := by
  induction steps generalizing t with
  | nil =>
    cases hrun
    exact h
  | cons a rest ih =>
    obtain ⟨mid, hstep, hrest⟩ := Option.bind_eq_some_iff.mp hrun
    exact ih (step_steady h hstep) hrest

end EventLens.Panel
