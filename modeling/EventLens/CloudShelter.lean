import EventLens.CloudCourses

/-!
What bearable failures leave alone. The pipeline over the accounts does to its
tables what the import pipeline does, so that every item stays tended; and as
long as every failure is bearable no account is marked revoked, no item failed
and no listing given up, because a call knows its account to be connected and
every attempt of a listing that failed has another one after it.
-/

namespace EventLens.Import

open Programs Contract
open Tenants (CloudAccount Date TenantStore)

/-- The stage a call starts in; a call that does no import work sees to nothing. -/
def CloudCall.first : CloudCall → Stage
  | .imports c => c.first
  | .connect _ | .listFolders _ _ | .tick _ => .stopping 0

def CloudCall.Post : CloudCall → Verdict → Stage → Prop
  | .imports c, verdict, s => c.Post verdict s
  | .connect _, _, s | .listFolders _ _, _, s | .tick _, _, s => s = .stopping 0

section Shelter

variable {cipher : CloudCipher} {fuel : ℕ} {p : CloudPool} {w : CloudWorld} {o : ImportOp}
  {e : ImportEvent} {N : Multiset Course} {g : Course} {c : CloudCall} {j : JobId}

/-! The import tables. -/

theorem freshAccessToken_imports (account : CloudAccount) (refreshed : Except ImportError String) :
    (freshAccessToken cipher account refreshed w).2.toImportWorld = w.toImportWorld := by
  unfold freshAccessToken
  split
  · rfl
  · split <;> rfl

/-- On the import tables and the queue an operation acts as in the import pipeline. -/
theorem cloudHandler_imports (cipher : CloudCipher) (o : ImportOp) (r : ImportRes o)
    (w : CloudWorld) :
    ∃ r', importHandler o r' w.toImportWorld =
      ((cloudHandler cipher o r w).1, (cloudHandler cipher o r w).2.toImportWorld) := by
  cases o
  case requireAccount orgId accountId =>
    refine ⟨(cloudHandler cipher (.requireAccount orgId accountId) r w).1, ?_⟩
    simp only [cloudHandler, importHandler]
    split <;> rfl
  case getFreshAccessToken accountId =>
    refine ⟨(cloudHandler cipher (.getFreshAccessToken accountId) r w).1, ?_⟩
    simp only [cloudHandler, importHandler]
    split
    · exact Prod.ext rfl (freshAccessToken_imports _ _).symm
    · rfl
  all_goals exact ⟨r, rfl⟩

theorem listFolders_follows (orgId accountId : String) :
    (stages anyRemote).Follows (listFolders orgId accountId) (fun _ s => s = .stopping 0)
    (.stopping 0) := by
  refine follows_outside rfl fun account => ?_
  cases account with
  | error e => rfl
  | ok account =>
    refine follows_outside rfl fun accessToken => ?_
    cases accessToken with
    | error e => rfl
    | ok accessToken => rfl

theorem cloudProg_follows (fuel : ℕ) (c : CloudCall) :
    (stages anyRemote).Follows (c.prog fuel) c.Post c.first := by
  cases c with
  | imports c => exact prog_follows (steady_anyRemote fuel) c
  | connect account => rfl
  | listFolders orgId accountId => exact listFolders_follows orgId accountId
  | tick now => rfl

/-- The stages of the waiting and the running calls see to every item. -/
def Watched (N : Multiset Stage) (w : CloudWorld) : Prop :=
  Tended (waiting w.toImportWorld + N) w.toTables w.ended

theorem Watched.idle {N : Multiset Stage} (h : Watched N w) : Watched (.stopping 0 ::ₘ N) w := by
  rw [Watched, Multiset.add_cons]
  exact Tended.call h (.inr ⟨0, rfl⟩)

theorem Watched.drop {N : Multiset Stage} (h : Watched (.stopping 0 ::ₘ N) w) : Watched N w := by
  rw [Watched, Multiset.add_cons] at h
  exact h.drop (fun _ => id) (fun _ hs => hs.elim) (fun _ _ hs => by cases hs) fun _ _ hs => hs.elim

theorem watched_kept (cipher : CloudCipher) (fuel : ℕ) :
    Preserves (cloudServer cipher fuel) Bearable (stages anyRemote) CloudCall.first CloudCall.Post
      Watched where
  accept := by
    intro c N w w' hI hw
    cases c with
    | imports c =>
      obtain ⟨next, hnext, rfl⟩ := Option.map_eq_some_iff.mp hw
      exact (tended_kept.preserves fuel).accept c N _ _ hI hnext
    | connect account =>
      cases hw
      exact hI.idle
    | listFolders orgId accountId =>
      cases hw
      exact hI.idle
    | tick now =>
      cases hw
      exact hI.idle
  perform := by
    intro p t N o r hnotes hI hpermit hbears
    obtain ⟨r', hr'⟩ := cloudHandler_imports cipher o r p.state
    have hanswer :
      (importHandler o r' p.state.toImportWorld).1 = (cloudHandler cipher o r p.state).1 :=
      congrArg Prod.fst hr'
    have hstate : (importHandler o r' p.state.toImportWorld).2 =
        (cloudHandler cipher o r p.state).2.toImportWorld := congrArg Prod.snd hr'
    rw [Watched, Multiset.add_cons] at hI
    have hids := hI.wf.ids
    have hcancel : ∀ k dto, o = .updateJob k dto → dto.status = .cancelled → False := by
      rintro k dto rfl hstatus
      exact hbears.1 hstatus
    obtain ⟨ns, hdeed, hnext, hended⟩ := deed_perform (Q := fun _ _ => True) (K := fun _ => False)
      hids hpermit r' (fun _ _ _ _ => trivial) hcancel
    have hexpects :=
      expects_perform (V := anyRemote) (s := t.notes (stages anyRemote) CloudCall.first)
      hids r' (fun _ _ _ _ _ _ _ _ => trivial)
    have hI' := hI.deed hdeed
    rw [hanswer] at hexpects hnext
    rw [hstate] at hnext hended hI'
    refine ⟨hexpects, ?_⟩
    change Tended (waiting (cloudHandler cipher o r p.state).2.toImportWorld +
      Stage.note _ ⟨o, (cloudHandler cipher o r p.state).1⟩ ::ₘ N) _
      (cloudHandler cipher o r p.state).2.ended
    rw [← Multiset.singleton_add, ← add_assoc, hnext, add_comm (waiting p.state.toImportWorld) ns,
      add_assoc, hended]
    exact hI'
  release := by
    intro c verdict s again N w w' hI hpost hw
    cases c with
    | imports c =>
      obtain ⟨next, hnext, rfl⟩ := Option.map_eq_some_iff.mp hw
      exact (tended_kept.preserves fuel).release c verdict s _ N _ _ hI hpost hnext
    | connect account =>
      cases hw
      cases hpost
      exact hI.drop
    | listFolders orgId accountId =>
      cases hw
      cases hpost
      exact hI.drop
    | tick now =>
      cases hw
      cases hpost
      exact hI.drop

theorem watched_reached (h : (cloudServer cipher fuel).Reaches Bearable cloudStart p) :
    Watched (notesOf (stages anyRemote) CloudCall.first p.threads) p.state := by
  have hstart : Watched 0 cloudStart.state := tended_kept.start
  exact (h.invariant (cloudProg_follows fuel) (watched_kept cipher fuel) rfl hstart).2

/-! The accounts. -/

/-- A row for this organisation and account is there. -/
def CloudWorld.Connected (w : CloudWorld) (q : String × String) : Prop :=
  ∃ a ∈ w.accounts, a.orgId = q.1 ∧ a.id = q.2

/-- Rows change in nothing but their tokens, or come back from being revoked. -/
structure Seated (w w' : CloudWorld) : Prop where
  connected : ∀ q, w.Connected q → w'.Connected q
  kept : (∀ a ∈ w.accounts, a.revokedAt = none) → ∀ a ∈ w'.accounts, a.revokedAt = none

theorem seated_refl (w : CloudWorld) : Seated w w := ⟨fun _ h => h, fun h => h⟩

theorem seated_map {f : CloudAccount → CloudAccount} (horg : ∀ a, (f a).orgId = a.orgId)
    (hid : ∀ a, (f a).id = a.id) (hkept : ∀ a, a.revokedAt = none → (f a).revokedAt = none) :
    Seated w { w with accounts := w.accounts.map f } where
  connected := by
    rintro q ⟨a, ha, ha'⟩
    exact ⟨f a, List.mem_map.mpr ⟨a, ha, rfl⟩, by rw [horg, hid]; exact ha'⟩
  kept := by
    intro h a ha
    obtain ⟨b, hb, rfl⟩ := List.mem_map.mp ha
    exact hkept b (h b hb)

theorem seated_updateAccessToken (accountId token : String) (expiresAt : Date) :
    Seated w (w.updateAccessToken accountId token expiresAt) := by
  refine seated_map (fun a => ?_) (fun a => ?_) fun a ha => ?_
  · split <;> rfl
  · split <;> rfl
  · split <;> exact ha

theorem seated_connect (account : CloudAccount) :
    Seated w { w with
      accounts := (w.tenants.upsertAccount { account with revokedAt := none }).accounts } := by
  unfold TenantStore.upsertAccount
  by_cases hconflict : w.tenants.accounts.any (fun c => c.orgId = account.orgId ∧
      c.provider = account.provider ∧ c.accountEmail = account.accountEmail)
  · simp only [if_pos hconflict]
    refine seated_map (fun a => ?_) (fun a => ?_) fun a ha => ?_
    · split <;> rfl
    · split <;> rfl
    · split
      · rfl
      · exact ha
  · simp only [if_neg hconflict]
    by_cases hid : w.tenants.accounts.any (fun c => c.id = account.id)
    · simp only [if_pos hid]
      exact ⟨fun _ h => h, fun h => h⟩
    · simp only [if_neg hid]
      refine ⟨?_, fun h a ha => ?_⟩
      · rintro q ⟨a, ha, hq⟩
        exact ⟨a, List.mem_append_left _ ha, hq⟩
      · rcases List.mem_append.mp ha with ha | ha
        · exact h a ha
        · rw [List.mem_singleton.mp ha]

/-- Only a refresh that fails takes a seat. -/
theorem cloudHandler_seated (r : ImportRes o)
    (h : Refreshes ⟨o, (cloudHandler cipher o r w).1⟩) :
    Seated w (cloudHandler cipher o r w).2 := by
  cases o
  case requireAccount orgId accountId =>
    simp only [cloudHandler]
    split <;> exact seated_refl w
  case getFreshAccessToken accountId =>
    simp only [Refreshes, cloudHandler] at h ⊢
    split
    · rename_i account haccount
      simp only [haccount, freshAccessToken] at h ⊢
      split
      · exact seated_refl w
      · rename_i hnone
        cases r with
        | ok token => exact seated_updateAccessToken _ _ _
        | error e =>
          rw [hnone] at h
          cases h
    · exact seated_refl w
  all_goals exact ⟨fun _ h => h, fun h => h⟩

/-- `requireAccount` finds an account that is connected and not revoked. -/
theorem getAccount_connected {orgId accountId : String}
    (hkept : ∀ a ∈ w.accounts, a.revokedAt = none) (h : w.Connected (orgId, accountId)) :
    ∃ account, w.tenants.getAccount orgId accountId = some account := by
  obtain ⟨a, ha, horg, hid⟩ := h
  refine Option.isSome_iff_exists.mp (List.find?_isSome.mpr ⟨a, ha, ?_⟩)
  simpa using ⟨hid, horg, hkept a ha⟩

theorem connected_getAccount {orgId accountId : String} {account : CloudAccount}
    (h : w.tenants.getAccount orgId accountId = some account) :
    w.Connected (orgId, account.id) := by
  have hfound := List.find?_some h
  simp only [decide_eq_true_eq] at hfound
  exact ⟨account, List.mem_of_find?_eq_some h, hfound.2.1, rfl⟩

/-- What a call learns of accounts is so. -/
theorem learned_connected {r : ImportRes o}
    (hjobs : ∀ job ∈ w.jobs, w.Connected (job.orgId, job.cloudAccountId)) :
    ∀ q ∈ learned ⟨o, (cloudHandler cipher o r w).1⟩, w.Connected q := by
  cases o
  case getJob k =>
    intro q hq
    obtain ⟨job, hjob, rfl⟩ := List.mem_map.mp hq
    exact hjobs job (mem_of_findRow (Option.mem_toList.mp hjob)).1
  case requireAccount orgId accountId =>
    simp only [cloudHandler]
    cases haccount : w.tenants.getAccount orgId accountId with
    | none => simp [learned]
    | some account =>
      intro q hq
      cases List.mem_singleton.mp hq
      exact connected_getAccount haccount
  all_goals exact fun _ hq => absurd hq List.not_mem_nil

/-! The tables and the queue. -/

/-- The work that an operation queues. -/
def spawned : ImportEvent → List ImportCall
  | ⟨.queueImportFolder k, _⟩ => [.importFolder k]
  | ⟨.queueImportFiles ks, r⟩ =>
    match (r : Except String Unit) with
    | .ok _ => ks.map .importFile
    | .error _ => []
  | _ => []

theorem spawned_queued : ∀ c ∈ spawned e, (CloudCall.imports c).Queued := by
  obtain ⟨o, r⟩ := e
  cases o
  case queueImportFolder k =>
    intro c hc
    cases List.mem_singleton.mp hc
    exact .inl ⟨k, rfl⟩
  case queueImportFiles ks =>
    intro c hc
    cases r with
    | error text => cases hc
    | ok _ =>
      obtain ⟨x, -, rfl⟩ := List.mem_map.mp hc
      exact .inr ⟨x, rfl⟩
  all_goals exact fun _ hc => absurd hc List.not_mem_nil

theorem importHandler_queue (r : ImportRes o) (v : ImportWorld) :
    (importHandler o r v).2.queue = v.queue ++ spawned ⟨o, (importHandler o r v).1⟩ ∧
      (importHandler o r v).2.ended = v.ended := by
  cases o
  case insertItems rows =>
    simp only [importHandler, spawned, List.append_nil]
    split <;> exact ⟨rfl, rfl⟩
  case queueImportFolder k => exact ⟨rfl, rfl⟩
  case queueImportFiles ks =>
    cases r with
    | ok _ => exact ⟨rfl, rfl⟩
    | error text => exact ⟨(List.append_nil _).symm, rfl⟩
  all_goals exact ⟨(List.append_nil _).symm, rfl⟩

theorem cloudHandler_queue (cipher : CloudCipher) (w : CloudWorld) (r : ImportRes o) :
    (cloudHandler cipher o r w).2.queue = w.queue ++ spawned ⟨o, (cloudHandler cipher o r w).1⟩ ∧
      (cloudHandler cipher o r w).2.ended = w.ended := by
  obtain ⟨r', hr'⟩ := cloudHandler_imports cipher o r w
  have hqueue := importHandler_queue r' w.toImportWorld
  rw [hr'] at hqueue
  exact hqueue

theorem cloudHandler_failures (cipher : CloudCipher) (w : CloudWorld) (r : ImportRes o) :
    (cloudHandler cipher o r w).2.failures = w.failures := by
  cases o
  case requireAccount orgId accountId =>
    simp only [cloudHandler]
    split <;> rfl
  case getFreshAccessToken accountId =>
    simp only [cloudHandler, freshAccessToken]
    split
    · split
      · rfl
      · split <;> rfl
    · rfl
  all_goals rfl

/-- A row of `import_job` keeps its account for life. -/
theorem importHandler_jobs (r : ImportRes o) (v : ImportWorld) :
    ∀ job ∈ (importHandler o r v).2.jobs,
      (∃ before ∈ v.jobs, job.orgId = before.orgId ∧ job.cloudAccountId = before.cloudAccountId) ∨
        ∃ n, o = .createJob n ∧ job.orgId = n.orgId ∧ job.cloudAccountId = n.cloudAccountId := by
  have same : ∀ job ∈ v.jobs, ∃ before ∈ v.jobs,
      job.orgId = before.orgId ∧ job.cloudAccountId = before.cloudAccountId := fun job hjob =>
    ⟨job, hjob, rfl, rfl⟩
  cases o
  case createJob n =>
    intro job hjob
    rcases List.mem_append.mp hjob with hjob | hjob
    · exact .inl (same job hjob)
    · cases List.mem_singleton.mp hjob
      exact .inr ⟨n, rfl, rfl, rfl⟩
  case updateJob k dto =>
    intro job hjob
    rcases mem_updateRow.mp hjob with ⟨before, hbefore, -, rfl⟩ | ⟨hjob, -⟩
    · exact .inl ⟨before, hbefore, rfl, rfl⟩
    · exact .inl (same job hjob)
  case incrementCounter k counter =>
    intro job hjob
    rcases mem_updateRow.mp hjob with ⟨before, hbefore, -, rfl⟩ | ⟨hjob, -⟩
    · refine .inl ⟨before, hbefore, ?_⟩
      cases counter <;> exact ⟨rfl, rfl⟩
    · exact .inl (same job hjob)
  case insertItems rows =>
    simp only [importHandler]
    split <;> exact fun job hjob => .inl (same job hjob)
  case queueImportFiles ks => cases r <;> exact fun job hjob => .inl (same job hjob)
  all_goals exact fun job hjob => .inl (same job hjob)

/-- No item becomes failed but by being marked or re-pointed so. -/
theorem importHandler_items (r : ImportRes o) (v : ImportWorld) (hpermit : g.Permits o)
    (hitems : ∀ i ∈ v.items, i.status ≠ .failed) :
    ∀ i ∈ (importHandler o r v).2.items, i.status ≠ .failed := by
  cases o
  case markItem x dto =>
    intro i hi
    rcases mem_updateRow.mp hi with ⟨i', -, -, rfl⟩ | ⟨hi, -⟩
    · exact hpermit
    · exact hitems i hi
  case repointItem x k dto =>
    intro i hi
    rcases mem_updateRow.mp hi with ⟨i', -, -, rfl⟩ | ⟨hi, -⟩
    · rw [apply_status]
      exact hpermit
    · exact hitems i hi
  case insertItems rows =>
    simp only [importHandler]
    split
    · intro i hi
      rcases List.mem_append.mp hi with hi | hi
      · exact hitems i hi
      · obtain ⟨n, -, -, hrow⟩ := mem_freshRows hi
        rw [hrow]
        simp [NewItem.row]
    · exact hitems
  case queueImportFiles ks => cases r <;> exact hitems
  all_goals exact hitems

/-! The invariant. -/

/-- An attempt of the job's listing that has met an error. -/
def struckIn (j : JobId) (N : Multiset Course) : ℕ :=
  N.countP (fun g => g.call = .imports (.importFolder j) ∧ g.struck = true)

/-- What bearable failures leave alone. -/
structure Sheltered (N : Multiset Course) (w : CloudWorld) : Prop where
  accounts : ∀ a ∈ w.accounts, a.revokedAt = none
  connected : ∀ job ∈ w.jobs, w.Connected (job.orgId, job.cloudAccountId)
  known : ∀ g ∈ N, ∀ q ∈ g.known, w.Connected q
  items : ∀ i ∈ w.items, i.status ≠ .failed
  spared : ∀ j, struckIn j N ≠ 0 →
    w.failures.count (.importFolder j) + struckIn j N < IMPORT_ATTEMPTS
  queue : ∀ c ∈ w.queue, (CloudCall.imports c).Queued
  ended : ∀ c, (c, .failed) ∉ w.ended

theorem notes_call (t : CloudThread) :
    (t.notes courses (fun c => { call := c })).call = t.call := by
  obtain ⟨c, past, rest⟩ := t
  induction past using List.reverseRecOn with
  | nil => rfl
  | append_singleton past e ih =>
    rw [notes_advanced c past e rest rest]
    exact ih

theorem running_eq (p : CloudPool) (c : CloudCall) :
    running p c =
    (notesOf courses (fun c => { call := c }) p.threads).countP (fun g => g.call = c) := by
  rw [running, notesOf, Multiset.coe_countP, List.countP_map]
  refine List.countP_congr fun t _ => ?_
  simp [notes_call]

theorem struckIn_cons (j : JobId) (g : Course) (N : Multiset Course) :
    struckIn j (g ::ₘ N) =
      struckIn j N + if g.call = .imports (.importFolder j) ∧ g.struck = true then 1 else 0 :=
  Multiset.countP_cons _ g N

theorem struckIn_le (j : JobId) (N : Multiset Course) :
    struckIn j N ≤ N.countP (fun g => g.call = .imports (.importFolder j)) := by
  rw [struckIn, ← Multiset.countP_filter]
  exact Multiset.countP_le_of_le _ (Multiset.filter_le _ _)

/-- An error of a listing is met while attempts are left. -/
theorem spared_note {f : JobId → ℕ}
    (h : ∀ j, struckIn j (g ::ₘ N) ≠ 0 → f j + struckIn j (g ::ₘ N) < IMPORT_ATTEMPTS)
    (hbears : ∀ j, g.call = .imports (.importFolder j) → errorMet e →
      f j + (g ::ₘ N).countP (fun g => g.call = .imports (.importFolder j)) < IMPORT_ATTEMPTS)
      (j : JobId) :
    struckIn j (g.note e ::ₘ N) ≠ 0 → f j + struckIn j (g.note e ::ₘ N) < IMPORT_ATTEMPTS := by
  intro hne
  by_cases hmet : g.call = .imports (.importFolder j) ∧ errorMet e
  · have hle := struckIn_le j (g.note e ::ₘ N)
    have hsame : (g.note e ::ₘ N).countP (fun g => g.call = .imports (.importFolder j)) =
        (g ::ₘ N).countP (fun g => g.call = .imports (.importFolder j)) := by
      rw [Multiset.countP_cons, Multiset.countP_cons]
      rfl
    have hlt := hbears j hmet.1 hmet.2
    omega
  · have hsame : struckIn j (g.note e ::ₘ N) = struckIn j (g ::ₘ N) := by
      rw [struckIn_cons, struckIn_cons]
      congr 1
      refine if_congr ?_ rfl rfl
      refine and_congr_right fun hcall => ?_
      have hnot : ¬ errorMet e := fun hmet' => hmet ⟨hcall, hmet'⟩
      simp [Course.note, hnot]
    rw [hsame] at hne ⊢
    exact h j hne

/-- What a call may take from the queue as it starts. -/
theorem accept_tables {c : ImportCall} {v next : ImportWorld}
    (h : (importServer fuel).accept c v = some next) :
    next.toTables = v.toTables ∧ next.ended = v.ended ∧ ∀ c ∈ next.queue, c ∈ v.queue := by
  have hqueued :
    ∀ c, (if c ∈ v.queue then some { v with queue := v.queue.erase c } else none) = some next →
      next.toTables = v.toTables ∧ next.ended = v.ended ∧ ∀ c ∈ next.queue, c ∈ v.queue := by
    intro c hc
    split at hc
    · cases hc
      exact ⟨rfl, rfl, fun _ hmem => List.mem_of_mem_erase hmem⟩
    · cases hc
  cases c with
  | importFolder j => exact hqueued _ h
  | importFile x => exact hqueued _ h
  | createImport job =>
    cases h
    exact ⟨rfl, rfl, fun _ => id⟩
  | cancel eventId j =>
    cases h
    exact ⟨rfl, rfl, fun _ => id⟩

theorem Sheltered.start (h : Sheltered N w) (c : CloudCall) :
    Sheltered ({ call := c } ::ₘ N) w where
  accounts := h.accounts
  connected := h.connected
  known := by
    intro g hg
    rcases Multiset.mem_cons.mp hg with rfl | hg
    · exact fun _ hq => absurd hq List.not_mem_nil
    · exact h.known g hg
  items := h.items
  spared j := by
    have hsame : struckIn j ({ call := c } ::ₘ N) = struckIn j N := by simp [struckIn_cons]
    rw [hsame]
    exact h.spared j
  queue := h.queue
  ended := h.ended

theorem Sheltered.accept {w' : CloudWorld} (h : Sheltered N w)
    (hw : (cloudServer cipher fuel).accept c w = some w') : Sheltered ({ call := c } ::ₘ N) w' := by
  have hseated : ∀ {w' : CloudWorld}, Seated w w' → w'.toImportWorld = w.toImportWorld →
      w'.failures = w.failures → Sheltered N w' := fun hseat himports hfailures =>
    { accounts := hseat.kept h.accounts
      connected := fun job hjob => hseat.connected _ (h.connected job (himports ▸ hjob))
      known := fun g hg q hq => hseat.connected q (h.known g hg q hq)
      items := fun i hi => h.items i (himports ▸ hi)
      spared := hfailures ▸ h.spared
      queue := fun c hc => h.queue c (himports ▸ hc)
      ended := fun c hc => h.ended c (himports ▸ hc) }
  refine Sheltered.start ?_ c
  cases c with
  | imports c =>
    obtain ⟨next, hnext, rfl⟩ := Option.map_eq_some_iff.mp hw
    obtain ⟨htables, hended, hqueue⟩ := accept_tables hnext
    have hjobs : next.jobs = w.jobs := congrArg Tables.jobs htables
    have hitems : next.items = w.items := congrArg Tables.items htables
    exact
      { accounts := h.accounts
        connected := fun job hjob => h.connected job (hjobs ▸ hjob)
        known := h.known
        items := fun i hi => h.items i (hitems ▸ hi)
        spared := h.spared
        queue := fun c hc => h.queue c (hqueue c hc)
        ended := fun c hc => h.ended c (hended ▸ hc) }
  | connect account =>
    cases hw
    exact hseated (seated_connect account) rfl rfl
  | listFolders orgId accountId =>
    cases hw
    exact h
  | tick now =>
    cases hw
    exact hseated ⟨fun _ hq => hq, fun hkept => hkept⟩ rfl rfl

theorem Sheltered.perform (r : ImportRes o) (h : Sheltered (g ::ₘ N) w) (hpermit : g.Permits o)
    (hrefresh : Refreshes ⟨o, (cloudHandler cipher o r w).1⟩)
    (hbears : ∀ j, g.call = .imports (.importFolder j) →
    errorMet ⟨o, (cloudHandler cipher o r w).1⟩ →
      w.failures.count (.importFolder j) +
        (g ::ₘ N).countP (fun g => g.call = .imports (.importFolder j)) < IMPORT_ATTEMPTS) :
    Sheltered (g.note ⟨o, (cloudHandler cipher o r w).1⟩ ::ₘ N) (cloudHandler cipher o r w).2 := by
  have hseat := cloudHandler_seated r hrefresh
  obtain ⟨hqueue, hended⟩ := cloudHandler_queue cipher w r
  obtain ⟨r', hr'⟩ := cloudHandler_imports cipher o r w
  have hstate :
    (importHandler o r' w.toImportWorld).2 = (cloudHandler cipher o r w).2.toImportWorld :=
    congrArg Prod.snd hr'
  have hg := h.known g (Multiset.mem_cons_self g N)
  refine
    { accounts := hseat.kept h.accounts
      connected := fun job hjob => ?_
      known := fun g' hg' q hq => hseat.connected q ?_
      items := ?_
      spared := ?_
      queue := fun c hc => ?_
      ended := fun c hc => h.ended c (hended ▸ hc) }
  · rw [← hstate] at hjob
    rcases importHandler_jobs r' w.toImportWorld job hjob with
      ⟨before, hbefore, horg, haccount⟩ | ⟨n, rfl, horg, haccount⟩
    · rw [horg, haccount]
      exact hseat.connected _ (h.connected before hbefore)
    · rw [horg, haccount]
      exact hseat.connected _ (hg _ hpermit)
  · rcases Multiset.mem_cons.mp hg' with rfl | hg'
    · rcases List.mem_append.mp hq with hq | hq
      · exact hg q hq
      · exact learned_connected h.connected q hq
    · exact h.known g' (Multiset.mem_cons_of_mem hg') q hq
  · have hitems := importHandler_items r' w.toImportWorld hpermit h.items
    rw [hstate] at hitems
    exact hitems
  · rw [cloudHandler_failures]
    exact spared_note h.spared hbears
  · rw [hqueue] at hc
    rcases List.mem_append.mp hc with hc | hc
    · exact h.queue c hc
    · exact spawned_queued c hc

/-- A course goes that leaves no failed attempt behind. -/
theorem Sheltered.drop (h : Sheltered (g ::ₘ N) w) : Sheltered N w where
  accounts := h.accounts
  connected := h.connected
  known g' hg' := h.known g' (Multiset.mem_cons_of_mem hg')
  items := h.items
  spared j := by
    intro hne
    have hspared := h.spared j
    rw [struckIn_cons] at hspared
    split at hspared <;> omega
  queue := h.queue
  ended := h.ended

theorem Sheltered.release {verdict : Verdict} {again : Bool} {w' : CloudWorld}
    (h : Sheltered (g ::ₘ N) w)
    (hpost : Closes fuel c verdict g)
    (hw : (cloudServer cipher fuel).release c verdict again w = some w') : Sheltered N w' := by
  obtain ⟨hcall, hpost⟩ := hpost
  cases c with
  | connect account =>
    cases hw
    exact h.drop
  | listFolders orgId accountId =>
    cases hw
    exact h.drop
  | tick now =>
    cases hw
    exact h.drop
  | imports c =>
    obtain ⟨next, hnext, rfl⟩ := Option.map_eq_some_iff.mp hw
    have hlate : ∀ {v}, v ≠ .failed → (∀ c', (c', .failed) ∉ w.ended ++ [(c, v)]) := by
      intro v hv c' hc'
      rcases List.mem_append.mp hc' with hc' | hc'
      · exact h.ended c' hc'
      · cases List.mem_singleton.mp hc'
        exact hv rfl
    have hmore :
      (CloudCall.imports c).Queued → ∀ c' ∈ w.queue ++ [c], (CloudCall.imports c').Queued := by
      intro hc c' hc'
      rcases List.mem_append.mp hc' with hc' | hc'
      · exact h.queue c' hc'
      · rw [List.mem_singleton.mp hc']
        exact hc
    cases verdict with
    | unended => cases hnext
    | success =>
      cases hnext
      exact { h.drop with ended := hlate (by simp) }
    | skipped =>
      cases hnext
      exact { h.drop with ended := hlate (by simp) }
    | refused text =>
      cases hnext
      exact { h.drop with ended := hlate (by simp) }
    | rateLimited =>
      cases hnext
      exact { h.drop with queue := hmore hpost.2 }
    | failed =>
      obtain ⟨hstruck, j, hj⟩ := hpost
      cases hj
      have hspared := h.spared j
      rw [struckIn_cons, if_pos ⟨hcall, hstruck⟩] at hspared
      have hlt := hspared (Nat.succ_ne_zero _)
      have hagain : w.failures.count (.importFolder j) + 1 < IMPORT_ATTEMPTS := by omega
      change (importServer fuel).release (.importFolder j) .failed
        (decide (w.failures.count (.importFolder j) + 1 < IMPORT_ATTEMPTS)) _ = some next at hnext
      rw [decide_eq_true hagain] at hnext
      cases hnext
      refine { h.drop with queue := hmore (.inl ⟨j, rfl⟩), spared := fun k hne => ?_ }
      simp only [↓reduceIte, List.count_append, List.count_singleton]
      by_cases hk : k = j
      · subst hk
        simp only [beq_self_eq_true, ↓reduceIte]
        omega
      · have hne' : (ImportCall.importFolder j == .importFolder k) = false := by
          simp [Ne.symm hk]
        rw [hne', if_neg (by simp)]
        exact h.drop.spared k hne

theorem sheltered_kept (cipher : CloudCipher) (fuel : ℕ) :
    Preserves (cloudServer cipher fuel) Bearable courses (fun c => { call := c }) (Closes fuel)
      Sheltered where
  accept _ _ _ _ hI hw := hI.accept hw
  perform := by
    intro p t N o r hnotes hI hpermit hbears
    obtain ⟨-, hrefresh, hcase⟩ := hbears
    have hcall := notes_call t
    refine ⟨⟨?_, ?_⟩, hI.perform r hpermit hrefresh ?_⟩
    · rintro orgId accountId ho hknown
      cases ho
      obtain ⟨account, haccount⟩ := getAccount_connected hI.accounts
        (hI.known _ (Multiset.mem_cons_self _ N) _ hknown)
      simp only [cloudServer, cloudHandler, haccount]
      rfl
    · intro x hx
      rw [hcall] at hx
      rw [hx] at hcase
      exact hcase
    · intro j hj hmet
      rw [hcall] at hj
      simp only [hj] at hcase
      have hlt := hcase hmet
      rw [running_eq, hnotes] at hlt
      exact hlt
  release _ _ _ _ _ _ _ hI hpost hw := hI.release hpost hw

theorem sheltered_reached (h : (cloudServer cipher fuel).Reaches Bearable cloudStart p) :
    (∀ t ∈ p.threads, t.Obeys courses (fun c => { call := c }) (Closes fuel)) ∧
      Sheltered (notesOf courses (fun c => { call := c }) p.threads) p.state := by
  have hstart : Sheltered 0 cloudStart.state :=
    { accounts := by simp [cloudStart]
      connected := by simp [cloudStart]
      known := by simp
      items := by simp [cloudStart]
      spared := by simp [struckIn]
      queue := by simp [cloudStart]
      ended := by simp [cloudStart] }
  exact h.invariant (prog_courses fuel) (sheltered_kept cipher fuel) rfl hstart

end Shelter

end EventLens.Import
