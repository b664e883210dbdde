import EventLens.CloudShelter
import Mathlib

/-!
Provider failures and the import. Bearable failures kill no account, no item
and no import: once the provider limits the rate no more, every schedule of the
workers comes to an end with every listed file imported or a duplicate. A
refresh that fails once, for whatever reason, marks the account revoked.
-/

namespace EventLens.Import

open Programs Contract

/-! The load of the work under way. -/

/-- A rank, the attempts left, whether the work still waits, and the height of
what is left of its program. -/
abbrev Load := ℕ ×ₗ ℕ ×ₗ ℕ ×ₗ Ordinal.{0}

def load (rank attempts phase : ℕ) (height : Ordinal.{0}) : Load :=
  toLex (rank, toLex (attempts, toLex (phase, height)))

theorem load_rank {m n a b i j : ℕ} {x y : Ordinal.{0}} (h : m < n) : load m a i x < load n b j y :=
  Prod.Lex.toLex_lt_toLex.mpr (.inl h)

theorem load_attempts {n a b i j : ℕ} {x y : Ordinal.{0}} (h : a < b) :
    load n a i x < load n b j y :=
  Prod.Lex.toLex_lt_toLex.mpr (.inr ⟨rfl, Prod.Lex.toLex_lt_toLex.mpr (.inl h)⟩)

theorem load_phase {n a i j : ℕ} {x y : Ordinal.{0}} (h : i < j) : load n a i x < load n a j y :=
  Prod.Lex.toLex_lt_toLex.mpr (.inr ⟨rfl, Prod.Lex.toLex_lt_toLex.mpr (.inr ⟨rfl,
    Prod.Lex.toLex_lt_toLex.mpr (.inl h)⟩)⟩)

theorem load_height {n a i : ℕ} {x y : Ordinal.{0}} (h : x < y) : load n a i x < load n a i y :=
  Prod.Lex.toLex_lt_toLex.mpr (.inr ⟨rfl, Prod.Lex.toLex_lt_toLex.mpr (.inr ⟨rfl,
    Prod.Lex.toLex_lt_toLex.mpr (.inr ⟨rfl, h⟩)⟩)⟩)

theorem load_mono {n a b i : ℕ} {x : Ordinal.{0}} (h : a ≤ b) : load n a i x ≤ load n b i x := by
  rcases Nat.lt_or_eq_of_le h with h | rfl
  · exact le_of_lt (load_attempts h)
  · exact le_refl _

def attemptsLeft (w : CloudWorld) (c : ImportCall) : ℕ := IMPORT_ATTEMPTS - w.failures.count c

/-- The load of a call in progress: calls of the API may queue listings, a call
that met a rate limit goes back to waiting, a listing queues files. -/
noncomputable def CloudThread.load (w : CloudWorld) (t : CloudThread) : Load :=
  match t.call with
  | .imports (.importFolder j) =>
    if t.past.any limitMet then Import.load 4 0 0 t.rest.height
    else Import.load 3 (attemptsLeft w (.importFolder j)) 0 t.rest.height
  | .imports (.importFile _) =>
    if t.past.any limitMet then Import.load 2 0 0 t.rest.height else Import.load 0 0 0 t.rest.height
  | _ => Import.load 5 0 0 t.rest.height

noncomputable def waitingLoad (w : CloudWorld) : ImportCall → Load
  | .importFolder j => load 3 (attemptsLeft w (.importFolder j)) 1 0
  | _ => load 1 0 0 0

noncomputable def workLoad (w : CloudWorld) : ImportCall ⊕ CloudThread → Load
  | .inl c => waitingLoad w c
  | .inr t => CloudThread.load w t

/-- The waiting and the running work. -/
def work (p : CloudPool) : Multiset (ImportCall ⊕ CloudThread) :=
  (p.state.queue.map Sum.inl ++ p.threads.map Sum.inr : List (ImportCall ⊕ CloudThread))

noncomputable def weigh (p : CloudPool) : Multiset Load := (work p).map (workLoad p.state)

section Weigh

variable {cipher : CloudCipher} {fuel : ℕ} {p p' : CloudPool} {w w' : CloudWorld} {t : CloudThread}
  {b : ImportCall ⊕ CloudThread} {s : Multiset (ImportCall ⊕ CloudThread)}

/-- Attempts that failed take load off everything. -/
theorem workLoad_mono (h : ∀ c, w.failures.count c ≤ w'.failures.count c) :
    workLoad w' b ≤ workLoad w b := by
  have hleft : ∀ c, attemptsLeft w' c ≤ attemptsLeft w c := fun c => Nat.sub_le_sub_left (h c) _
  rcases b with c | ⟨c, past, rest⟩
  · cases c with
    | importFolder j => exact load_mono (hleft _)
    | importFile x => exact le_refl _
    | createImport job => exact le_refl _
    | cancel eventId j => exact le_refl _
  · simp only [workLoad, CloudThread.load]
    split
    · split
      · exact le_refl _
      · exact load_mono (hleft _)
    · exact le_refl _
    · exact le_refl _

/-- One piece of work is replaced by lighter ones. -/
theorem weigh_falls (ys : Multiset (ImportCall ⊕ CloudThread)) (hwork : work p = b ::ₘ s)
    (hwork' : work p' = ys + s)
    (hfailures : ∀ c, p.state.failures.count c ≤ p'.state.failures.count c)
    (hlt : ∀ y ∈ ys, workLoad p'.state y < workLoad p.state b) :
    (weigh p').IsDershowitzMannaLT (weigh p) := by
  rw [weigh, weigh, hwork, hwork', Multiset.map_cons, Multiset.map_add]
  refine dershowitzMannaLT_replaced (fun _ _ => workLoad_mono hfailures) fun y hy => ?_
  obtain ⟨y', hy', rfl⟩ := Multiset.mem_map.mp hy
  exact hlt y' hy'

theorem work_split {before after : List CloudThread} (hthreads : p.threads = before ++ t :: after) :
    work p = .inr t ::ₘ work ⟨before ++ after, p.state⟩ := by
  rw [work, hthreads, work, List.map_append, List.map_cons, List.map_append, ← List.append_assoc,
    ← List.append_assoc]
  exact Multiset.coe_eq_coe.mpr List.perm_middle

/-- Work that is queued besides. -/
theorem work_queued {threads : List CloudThread} {cs : List ImportCall}
    (hqueue : w'.queue = w.queue ++ cs) :
    work ⟨threads, w'⟩ =
      (cs.map Sum.inl : List (ImportCall ⊕ CloudThread)) + work ⟨threads, w⟩ := by
  rw [work, work, hqueue, List.map_append, List.append_assoc, Multiset.coe_add, Multiset.coe_eq_coe]
  exact List.perm_append_comm_assoc _ _ _

theorem height_load {c : CloudCall} {past : List ImportEvent} {e : ImportEvent}
    {rest rest' : ImportProg Verdict} (hlimit : ¬ limitMet e) (hlt : rest'.height < rest.height)
    (hfailures : w'.failures = w.failures) :
    CloudThread.load w' ⟨c, past ++ [e], rest'⟩ < CloudThread.load w ⟨c, past, rest⟩ := by
  have hpast : (past ++ [e]).any limitMet = past.any limitMet := by
    simp [List.any_append, hlimit]
  have hleft : ∀ c, attemptsLeft w' c = attemptsLeft w c := fun c => by
    rw [attemptsLeft, hfailures, attemptsLeft]
  simp only [CloudThread.load, hpast, hleft]
  split
  · split
    · exact load_height hlt
    · exact load_height hlt
  · split
    · exact load_height hlt
    · exact load_height hlt
  · exact load_height hlt

/-- Work that a worker takes from the queue. -/
theorem start_falls {c : ImportCall} (hmem : c ∈ p.state.queue) (hc : (CloudCall.imports c).Queued)
    {rest : ImportProg Verdict} :
    (weigh ⟨p.threads ++ [⟨.imports c, [], rest⟩],
      { p.state with queue := p.state.queue.erase c }⟩).IsDershowitzMannaLT (weigh p) := by
  have hwork :
    work p = .inl c ::ₘ work ⟨p.threads, { p.state with queue := p.state.queue.erase c }⟩ := by
    rw [work, work]
    exact Multiset.coe_eq_coe.mpr (((List.perm_cons_erase hmem).map Sum.inl).append_right _)
  refine weigh_falls {.inr ⟨.imports c, [], rest⟩} hwork ?_ (fun _ => Nat.le_refl _) ?_
  · rw [work_split (p := ⟨p.threads ++ [_], _⟩) rfl, List.append_nil]
    rfl
  · intro y hy
    rw [Multiset.mem_singleton.mp hy]
    rcases hc with ⟨j, hj⟩ | ⟨x, hx⟩
    · cases hj
      exact load_phase Nat.zero_lt_one
    · cases hx
      exact load_rank Nat.zero_lt_one

/-- What a call queues weighs less than the call. -/
theorem spawned_lighter {g : Course} {e : ImportEvent} (hpermit : g.Permits e.1)
    (hcall : g.call = t.call) :
    ∀ c ∈ spawned e, waitingLoad w' c < CloudThread.load w t := by
  obtain ⟨o, r⟩ := e
  cases o
  case queueImportFolder k =>
    obtain ⟨job, hjob⟩ := hpermit
    intro c hc
    rw [List.mem_singleton.mp hc]
    simp only [CloudThread.load, ← hcall, hjob]
    exact load_rank (by omega)
  case queueImportFiles ks =>
    obtain ⟨j, hj⟩ := hpermit
    intro c hc
    cases r with
    | error text => cases hc
    | ok _ =>
      obtain ⟨x, -, rfl⟩ := List.mem_map.mp hc
      simp only [CloudThread.load, ← hcall, hj]
      split
      · exact load_rank (by omega)
      · exact load_rank (by omega)
  all_goals exact fun _ hc => absurd hc List.not_mem_nil

theorem perform_falls {before after : List CloudThread} {c : CloudCall} {past : List ImportEvent}
    {o : ImportOp} {next : ImportRes o → ImportProg Verdict} (r : ImportRes o)
    (hthreads : p.threads = before ++ ⟨c, past, .perform o next⟩ :: after)
    (hobeys : ∀ t ∈ p.threads, t.Obeys courses (fun c => { call := c }) (Closes fuel))
    (hlimit : ¬ limitMet ⟨o, (cloudHandler cipher o r p.state).1⟩) :
    (weigh ⟨before ++ ⟨c, past ++ [⟨o, (cloudHandler cipher o r p.state).1⟩],
        next (cloudHandler cipher o r p.state).1⟩ :: after,
      (cloudHandler cipher o r p.state).2⟩).IsDershowitzMannaLT (weigh p) := by
  have hfailures := cloudHandler_failures cipher p.state r
  obtain ⟨hqueue, -⟩ := cloudHandler_queue cipher p.state r
  have hobey := hobeys ⟨c, past, .perform o next⟩ (by simp [hthreads])
  refine weigh_falls
    (.inr ⟨c, past ++ [⟨o, (cloudHandler cipher o r p.state).1⟩],
        next (cloudHandler cipher o r p.state).1⟩ ::ₘ
      (((spawned ⟨o, (cloudHandler cipher o r p.state).1⟩).map Sum.inl :
        List (ImportCall ⊕ CloudThread)) : Multiset _))
    (work_split hthreads) ?_ (fun k => ?_) ?_
  · rw [work_split (p := ⟨before ++ _ :: after, _⟩) rfl, Multiset.cons_add]
    exact congrArg _ (work_queued hqueue)
  · exact Nat.le_of_eq (congrArg (List.count k) hfailures.symm)
  · intro y hy
    rcases Multiset.mem_cons.mp hy with rfl | hy
    · exact height_load hlimit (Prog.height_next o next _) hfailures
    · obtain ⟨k, hk, rfl⟩ := List.mem_map.mp (Multiset.mem_coe.mp hy)
      have hcall := notes_call ⟨c, past, .perform o next⟩
      exact spawned_lighter (t := ⟨c, past, .perform o next⟩)
        (e := ⟨o, (cloudHandler cipher o r p.state).1⟩) hobey.1 hcall k hk

theorem notes_limited (t : CloudThread) :
    (t.notes courses (fun c => { call := c })).limited = t.past.any limitMet := by
  obtain ⟨c, past, rest⟩ := t
  induction past using List.reverseRecOn with
  | nil => rfl
  | append_singleton past e ih =>
    rw [notes_advanced c past e rest rest, List.any_append]
    simp only [courses, Course.note, List.any_cons, List.any_nil, Bool.or_false] at ih ⊢
    rw [← ih]

theorem notes_pages (t : CloudThread) :
    (t.notes courses (fun c => { call := c })).pages = t.past.countP pageListed := by
  obtain ⟨c, past, rest⟩ := t
  induction past using List.reverseRecOn with
  | nil => rfl
  | append_singleton past e ih =>
    rw [notes_advanced c past e rest rest, List.countP_append, List.countP_singleton]
    simp only [courses, Course.note] at ih ⊢
    rw [← ih]

/-- A thread that leaves weighs more than what goes back to waiting for it. -/
theorem leave_falls {before after : List CloudThread} {t : CloudThread}
    (hthreads : p.threads = before ++ t :: after) (cs : List ImportCall)
    (hqueue : w'.queue = p.state.queue ++ cs)
    (hfailures : ∀ c, p.state.failures.count c ≤ w'.failures.count c)
    (hlt : ∀ c ∈ cs, waitingLoad w' c < CloudThread.load p.state t) :
    (weigh ⟨before ++ after, w'⟩).IsDershowitzMannaLT (weigh p) := by
  refine weigh_falls _ (work_split hthreads) (work_queued hqueue) hfailures fun y hy => ?_
  obtain ⟨c, hc, rfl⟩ := List.mem_map.mp (Multiset.mem_coe.mp hy)
  exact hlt c hc

theorem release_falls {before after : List CloudThread} {c : CloudCall} {past : List ImportEvent}
    {verdict : Verdict} {again : Bool}
    (hthreads : p.threads = before ++ ⟨c, past, .done verdict⟩ :: after)
    (hobeys : ∀ t ∈ p.threads, t.Obeys courses (fun c => { call := c }) (Closes fuel))
    (hrelease : (cloudServer cipher fuel).release c verdict again p.state = some w') :
    (weigh ⟨before ++ after, w'⟩).IsDershowitzMannaLT (weigh p) := by
  have hends : Closes fuel c verdict _ := hobeys ⟨c, past, .done verdict⟩ (by simp [hthreads])
  obtain ⟨-, hends⟩ := hends
  have gone : ∀ {w' : CloudWorld}, w'.queue = p.state.queue → w'.failures = p.state.failures →
      (weigh ⟨before ++ after, w'⟩).IsDershowitzMannaLT (weigh p) := fun hqueue hfailures =>
    leave_falls hthreads [] (by rw [hqueue, List.append_nil])
      (fun c => Nat.le_of_eq (congrArg (List.count c) hfailures.symm)) fun _ hc =>
        absurd hc List.not_mem_nil
  cases c with
  | connect account =>
    cases hrelease
    exact gone rfl rfl
  | listFolders orgId accountId =>
    cases hrelease
    exact gone rfl rfl
  | tick now =>
    cases hrelease
    exact gone rfl rfl
  | imports c =>
    obtain ⟨next, hnext, rfl⟩ := Option.map_eq_some_iff.mp hrelease
    cases verdict with
    | unended => cases hnext
    | success =>
      cases hnext
      exact gone rfl rfl
    | skipped =>
      cases hnext
      exact gone rfl rfl
    | refused text =>
      cases hnext
      exact gone rfl rfl
    | rateLimited =>
      cases hnext
      obtain ⟨hlimited, hqueued⟩ := hends
      rw [notes_limited] at hlimited
      refine leave_falls hthreads [c] rfl (fun _ => Nat.le_refl _) fun k hk => ?_
      rw [List.mem_singleton.mp hk]
      rcases hqueued with ⟨j, hj⟩ | ⟨x, hx⟩
      · cases hj
        simp only [CloudThread.load, hlimited, ↓reduceIte]
        exact load_rank (by omega)
      · cases hx
        simp only [CloudThread.load, hlimited, ↓reduceIte]
        exact load_rank (by omega)
    | failed =>
      obtain ⟨-, j, hj⟩ := hends
      cases hj
      have hmore : ∀ c, p.state.failures.count c ≤
          (p.state.failures ++ [ImportCall.importFolder j]).count c := fun c => by
        rw [List.count_append]
        exact Nat.le_add_right _ _
      simp only [↓reduceIte]
      by_cases hagain : p.state.failures.count (.importFolder j) + 1 < IMPORT_ATTEMPTS
      · change (importServer fuel).release (.importFolder j) .failed
          (decide (p.state.failures.count (.importFolder j) + 1 < IMPORT_ATTEMPTS)) _ =
            some next at hnext
        rw [decide_eq_true hagain] at hnext
        cases hnext
        refine leave_falls hthreads [.importFolder j] rfl hmore fun k hk => ?_
        rw [List.mem_singleton.mp hk]
        have hcount : (p.state.failures ++ [ImportCall.importFolder j]).count (.importFolder j) =
            p.state.failures.count (.importFolder j) + 1 := by simp
        simp only [CloudThread.load, waitingLoad, attemptsLeft, hcount]
        split
        · exact load_rank (by omega)
        · exact load_attempts (by omega)
      · change (importServer fuel).release (.importFolder j) .failed
          (decide (p.state.failures.count (.importFolder j) + 1 < IMPORT_ATTEMPTS)) _ =
            some next at hnext
        rw [decide_eq_false hagain] at hnext
        cases hnext
        exact leave_falls hthreads [] (List.append_nil _).symm hmore fun _ hc =>
          absurd hc List.not_mem_nil

/-- The own moves of the workers use up the work there is. -/
theorem own_falls {m : CloudMove} (h : (cloudServer cipher fuel).Reaches Bearable cloudStart p)
    (hown : Own m)
    (hmeets : (cloudServer cipher fuel).Meets Calm m p)
    (hstep : (cloudServer cipher fuel).step m p = some p') :
    (weigh p').IsDershowitzMannaLT (weigh p) := by
  obtain ⟨hobeys, -⟩ := sheltered_reached h
  cases m with
  | start c =>
    obtain ⟨next, hnext, rfl⟩ := Server.step_start hstep
    have hqueued : ∀ c, (CloudCall.imports c).Queued →
        ((if c ∈ p.state.queue then some
          { p.state.toImportWorld with queue := p.state.queue.erase c }
          else none).map fun world => { p.state with toImportWorld := world }) = some next →
        (weigh ⟨p.threads ++ [⟨.imports c, [], c.prog fuel⟩], next⟩).IsDershowitzMannaLT
          (weigh p) := by
      intro c hc hnext
      split at hnext
      · rename_i hmem
        cases hnext
        exact start_falls hmem hc
      · cases hnext
    cases c with
    | imports c =>
      cases c with
      | importFolder j => exact hqueued _ (.inl ⟨j, rfl⟩) hnext
      | importFile x => exact hqueued _ (.inr ⟨x, rfl⟩) hnext
      | createImport job => exact hown.elim
      | cancel eventId j => exact hown.elim
    | connect account => exact hown.elim
    | listFolders orgId accountId => exact hown.elim
    | tick now => exact hown.elim
  | perform i answers =>
    obtain ⟨before, after, c, past, o, next, hthreads, hevent, rfl⟩ := Server.step_perform hstep
    exact perform_falls (answers o) hthreads hobeys (hmeets _ hevent).2
  | leave i again =>
    obtain ⟨before, after, c, past, verdict, w', hthreads, hrelease, rfl⟩ := Server.step_leave hstep
    exact release_falls hthreads hobeys hrelease

/-- A call that does no import work sees to nothing. -/
theorem stage_idle (t : CloudThread) (h : t.call.orders = false) :
    ∃ j, t.notes (stages anyRemote) CloudCall.first = .stopping j := by
  obtain ⟨c, past, rest⟩ := t
  have hfirst : ∃ j, c.first = .stopping j := by
    cases c with
    | imports c =>
      cases c with
      | cancel eventId j => exact ⟨j, rfl⟩
      | importFolder j => cases h
      | importFile x => cases h
      | createImport job => cases h
    | connect account => exact ⟨0, rfl⟩
    | listFolders orgId accountId => exact ⟨0, rfl⟩
    | tick now => exact ⟨0, rfl⟩
  obtain ⟨j, hj⟩ := hfirst
  refine ⟨j, ?_⟩
  induction past using List.reverseRecOn with
  | nil => exact hj
  | append_singleton past e ih =>
    rw [notes_advanced c past e rest rest, ih h]
    obtain ⟨o, r⟩ := e
    cases o <;> rfl

/-- Where no work is left nothing is left to do. -/
theorem imported_resting (h : (cloudServer cipher fuel).Reaches Bearable cloudStart p)
    (hrest : Resting p) :
    Imported p := by
  have hwatched := watched_reached h
  obtain ⟨-, hsheltered⟩ := sheltered_reached h
  have hidle :
    ∀ s ∈ waiting p.state.toImportWorld + notesOf (stages anyRemote) CloudCall.first p.threads,
      ∃ j, s = .stopping j := by
    intro s hs
    rw [waiting, hrest.1] at hs
    rcases Multiset.mem_add.mp hs with hs | hs
    · exact absurd hs (Multiset.notMem_zero s)
    · obtain ⟨t, ht, rfl⟩ := mem_notesOf.mp hs
      exact stage_idle t (hrest.2 t ht)
  have hkept : ∀ j, ¬ GivenUp p.state.ended j := fun j => hsheltered.ended _
  refine ⟨hrest, fun i hi => ?_, fun job hjob hfailed => ?_⟩
  · have hnot : i.status.remaining = false := by
      refine Bool.eq_false_iff.mpr fun hrem => ?_
      rcases hwatched.tended i hi hrem with ⟨s, hs, htends⟩ | hup
      · obtain ⟨j, rfl⟩ := hidle s hs
        exact htends
      · exact hkept _ hup
    have hfailed := hsheltered.items i hi
    cases hstatus : i.status <;> simp_all [ImportItemStatus.remaining]
  · rcases hwatched.retried job hjob hfailed with ⟨s, hs, hretries⟩ | hup
    · obtain ⟨j, rfl⟩ := hidle s hs
      exact hretries
    · exact hkept _ hup

theorem release_some {fuel : ℕ} (c : ImportCall) {verdict : Verdict} (h : verdict ≠ .unended)
    (again : Bool)
    (v : ImportWorld) : ∃ next, (importServer fuel).release c verdict again v = some next := by
  cases verdict with
  | unended => exact absurd rfl h
  | failed => cases again <;> exact ⟨_, rfl⟩
  | success => exact ⟨_, rfl⟩
  | skipped => exact ⟨_, rfl⟩
  | refused text => exact ⟨_, rfl⟩
  | rateLimited => exact ⟨_, rfl⟩

/-- Where work is left a worker can move, unless a listing has all the pages
allowed to it. -/
theorem own_moves (h : (cloudServer cipher fuel).Reaches Bearable cloudStart p) :
    (Imported p ∨ Endless fuel p) ∨
      ∃ m p', Own m ∧ (cloudServer cipher fuel).step m p = some p' := by
  obtain ⟨hobeys, hsheltered⟩ := sheltered_reached h
  by_cases hqueue : p.state.queue = []
  · by_cases hthreads : ∀ t ∈ p.threads, t.call.orders = false
    · exact .inl (.inl (imported_resting h ⟨hqueue, hthreads⟩))
    · push Not at hthreads
      obtain ⟨t, ht, horders⟩ := hthreads
      obtain ⟨i, hi⟩ := List.mem_iff_getElem?.mp ht
      obtain ⟨c, past, rest⟩ := t
      cases rest with
      | perform o next =>
        let m : CloudMove := .perform i (answering album none)
        have hstep : ∃ p', (cloudServer cipher fuel).step m p = some p' := by
          rw [Server.step, hi]
          exact ⟨_, rfl⟩
        obtain ⟨p', hp'⟩ := hstep
        exact .inr ⟨m, p', trivial, hp'⟩
      | done verdict =>
        by_cases hverdict : verdict = .unended
        · subst hverdict
          have hends : Closes fuel c .unended _ := hobeys _ ht
          refine .inl (.inr ⟨_, ht, ?_⟩)
          rw [← notes_pages]
          exact hends.2
        · obtain ⟨w', hw'⟩ :
            ∃ w', (cloudServer cipher fuel).release c verdict false p.state = some w' := by
            cases c with
            | connect account => exact ⟨_, rfl⟩
            | listFolders orgId accountId => exact ⟨_, rfl⟩
            | tick now => exact ⟨_, rfl⟩
            | imports c =>
              obtain ⟨next, hnext⟩ := release_some c hverdict
                (p.state.failures.count c + 1 < IMPORT_ATTEMPTS) p.state.toImportWorld
              exact ⟨_, congrArg (Option.map _) hnext⟩
          refine .inr ⟨.leave i false, ⟨p.threads.eraseIdx i, w'⟩, trivial, ?_⟩
          rw [Server.step, hi]
          simp only [hw', Option.map_some]
  · obtain ⟨c, hmem⟩ := List.exists_mem_of_ne_nil _ hqueue
    have hqueued := hsheltered.queue c hmem
    have hstart : Own (.start (.imports c)) ∧
        ∃ p', (cloudServer cipher fuel).step (.start (.imports c)) p = some p' := by
      rcases hqueued with ⟨j, hj⟩ | ⟨x, hx⟩
      · cases hj
        refine ⟨trivial, ?_⟩
        simp only [Server.step, cloudServer, importServer, if_pos hmem, Option.map_some]
        exact ⟨_, rfl⟩
      · cases hx
        refine ⟨trivial, ?_⟩
        simp only [Server.step, cloudServer, importServer, if_pos hmem, Option.map_some]
        exact ⟨_, rfl⟩
    obtain ⟨hown, p', hp'⟩ := hstart
    exact .inr ⟨_, p', hown, hp'⟩

/-- Bearable failures kill no account, no item and no import. -/
theorem transient_failures_survived
    (h : (cloudServer cipher fuel).Reaches Bearable cloudStart p) : Survives cipher fuel p where
  accounts := (sheltered_reached h).2.accounts
  items := (sheltered_reached h).2.items
  imports :=
    h.inevitable Multiset.wellFounded_isDershowitzMannaLT weigh (fun _ _ _ hcalm => hcalm.1)
    (fun _ _ _ hp hown hmeets hstep => own_falls hp hown hmeets hstep) fun _ hp => own_moves hp

end Weigh

/-! One failure, and one rate limit. -/

/-- The calls of the provider. -/
def ImportOp.remote : ImportOp → Bool
  | .getFreshAccessToken _ | .listFilesPage _ _ _ | .downloadToFile _ _ _ => true
  | _ => false

/-- No failure has left a mark. -/
def Unmarked (p : CloudPool) : Prop :=
  p.state.failures = [] ∧ (∀ t ∈ p.threads, ∀ e ∈ t.past, failure e = none) ∧
    (∀ a ∈ p.state.accounts, a.revokedAt = none) ∧ ∀ i ∈ p.state.items, i.status ≠ .failed

instance (p : CloudPool) : Decidable (Unmarked p) := inferInstanceAs (Decidable (_ ∧ _ ∧ _ ∧ _))

def ImportOp.cancels : ImportOp → Bool
  | .updateJob _ dto => dto.status = .cancelled
  | _ => false

def ImportOp.refreshes : ImportOp → Bool
  | .getFreshAccessToken _ => true
  | _ => false

def ImportError.mends : ImportError → ImportOp → Bool
  | .rateLimit _, _ | .assetChecksumConstraint _, .createAsset _ | _, .requireAccount _ _ => true
  | _, _ => false

instance (e : ImportEvent) : Decidable (Uncancelled e) :=
  decidable_of_iff (e.1.cancels = false) (by
    unfold Uncancelled
    cases e.1 <;> simp [ImportOp.cancels])

instance (e : ImportEvent) : Decidable (Refreshes e) :=
  decidable_of_iff (e.1.refreshes = true → failure e = none) (by
    unfold Refreshes
    cases e.1 <;> simp [ImportOp.refreshes])

instance (e : ImportEvent) : Decidable (Mends e) :=
  decidable_of_iff (∀ error ∈ failure e, error.mends e.1 = true) (by
    unfold Mends
    rcases failure e with _ | error
    · simp
    · cases error <;> cases e.1 <;> simp [ImportError.mends])

instance (p : CloudPool) (t : CloudThread) (e : ImportEvent) : Decidable (Bearable p t e) := by
  unfold Bearable
  refine @instDecidableAnd _ _ inferInstance (@instDecidableAnd _ _ inferInstance ?_)
  split <;> infer_instance

/-- Nobody cancels an import, and a call fails only if it is the provider's and
the first to fail. -/
def Once (p : CloudPool) (_t : CloudThread) (e : ImportEvent) : Prop :=
  Uncancelled e ∧ (failure e ≠ none → e.1.remote = true ∧ Unmarked p)

instance (p : CloudPool) (t : CloudThread) (e : ImportEvent) : Decidable (Once p t e) :=
  inferInstanceAs (Decidable (_ ∧ (_ → _)))

def plainCipher : CloudCipher where
  encrypt := id
  decrypt := id
  lifetimeMs _ := 3600000

def googleAccount : Tenants.CloudAccount where
  id := "account"
  orgId := "org"
  provider := .gDrive
  accountEmail := "owner@example.com"
  refreshTokenEnc := "refresh"
  createdAt := 0

/-- Thread `i` performs its next `n` operations. -/
def cloudPerforms (i n : ℕ) (answers : (o : ImportOp) → ImportRes o) : List CloudMove :=
  List.replicate n (.perform i answers)

def cloudCall (i n : ℕ) (c : CloudCall) : List CloudMove :=
  .start c :: (cloudPerforms i n (answering album none) ++ [.leave i false])

/-- The network is down at the refresh. -/
def offline : (o : ImportOp) → ImportRes o
  | .getFreshAccessToken _ => .error (.other "TypeError: fetch failed")
  | o => answering album none o

/-- The account of an import is connected and the first refresh meets the
network down. -/
def cutOff : List CloudMove :=
  cloudCall 0 0 (.connect googleAccount) ++ cloudCall 0 4 (.imports importAlbum) ++
    .start (.imports (.importFolder 0)) :: cloudPerforms 0 3 offline

theorem not_transient_failures_survived : ¬ ∀ cipher fuel p,
    (cloudServer cipher fuel).Reaches Once cloudStart p → Survives cipher fuel p := by
  intro h
  let run := (cloudServer plainCipher 2).play Once cutOff cloudStart
  let p := run.get (by decide)
  have hreached : (cloudServer plainCipher 2).Reaches Once cloudStart p :=
    Server.Reaches.start.play cutOff (Option.some_get _).symm
  have hrevoked : ∃ a ∈ p.state.accounts, a.revokedAt ≠ none := by decide
  obtain ⟨a, ha, hne⟩ := hrevoked
  exact hne ((h plainCipher 2 p hreached).accounts a ha)

/-- The provider limits the rate of a download. -/
def limiting : (o : ImportOp) → ImportRes o
  | .downloadToFile _ _ _ => .error (.rateLimit 30000)
  | o => answering album none o

/-- The one photo of the album is put back to wait. -/
def slowedDown : List CloudMove :=
  cloudCall 0 0 (.connect googleAccount) ++ cloudCall 0 4 (.imports importAlbum) ++
    cloudCall 0 9 (.imports (.importFolder 0)) ++
    .start (.imports (.importFile 0)) :: (cloudPerforms 0 10 limiting ++ [.leave 0 false])

theorem transient_failures_survived_slowedDown :
    ∃ p, (cloudServer plainCipher 2).play Bearable slowedDown cloudStart = some p ∧
      p.state.queue = [.importFile 0] ∧ Survives plainCipher 2 p := by
  have hrun : ((cloudServer plainCipher 2).play Bearable slowedDown cloudStart).map
      (fun p => p.state.queue) = some [.importFile 0] := by decide
  obtain ⟨p, hplay, hqueue⟩ := Option.map_eq_some_iff.mp hrun
  exact ⟨p, hplay, hqueue,
    transient_failures_survived (Server.Reaches.start.play slowedDown hplay)⟩

end EventLens.Import
