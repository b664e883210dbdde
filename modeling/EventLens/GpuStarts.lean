import EventLens.GpuSweep
import Mathlib.Data.List.Induction

/-!
Duplicate starts. A start command is justified when since the previous one a
stop command was issued, or the worker was observed reporting in and later
observed gone. A sweep takes an unreadable telemetry store for an online
worker, also when that moves a booting box to `running`; the first reading
of a worker that is not there yet then marks the box off.
-/

namespace EventLens.Gpu

open Programs

/-- The worker was observed reporting in and later observed gone. -/
def SeenThenGone (l : List Sight) : Prop :=
  ∃ l₁ l₂, l = l₁ ++ .worker (some true) :: l₂ ∧ Sight.worker (some false) ∈ l₂

/-- Any two start commands have a stop command or an observed end of the box
between them. -/
def NoDuplicateStart (l : List Sight) : Prop :=
  ∀ l₁ l₂ l₃ a b, l = l₁ ++ .start a :: (l₂ ++ .start b :: l₃) →
    (∃ c, Sight.stop c ∈ l₂) ∨ SeenThenGone l₂

/-- What the sights say about the last start: it is over, the box has not
been observed since, or it has been observed reporting in. -/
inductive Boot
  | over | unseen | seen
deriving DecidableEq

def Boot.next : Boot → Sight → Boot
  | _, .start _ => .unseen
  | _, .stop _ => .over
  | .unseen, .worker (some true) => .seen
  | .seen, .worker (some false) => .over
  | b, _ => b

def boot (l : List Sight) : Boot := l.foldl Boot.next .over

theorem boot_append (l l' : List Sight) : boot (l ++ l') = l'.foldl Boot.next (boot l) :=
  List.foldl_append

theorem boot_snoc (l : List Sight) (x : Sight) : boot (l ++ [x]) = (boot l).next x := by
  rw [boot_append]
  rfl

theorem seenThenGone_append {l : List Sight} (h : SeenThenGone l) (l' : List Sight) :
    SeenThenGone (l ++ l') := by
  obtain ⟨l₁, l₂, rfl, hgone⟩ := h
  exact ⟨l₁, l₂ ++ l', by simp, List.mem_append_left _ hgone⟩

theorem seenThenGone_snoc {l : List Sight} (h : Sight.worker (some true) ∈ l) :
    SeenThenGone (l ++ [.worker (some false)]) := by
  obtain ⟨l₁, l₂, rfl⟩ := List.append_of_mem h
  exact ⟨l₁, l₂ ++ [.worker (some false)], by simp, by simp⟩

/-- What `boot` has recorded of the sights after a start command. -/
def BootSpec (l : List Sight) : Boot → Prop
  | .unseen => True
  | .seen => Sight.worker (some true) ∈ l
  | .over => (∃ c, Sight.stop c ∈ l) ∨ SeenThenGone l

theorem bootSpec_append {l : List Sight} {b : Boot} (h : BootSpec l b) (l' : List Sight) :
    BootSpec (l ++ l') b := by
  cases b with
  | unseen => trivial
  | seen => exact List.mem_append_left _ h
  | «over» =>
    rcases h with ⟨c, hc⟩ | h
    · exact Or.inl ⟨c, List.mem_append_left _ hc⟩
    · exact Or.inr (seenThenGone_append h l')

theorem bootSpec_next {l : List Sight} {b : Boot} (h : BootSpec l b) (x : Sight) :
    BootSpec (l ++ [x]) (b.next x) := by
  cases x with
  | start accepted => trivial
  | stop accepted => exact Or.inl ⟨accepted, by simp⟩
  | worker reading =>
    match b, reading with
    | .unseen, some true => exact List.mem_append_right _ (by simp)
    | .seen, some false => exact Or.inr (seenThenGone_snoc h)
    | .unseen, none => trivial
    | .unseen, some false => trivial
    | .seen, none => exact bootSpec_append h _
    | .seen, some true => exact bootSpec_append h _
    | .over, none => exact bootSpec_append h _
    | .over, some true => exact bootSpec_append h _
    | .over, some false => exact bootSpec_append h _
  | machine status => cases b <;> exact bootSpec_append h _
  | wrote s => cases b <;> exact bootSpec_append h _
  | stopFailed => cases b <;> exact bootSpec_append h _
  | confirmedOff => cases b <;> exact bootSpec_append h _

theorem bootSpec_after_start (l₁ l₂ : List Sight) (a : Bool) :
    BootSpec l₂ (boot (l₁ ++ .start a :: l₂)) := by
  induction l₂ using List.reverseRecOn with
  | nil =>
    rw [boot_snoc]
    trivial
  | append_singleton l₂ x ih =>
    rw [← List.cons_append, ← List.append_assoc, boot_snoc]
    exact bootSpec_next ih x

/-- Every start command comes when the last start is over. -/
abbrev StartsOver (l : List Sight) : Prop :=
  Throughout (fun past x => ∀ b, x = .start b → boot past = .over) l

theorem noDuplicateStart_of_startsOver {l : List Sight} (h : StartsOver l) :
    NoDuplicateStart l := by
  intro l₁ l₂ l₃ a b hl
  have hover : boot (l₁ ++ .start a :: l₂) = .over := by
    refine h _ (.start b) l₃ ?_ b rfl
    rw [hl, List.append_assoc, List.cons_append]
  have hspec := bootSpec_after_start l₁ l₂ a
  rw [hover] at hspec
  exact hspec

/-- Sights without a start command. -/
theorem startsOver_append {l rest : List Sight} (h : StartsOver l)
    (hrest : ∀ b, Sight.start b ∉ rest) : StartsOver (l ++ rest) := by
  refine throughout_append.mpr ⟨h, ?_⟩
  intro past x later hx b hb
  refine absurd ?_ (hrest b)
  rw [hx, hb]
  simp

/-- Start and stop commands succeed: the provider accepts every start, and no
stop is given up. -/
structure CommandsSucceed (l : List Sight) : Prop where
  start : Sight.start false ∉ l
  stop : Sight.stopFailed ∉ l

/-- The provider never tells the status of the machine. -/
def StatusUnknown (l : List Sight) : Prop :=
  ∀ status, Sight.machine (some status) ∉ l

/-- A sweep does not read an absent worker while the record says `running`
and the worker has not been observed since the last start. -/
def NotUnseen (past : List GpuEpisode) (e : GpuEpisode) : Prop :=
  e.before.record.state = .running → Sight.worker (some false) ∈ sights e.trace →
    boot (sightsOf past) ≠ .unseen

instance (past : List GpuEpisode) (e : GpuEpisode) : Decidable (NotUnseen past e) :=
  inferInstanceAs (Decidable (_ = _ → _ ∈ _ → _ ≠ _))

/-- What a history of sweeps keeps: starts are justified, and a box recorded
as down has no start outstanding. -/
structure StartsKept (l : List Sight) (s : GpuLifecycleState) : Prop where
  starts : StartsOver l
  down : s.state.up = false → boot l = .over

/-- Sights that neither command a start nor bear on whether it is over. -/
def Neutral (l : List Sight) : Prop :=
  ∀ x ∈ l, (∃ s, x = .wrote s) ∨ (∃ status, x = .machine status) ∨ x = .confirmedOff

theorem neutral_no_start {l : List Sight} (h : Neutral l) (b : Bool) : Sight.start b ∉ l := by
  intro hb
  rcases h _ hb with ⟨s, hs⟩ | ⟨status, hs⟩ | hs <;> cases hs

theorem boot_neutral {l rest : List Sight} (h : Neutral rest) : boot (l ++ rest) = boot l := by
  induction rest generalizing l with
  | nil => rw [List.append_nil]
  | cons x rest ih =>
    have hx : boot (l ++ [x]) = boot l := by
      rw [boot_snoc]
      rcases h x List.mem_cons_self with ⟨s, rfl⟩ | ⟨status, rfl⟩ | rfl <;> cases boot l <;> rfl
    have hrest := ih (l := l ++ [x]) (fun y hy => h y (List.mem_cons_of_mem x hy))
    rw [List.append_assoc, List.singleton_append] at hrest
    rw [hrest, hx]

theorem neutral_probe {m : List Sight} (hm : Probe m) : Neutral m := by
  intro x hx
  rcases hm with rfl | ⟨status, -, rfl⟩
  · cases hx
  · exact Or.inr (Or.inl ⟨status, List.mem_singleton.mp hx⟩)

theorem neutral_wrote (s : GpuLifecycleState) : Neutral [.wrote s] := by
  intro x hx
  exact Or.inl ⟨s, List.mem_singleton.mp hx⟩

theorem neutral_append {l l' : List Sight} (h : Neutral l) (h' : Neutral l') :
    Neutral (l ++ l') := by
  intro x hx
  rcases List.mem_append.mp hx with hx | hx
  · exact h x hx
  · exact h' x hx

/-- A stop that is not given up commands the provider and ends in `off`. -/
theorem stopStep_succeeds {s s' : GpuLifecycleState} {l : List Sight} (stop : StopStep s l s')
    (hl : Sight.stopFailed ∉ l) :
    ∃ a b, l = [.wrote a, .stop true, .wrote b] ∧ b.state = .off ∧ s' = b := by
  cases stop with
  | aborted now error => simp at hl
  | failed now error => simp at hl
  | stopped now => exact ⟨_, _, rfl, rfl, rfl⟩

theorem startsKept_stop {l : List Sight} {s s' : GpuLifecycleState} {stop : List Sight}
    (h : StartsOver l) (hstop : StopStep s stop s') (hl : Sight.stopFailed ∉ stop) :
    StartsKept (l ++ stop) s' := by
  obtain ⟨a, b, rfl, -, -⟩ := stopStep_succeeds hstop hl
  refine ⟨startsOver_append h (by simp), fun _ => ?_⟩
  rw [List.append_cons, List.append_cons, boot_neutral (neutral_wrote b), boot_snoc]
  cases boot (l ++ [.wrote a]) <;> rfl

theorem startsKept_neutral {l rest : List Sight} {s' : GpuLifecycleState}
    (h : StartsOver l) (hrest : Neutral rest) (down : s'.state.up = false → boot l = .over) :
    StartsKept (l ++ rest) s' := by
  refine ⟨startsOver_append h (neutral_no_start hrest), fun hs => ?_⟩
  rw [boot_neutral hrest]
  exact down hs

/-- A start command among neutral sights, given when the last start is over. -/
theorem startsKept_start {l pre post : List Sight} {s' : GpuLifecycleState} {b : Bool}
    (h : StartsOver l) (hover : boot l = .over) (hpre : Neutral pre) (hpost : Neutral post)
    (hup : s'.state.up = true) : StartsKept (l ++ (pre ++ .start b :: post)) s' := by
  constructor
  · have hsnoc : StartsOver (l ++ pre ++ [.start b]) := by
      refine throughout_snoc.mpr ⟨startsOver_append h (neutral_no_start hpre), fun _ _ => ?_⟩
      rw [boot_neutral hpre, hover]
    have hall := startsOver_append hsnoc (neutral_no_start hpost)
    rwa [List.append_assoc, List.append_assoc] at hall
  · intro hdown
    rw [hup] at hdown
    cases hdown

theorem startsKept_startStep {config : GpuAutostartConfig} {l start : List Sight}
    {s s' : GpuLifecycleState}
    (h : StartsOver l) (hover : boot l = .over) (hs : s.state = .off)
    (hstart : StartStep config false s start s') (hacc : Sight.start false ∉ start)
    (hunk : StatusUnknown start) : StartsKept (l ++ start) s' := by
  cases hstart with
  | already up _ =>
    rw [hs] at up
    cases up
  | held up hm t => cases hm
  | aborted _ bare now hold error =>
    refine startsKept_neutral h ?_ (fun _ => hover)
    exact neutral_append (neutral_wrote _) (neutral_wrote _)
  | failed _ now hold error m hm => simp at hacc
  | adopted _ now hold id => simp [StatusUnknown] at hunk
  | resumed _ now hold id m hm =>
    have hpre : Neutral (.wrote (pendingStart s now hold) :: m) :=
      neutral_append (neutral_wrote _) (neutral_probe hm)
    exact startsKept_start h hover hpre (neutral_wrote _) rfl
  | posted _ now hold =>
    have hpost : Neutral [] := fun _ hx => absurd hx List.not_mem_nil
    exact startsKept_start h hover (neutral_wrote _) hpost rfl

theorem boot_worker {l : List Sight} (h : boot l = .over) (reading : Option Bool) :
    boot (l ++ [.worker reading]) = .over := by
  rw [boot_snoc, h]
  rcases reading with _ | _ | _ <;> rfl

theorem startsKept_decision {i : SweepReading} {l decision : List Sight}
    {s s' : GpuLifecycleState} (h : StartsKept l s)
    (hvanish : s.state = .running → i.online = false → boot l = .over)
    (hdecision : Decision i s decision s') (hok : CommandsSucceed decision)
    (hunk : StatusUnknown decision) : StartsKept (l ++ decision) s' := by
  obtain ⟨hover, hdown⟩ := h
  cases hdecision with
  | reported hs on t => exact startsKept_neutral hover (neutral_wrote _) (fun h => by cases h)
  | timedOut hs off late stop => exact startsKept_stop hover stop hok.stop
  | vanished hs off t t' =>
    exact startsKept_neutral hover (neutral_wrote _) (fun _ => hvanish hs off)
  | confirmedOff hs off t t' =>
    have hneutral : Neutral [.wrote { s with
        state := .off, since := t, lastStoppedAt := some t' }, .confirmedOff] := by
      intro x hx
      rcases List.mem_cons.mp hx with rfl | hx
      · exact Or.inl ⟨_, rfl⟩
      · exact Or.inr (Or.inr (List.mem_singleton.mp hx))
    exact startsKept_neutral hover hneutral (fun _ => hdown (by rw [hs]; rfl))
  | started hs trigger start =>
    exact startsKept_startStep hover (hdown (by rw [hs]; rfl)) hs start hok.start hunk
  | cleared hs on busy t ht => exact startsKept_neutral hover (neutral_wrote _) hdown
  | working hs on busy ht => simpa using ⟨hover, hdown⟩
  | drained hs on idle ht => exact startsKept_neutral hover (neutral_wrote _) hdown
  | idleStopped hs on idle t ht free late stop => exact startsKept_stop hover stop hok.stop
  | waiting hs on idle t ht => simpa using ⟨hover, hdown⟩
  | resting hs => simpa using ⟨hover, hdown⟩

theorem sweepStep_startsKept {past l : List Sight} {trace : List GpuEvent}
    {s s' : GpuLifecycleState} (h : StartsKept past s)
    (hseen : s.state = .running → Sight.worker (some false) ∈ l → boot past ≠ .unseen)
    (hok : CommandsSucceed l) (hunk : StatusUnknown l) (step : SweepStep s trace l s') :
    StartsKept (past ++ l) s' := by
  cases step with
  | skipped config disabled => simpa using h
  | adopted i enabled rest hs t => simp [StatusUnknown] at hunk
  | decided i enabled rest m hm decision =>
    have hstarts : StartsOver (past ++ [.worker i.reading]) :=
      startsOver_append h.starts (by simp)
    have hdown : s.state.up = false →
        boot (past ++ [.worker i.reading]) = .over :=
      fun hs => boot_worker (h.down hs) i.reading
    have hkept := startsKept_neutral hstarts (neutral_probe hm) hdown
    have hvanish : s.state = .running → i.online = false →
        boot (past ++ [.worker i.reading] ++ m) = .over := by
      intro hs off
      have hreading := online_false off
      rw [boot_neutral (neutral_probe hm), boot_snoc, hreading]
      have hboot := hseen hs (by simp [hreading])
      cases hb : boot past with
      | unseen => exact absurd hb hboot
      | seen => rfl
      | «over» => rfl
    have hfinal := startsKept_decision hkept hvanish decision
      ⟨fun hin => hok.start (by simp [hin]), fun hin => hok.stop (by simp [hin])⟩
      (fun status hin => hunk status (by simp [hin]))
    rw [List.append_assoc, List.append_assoc] at hfinal
    exact hfinal

theorem sweeps_startsKept {w w' : GpuWorld} {es : List GpuEpisode} (hist : GpuHistory w es w')
    (sweeps : ∀ e ∈ es, e.call = .sweep) (hok : CommandsSucceed (sightsOf es))
    (hunk : StatusUnknown (sightsOf es)) (hseen : Throughout NotUnseen es) :
    StartsKept (sightsOf es) w'.record := by
  have hmem : ∀ {past e rest x}, es = past ++ e :: rest → x ∈ sights e.trace →
      x ∈ sightsOf es := by
    intro past e rest x hes hx
    exact List.mem_flatMap.mpr ⟨e, by simp [hes], hx⟩
  let P : List GpuEpisode → GpuEpisode → Prop := fun past e =>
    NotUnseen past e ∧ e.call = .sweep ∧ CommandsSucceed (sights e.trace) ∧
      StatusUnknown (sights e.trace)
  have hsteps : Throughout P es := by
    intro past e rest hes
    refine ⟨hseen past e rest hes, sweeps e (by simp [hes]), ⟨?_, ?_⟩, ?_⟩
    · exact fun hx => hok.start (hmem hes hx)
    · exact fun hx => hok.stop (hmem hes hx)
    · exact fun status hx => hunk status (hmem hes hx)
  refine gpu_invariant (I := fun past s => StartsKept (sightsOf past) s) ?_ ?_ hist hsteps
  · exact ⟨throughout_nil _, fun _ => rfl⟩
  · intro past e s' hI hP step
    obtain ⟨hcond, hsweep, hok', hunk'⟩ := hP
    rw [hsweep] at step
    rw [sightsOf_snoc]
    obtain ⟨status, -, hstep⟩ := step.sweep
    exact sweepStep_startsKept hI hcond hok' hunk' hstep

/-- No duplicate start, in every history of sweeps none of which reads an
absent worker while the record says `running` and the worker has not been
observed since the last start. -/
theorem noDuplicateStart_of_notUnseen {w w' : GpuWorld} {es : List GpuEpisode}
    (hist : GpuHistory w es w') (sweeps : ∀ e ∈ es, e.call = .sweep)
    (hok : CommandsSucceed (sightsOf es)) (hunk : StatusUnknown (sightsOf es))
    (hseen : Throughout NotUnseen es) : NoDuplicateStart (sightsOf es) :=
  noDuplicateStart_of_startsOver (sweeps_startsKept hist sweeps hok hunk hseen).starts

/-! A failed telemetry reading during the boot leads to a second start. -/

/-- A sweep at `now` that finds 30 waiting jobs and this telemetry. -/
def busySweep (now : ℤ) (worker : Except String (List InstanceStatus)) : Call × Setting :=
  (.sweep, { config := webhookConfig, now := now, readings := waitingJobs 30, worker := worker })

/-- Start, a failed reading, an absent worker, start. -/
def blindBoot : List (Call × Setting) :=
  [busySweep 120000 (.ok []), busySweep 240000 (.error "redis"), busySweep 360000 (.ok []),
    busySweep 480000 (.ok [])]

theorem not_noDuplicateStart : ¬ ∀ es w', GpuHistory freshWorld es w' →
    (∀ e ∈ es, e.call = .sweep) → CommandsSucceed (sightsOf es) → StatusUnknown (sightsOf es) →
    NoDuplicateStart (sightsOf es) := by
  intro h
  have hdup := h _ _ (history_playIn blindBoot freshWorld) (by decide)
    ⟨by decide, by decide⟩ (by intro status; cases status <;> decide)
  let l := sightsOf (playIn blindBoot freshWorld).1
  have hl : l = l.take 2 ++ .start true :: ((l.drop 3).take 6 ++ .start true :: l.drop 10) := by
    decide
  rcases hdup _ _ _ _ _ hl with ⟨c, hc⟩ | ⟨l₁, l₂, hsplit, -⟩
  · revert hc
    cases c <;> decide
  · have hmem : Sight.worker (some true) ∈ (l.drop 3).take 6 := by
      rw [hsplit]
      simp
    revert hmem
    decide

/-- Start, the worker reports in, the worker is gone, start. -/
def seenBoot : List (Call × Setting) :=
  [busySweep 120000 (.ok []), busySweep 240000 reporting, busySweep 360000 (.ok []),
    busySweep 480000 (.ok [])]

theorem noDuplicateStart_seenBoot :
    NoDuplicateStart (sightsOf (playIn seenBoot freshWorld).1) :=
  noDuplicateStart_of_notUnseen (history_playIn seenBoot freshWorld) (by decide)
    ⟨by decide, by decide⟩ (by intro status; cases status <;> decide)
    (by decide)

end EventLens.Gpu
