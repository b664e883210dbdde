import EventLens.GpuSweep

/-!
The target of a pause. A JarvisLabs account with one instance hands out an id
for it, and a resume may replace the id. The service finds the id in a
listing it remembers for 20 seconds, in the stored record or in the
configuration; a resume refreshes the record but not the remembered listing.
-/

namespace EventLens.Gpu

open Programs

/-- The id the provider last handed out, and whether the remembered listing
is newer than the last resume that replaced it. -/
structure Account where
  live : String
  listed : Bool
deriving DecidableEq

def Account.next (a : Account) : GpuEvent → Account
  | ⟨.jlResume _ _, .ok (some i)⟩ =>
    if i.machineId = a.live then a else { live := i.machineId, listed := false }
  | ⟨.writeCache _, _⟩ => { a with listed := true }
  | _ => a

/-- The account after the events, when it started with `home`. -/
def account (home : String) (past : List GpuEvent) : Account :=
  past.foldl Account.next { live := home, listed := true }

theorem account_snoc (home : String) (past : List GpuEvent) (e : GpuEvent) :
    account home (past ++ [e]) = (account home past).next e := by
  unfold account
  rw [List.foldl_append]
  rfl

/-- The answers of an account that holds exactly one instance, whose id was
`home` when the configuration was saved. A resume accepts the live id only. -/
def OneInstance (home : String) (past : List GpuEvent) : GpuEvent → Prop
  | ⟨.jlList, .ok instances⟩ =>
    instances.map (fun i => i.machineId) = [(account home past).live]
  | ⟨.jlGet _, .ok (some i)⟩ => i.machineId = (account home past).live
  | ⟨.jlResume target _, .ok payload⟩ =>
    target = (account home past).live ∧ ∀ i ∈ payload, i.machineId ≠ ""
  | ⟨.readConfig, config⟩ => config.jarvislabsMachineId = "" ∨ config.jarvislabsMachineId = home
  | _ => True

/-- The events so far end in a read of the remembered listing that names a
machine, had not expired and was older than the last resume that replaced the
id. A remembered miss sends the call to the record and is no such listing. -/
def StaleListing (home : String) (past : List GpuEvent) : Prop :=
  match past.reverse with
  | ⟨.now, t⟩ :: ⟨.readCache, some c⟩ :: earlier =>
    t - c.cachedAt < instanceCacheMs ∧ c.cached.isSome ∧
      (account home earlier.reverse).listed = false
  | _ => False

instance (home : String) (past : List GpuEvent) : Decidable (StaleListing home past) := by
  unfold StaleListing
  split <;> infer_instance

theorem staleListing_snoc {home : String} {past : List GpuEvent} {c : InstanceCache} {t : ℤ}
    (hyoung : t - c.cachedAt < instanceCacheMs) (hnamed : c.cached.isSome)
    (hlisted : (account home past).listed = false) :
    StaleListing home (past ++ [⟨.readCache, some c⟩] ++ [⟨.now, t⟩]) := by
  unfold StaleListing
  rw [List.reverse_append, List.reverse_append]
  change _ ∧ _ ∧ (account home past.reverse.reverse).listed = false
  rw [List.reverse_reverse]
  exact ⟨hyoung, hnamed, hlisted⟩

def GpuOp.isPause : GpuOp → Bool
  | .jlPause _ => true
  | _ => false

/-- A pause that is not resolved from a stale listing has the live id. -/
def PausesLive (home : String) (past : List GpuEvent) (o : GpuOp) : Prop :=
  ¬ StaleListing home past → ∀ id, o = .jlPause id → id = (account home past).live

abbrev accountContract (home : String) : Contract GpuOp GpuRes (GpuWorld × List GpuEvent) :=
  alone gpuHandler (OneInstance home) (PausesLive home)

theorem gpuHandler_lawful : Lawful gpuHandler := by
  intro o r w
  cases o <;> rfl

/-- A stored id is the live one; without one the id was never replaced. -/
def Named (home : String) (past : List GpuEvent) (machineId : Option String) : Prop :=
  match truthy machineId with
  | some id => id = (account home past).live
  | none => (account home past).live = home

/-- A listing that is not stale names the live machine. -/
structure ListingFits (home : String) (g : GpuWorld × List GpuEvent) : Prop where
  live : (account home g.2).live = home ∨ (account home g.2).live ≠ ""
  cache : (account home g.2).listed = true → ∀ c ∈ g.1.instanceCache, ∀ i ∈ c.cached,
    i.machineId = (account home g.2).live

/-- The record names the live machine, and so does a listing that is not
stale. -/
structure Fits (home : String) (g : GpuWorld × List GpuEvent) : Prop
    extends ListingFits home g where
  record : Named home g.2 g.1.record.machineId

/-- The record and the live id are as before. -/
def Same (home : String) (g g' : GpuWorld × List GpuEvent) : Prop :=
  g'.1.record = g.1.record ∧ (account home g'.2).live = (account home g.2).live

theorem same_refl (home : String) (g : GpuWorld × List GpuEvent) : Same home g g := ⟨rfl, rfl⟩

theorem same_trans {home : String} {g₁ g₂ g₃ : GpuWorld × List GpuEvent}
    (h : Same home g₁ g₂) (h' : Same home g₂ g₃) : Same home g₁ g₃ :=
  ⟨h'.1.trans h.1, h'.2.trans h.2⟩

theorem named_same {home : String} {g g' : GpuWorld × List GpuEvent} (h : Same home g g')
    {machineId : Option String} (hn : Named home g.2 machineId) : Named home g'.2 machineId := by
  unfold Named at *
  rw [h.2]
  exact hn

/-! Operations that bear neither on the record, nor on the remembered listing,
nor on the account. -/

def Aside : GpuOp → Prop
  | .writeState _ | .writeCache _ | .jlResume _ _ | .jlPause _ => False
  | _ => True

/-- A program all of whose operations are aside. -/
def KeepsAside {α : Type} : GpuProg α → Prop
  | .done _ => True
  | .perform o next => Aside o ∧ ∀ r, KeepsAside (next r)

theorem fits_same {home : String} {g g' : GpuWorld × List GpuEvent} (h : Fits home g)
    (hrecord : g'.1.record = g.1.record) (hcache : g'.1.instanceCache = g.1.instanceCache)
    (haccount : account home g'.2 = account home g.2) : Fits home g' ∧ Same home g g' := by
  have hsame : Same home g g' := ⟨hrecord, congrArg Account.live haccount⟩
  refine ⟨⟨⟨?_, ?_⟩, ?_⟩, hsame⟩
  · rw [haccount]
    exact h.live
  · rw [haccount, hcache]
    exact h.cache
  · rw [hrecord]
    exact named_same hsame h.record

theorem fits_note {home : String} {g : GpuWorld × List GpuEvent} (h : Fits home g) {o : GpuOp}
    (ho : Aside o) (r : GpuRes o) :
    Fits home ((accountContract home).note g ⟨o, r⟩) ∧
      Same home g ((accountContract home).note g ⟨o, r⟩) := by
  have haccount : account home (g.2 ++ [⟨o, r⟩]) = account home g.2 := by
    rw [account_snoc]
    cases o <;> first | exact False.elim ho | rfl
  refine fits_same h ?_ ?_ haccount
  · cases o <;> first | exact False.elim ho | rfl
  · cases o <;> first | exact False.elim ho | rfl

theorem permits_of_ne_pause {home : String} {past : List GpuEvent} {o : GpuOp}
    (ho : ∀ id, o ≠ .jlPause id) : PausesLive home past o :=
  fun _ id hid => absurd hid (ho id)

theorem aside_not_pause {o : GpuOp} (ho : Aside o) (id : String) : o ≠ .jlPause id := by
  intro h
  rw [h] at ho
  exact ho

/-- The notes `g'` after an operation that is aside, from the notes `g`. -/
structure Noted (home : String) (g : GpuWorld × List GpuEvent) (o : GpuOp) (r : GpuRes o)
    (g' : GpuWorld × List GpuEvent) : Prop where
  answer : (gpuHandler o r g.1).1 = r
  expected : OneInstance home g.2 ⟨o, r⟩
  fits : Fits home g'
  same : Same home g g'
  past : g'.2 = g.2 ++ [⟨o, r⟩]

theorem aside_step {α : Type} {home : String} {o : GpuOp} (ho : Aside o)
    {next : GpuRes o → GpuProg α} {Q : α → GpuWorld × List GpuEvent → Prop}
    {g : GpuWorld × List GpuEvent} (h : Fits home g)
    (hnext : ∀ r g', Noted home g o r g' → (accountContract home).Follows (next r) Q g') :
    (accountContract home).Follows (.perform o next) Q g := by
  refine ⟨permits_of_ne_pause (aside_not_pause ho), fun r hr => hnext r _ ?_⟩
  obtain ⟨hfits, hsame⟩ := fits_note h ho r
  exact ⟨hr.1, hr.2, hfits, hsame, rfl⟩

theorem aside_follows {α : Type} {home : String} {p : GpuProg α} (hp : KeepsAside p)
    {g : GpuWorld × List GpuEvent} (h : Fits home g) :
    (accountContract home).Follows p (fun _ g' => Fits home g' ∧ Same home g g') g := by
  induction p generalizing g with
  | done value => exact ⟨h, same_refl home g⟩
  | perform o next ih =>
    refine aside_step hp.1 h (fun r g' a => ?_)
    refine Contract.follows_mono _ ?_ _ _ (ih r (hp.2 r) a.fits)
    rintro value g'' ⟨hfits, hsame⟩
    exact ⟨hfits, same_trans a.same hsame⟩

/-! Writes of the record and of the remembered listing. -/

theorem truthy_some (text : String) :
    truthy (some text) = if text = "" then none else some text := by
  unfold truthy
  by_cases htext : text = ""
  · rw [if_pos htext, htext]
    rfl
  · simp [Option.filter, htext]

theorem named_live {home : String} {g : GpuWorld × List GpuEvent} (h : ListingFits home g) :
    Named home g.2 (some (account home g.2).live) := by
  unfold Named
  rw [truthy_some]
  by_cases hlive : (account home g.2).live = ""
  · rw [if_pos hlive]
    exact h.live.resolve_right (not_not.mpr hlive)
  · rw [if_neg hlive]

theorem write_step {α : Type} {home : String} {s : GpuLifecycleState}
    {next : Unit → GpuProg α} {Q : α → GpuWorld × List GpuEvent → Prop}
    {g : GpuWorld × List GpuEvent} (h : ListingFits home g) (hs : Named home g.2 s.machineId)
    (hnext : ∀ g', Fits home g' → g'.1.record = s →
      (account home g'.2).live = (account home g.2).live →
      (accountContract home).Follows (next ()) Q g') :
    (accountContract home).Follows (.perform (.writeState s) next) Q g := by
  refine ⟨permits_of_ne_pause (fun id => by simp), fun _ _ => hnext _ ?_ rfl ?_⟩
  · have haccount : account home (g.2 ++ [⟨.writeState s, ()⟩]) = account home g.2 :=
      account_snoc home g.2 _
    refine ⟨⟨?_, ?_⟩, ?_⟩
    · change (account home (g.2 ++ _)).live = home ∨ (account home (g.2 ++ _)).live ≠ ""
      rw [haccount]
      exact h.live
    · change (account home (g.2 ++ [⟨.writeState s, ()⟩])).listed = true →
        ∀ c ∈ g.1.instanceCache, ∀ i ∈ c.cached, i.machineId = (account home (g.2 ++ _)).live
      rw [haccount]
      exact h.cache
    · change Named home (g.2 ++ [⟨.writeState s, ()⟩]) s.machineId
      unfold Named at *
      rw [haccount]
      exact hs
  · exact congrArg Account.live (account_snoc home g.2 _)

theorem remember_step {α : Type} {home : String} {c : InstanceCache}
    {next : Unit → GpuProg α} {Q : α → GpuWorld × List GpuEvent → Prop}
    {g : GpuWorld × List GpuEvent} (h : Fits home g)
    (hc : ∀ i ∈ c.cached, i.machineId = (account home g.2).live)
    (hnext : ∀ g', Fits home g' → Same home g g' →
      (accountContract home).Follows (next ()) Q g') :
    (accountContract home).Follows (.perform (.writeCache c) next) Q g := by
  refine ⟨permits_of_ne_pause (fun id => by simp), fun _ _ => ?_⟩
  have hlive : (account home (g.2 ++ [⟨.writeCache c, ()⟩])).live = (account home g.2).live := by
    rw [account_snoc]
    rfl
  have hsame : Same home g ((accountContract home).note g ⟨.writeCache c, ()⟩) := ⟨rfl, hlive⟩
  refine hnext _ ⟨⟨?_, ?_⟩, named_same hsame h.record⟩ hsame
  · rw [hsame.2]
    exact h.live
  · intro _ c' hc' i hi
    cases hc'
    rw [hsame.2]
    exact hc i hi

/-- The machine a listing finds is live unless the listing was stale. -/
def Found (home : String) (g : GpuWorld × List GpuEvent) (found : Option JarvisLabsInstance)
    (g' : GpuWorld × List GpuEvent) : Prop :=
  Fits home g' ∧ Same home g g' ∧
    (¬ StaleListing home g'.2 → ∀ i ∈ found, i.machineId = (account home g'.2).live)

theorem pickInstance_mem {configured : String} {instances : List JarvisLabsInstance}
    {i : JarvisLabsInstance} (h : pickInstance configured instances = some i) :
    i ∈ instances := by
  unfold pickInstance at h
  rcases Option.or_eq_some_iff.mp h with hmatched | ⟨-, hsingle⟩
  · split at hmatched
    · cases hmatched
    · exact List.mem_of_find?_eq_some hmatched
  · match instances, hsingle with
    | [only], hsingle =>
      cases hsingle
      exact List.mem_singleton_self i

theorem found_trans {home : String} {g₁ g₂ g₃ : GpuWorld × List GpuEvent}
    {found : Option JarvisLabsInstance} (h : Same home g₁ g₂) (hf : Found home g₂ found g₃) :
    Found home g₁ found g₃ := ⟨hf.1, same_trans h hf.2.1, hf.2.2⟩

theorem listInstance_follows {home : String} {g : GpuWorld × List GpuEvent}
    (h : Fits home g) : (accountContract home).Follows listInstance (Found home g) g := by
  refine aside_step (by trivial) h (fun config g₁ a₁ => ?_)
  refine aside_step (by trivial) a₁.fits (fun r g₂ a₂ => ?_)
  have same₂ := same_trans a₁.same a₂.same
  cases r with
  | ok instances =>
    refine aside_step (by trivial) a₂.fits (fun now g₃ a₃ => ?_)
    have hpick : ∀ i ∈ pickInstance config.jarvislabsMachineId instances,
        i.machineId = (account home g₃.2).live := by
      intro i hi
      have hlisted : instances.map (fun i => i.machineId) = [(account home g₁.2).live] :=
        a₂.expected
      have hmem := List.mem_map_of_mem (f := fun i => i.machineId) (pickInstance_mem hi)
      rw [hlisted] at hmem
      rw [List.mem_singleton.mp hmem]
      exact (same_trans a₂.same a₃.same).2.symm
    refine remember_step a₃.fits hpick (fun g₄ h₄ same₄ => ?_)
    refine ⟨h₄, same_trans (same_trans same₂ a₃.same) same₄, fun _ i hi => ?_⟩
    rw [same₄.2]
    exact hpick i hi
  | error message =>
    refine aside_step (by trivial) a₂.fits (fun now g₃ a₃ => ?_)
    refine remember_step a₃.fits (fun i hi => by cases hi) (fun g₄ h₄ same₄ => ?_)
    exact ⟨h₄, same_trans (same_trans same₂ a₃.same) same₄, fun _ i hi => by cases hi⟩

theorem refreshInstance_follows {home : String} {g : GpuWorld × List GpuEvent}
    (h : Fits home g) : (accountContract home).Follows refreshInstance (Found home g) g := by
  refine aside_step (by trivial) h (fun configured g₁ a₁ => ?_)
  cases configured with
  | true =>
    refine Contract.follows_mono _ ?_ _ _ (listInstance_follows a₁.fits)
    intro found g' hfound
    exact found_trans a₁.same hfound
  | false => exact ⟨a₁.fits, a₁.same, fun _ i hi => by cases hi⟩

theorem getInstance_follows {home : String} {g : GpuWorld × List GpuEvent}
    (h : Fits home g) : (accountContract home).Follows getInstance (Found home g) g := by
  refine aside_step (by trivial) h (fun cache g₁ a₁ => ?_)
  cases cache with
  | none =>
    refine Contract.follows_mono _ ?_ _ _ (refreshInstance_follows a₁.fits)
    intro found g' hfound
    exact found_trans a₁.same hfound
  | some c =>
    refine aside_step (by trivial) a₁.fits (fun now g₂ a₂ => ?_)
    have same₂ := same_trans a₁.same a₂.same
    change (accountContract home).Follows
      (if now - c.cachedAt < instanceCacheMs then .done c.cached else refreshInstance) _ g₂
    split
    · rename_i hyoung
      refine ⟨a₂.fits, same₂, fun hstale i hi => ?_⟩
      cases hlisted : (account home g.2).listed with
      | false =>
        rw [a₂.past, a₁.past] at hstale
        have hnamed : c.cached.isSome := Option.isSome_of_mem hi
        exact absurd (staleListing_snoc hyoung hnamed hlisted) hstale
      | true =>
        rw [same₂.2]
        exact h.cache hlisted c a₁.answer i hi
    · refine Contract.follows_mono _ ?_ _ _ (refreshInstance_follows a₂.fits)
      intro found g' hfound
      exact found_trans same₂ hfound

theorem chooseMachineId_live {home : String} {past : List GpuEvent}
    {found : Option JarvisLabsInstance} {s : GpuLifecycleState} {config : GpuAutostartConfig}
    (hfound : ∀ i ∈ found, i.machineId = (account home past).live)
    (hs : Named home past s.machineId)
    (hconfig : config.jarvislabsMachineId = "" ∨ config.jarvislabsMachineId = home)
    (hne : chooseMachineId found s config ≠ "") :
    chooseMachineId found s config = (account home past).live := by
  unfold chooseMachineId at *
  unfold Named at hs
  cases hlisted : truthy (found.map (fun i => i.machineId)) with
  | some id =>
    have hmap : found.map (fun i => i.machineId) = some id :=
      (Option.filter_eq_some_iff.mp hlisted).1
    obtain ⟨i, hi, hid⟩ := Option.map_eq_some_iff.mp hmap
    rw [Option.some_or, Option.getD_some, ← hid]
    exact hfound i hi
  | none =>
    rw [hlisted, Option.none_or] at hne
    rw [Option.none_or]
    cases hrecorded : truthy s.machineId with
    | some id =>
      rw [hrecorded] at hs
      exact hs
    | none =>
      rw [hrecorded] at hs hne
      exact (hconfig.resolve_left hne).trans hs.symm

/-- The target is live unless the listing was stale or there is none. -/
def Resolved (home : String) (g : GpuWorld × List GpuEvent) (target : String)
    (g' : GpuWorld × List GpuEvent) : Prop :=
  Fits home g' ∧ Same home g g' ∧
    (¬ StaleListing home g'.2 → target ≠ "" → target = (account home g'.2).live)

/-- The saved configuration knows no other machine. -/
def Configured (home : String) (config : GpuAutostartConfig) : Prop :=
  config.jarvislabsMachineId = "" ∨ config.jarvislabsMachineId = home

theorem resolveMachineId_follows {home : String} {g : GpuWorld × List GpuEvent}
    (h : Fits home g) {config : GpuAutostartConfig} (hconfig : Configured home config)
    {s : GpuLifecycleState} (hs : Named home g.2 s.machineId) :
    (accountContract home).Follows (resolveMachineId config s) (Resolved home g) g := by
  refine Contract.follows_seq _ (getInstance_follows h) ?_
  rintro found g' ⟨hfits, hsame, hfound⟩
  refine ⟨hfits, hsame, fun hstale hne => ?_⟩
  exact chooseMachineId_live (hfound hstale) (named_same hsame hs) hconfig hne

/-! Starting. -/

/-- What every part of a call keeps. -/
abbrev Kept {α : Type} (home : String) (_ : α) (g : GpuWorld × List GpuEvent) : Prop :=
  Fits home g

theorem aside_then {α β : Type} {home : String} {p : GpuProg α} {f : α → GpuProg β}
    {Q : β → GpuWorld × List GpuEvent → Prop} {g : GpuWorld × List GpuEvent}
    (hp : KeepsAside p) (h : Fits home g)
    (hf : ∀ value g', Fits home g' → Same home g g' →
    (accountContract home).Follows (f value) Q g') :
    (accountContract home).Follows (p >>= f) Q g :=
  Contract.follows_seq _ (aside_follows hp h) (fun value g' hg' => hf value g' hg'.1 hg'.2)

theorem startFailed_follows {home : String} {g : GpuWorld × List GpuEvent} (h : Fits home g)
    {pending : GpuLifecycleState} (hs : Named home g.2 pending.machineId)
    (error message : String) :
    (accountContract home).Follows (startFailed pending error message) (Kept home) g := by
  refine write_step h.toListingFits hs (fun g₁ h₁ _ _ => ?_)
  exact aside_step (by trivial) h₁ (fun _ g₂ a₂ => a₂.fits)

/-- An accepted resume hands back the id that is live from then on. -/
theorem resume_live {home : String} {past : List GpuEvent} {target : String}
    {gpuType : Option String} {payload : Option JarvisLabsInstance}
    (hexpected : OneInstance home past ⟨.jlResume target gpuType, .ok payload⟩) :
    (account home (past ++ [⟨.jlResume target gpuType, .ok payload⟩])).live =
      (payload.getD { machineId := target }).machineId := by
  rw [account_snoc]
  cases payload with
  | none => exact hexpected.1.symm
  | some i =>
    change (if i.machineId = (account home past).live then account home past
      else { live := i.machineId, listed := false }).live = i.machineId
    split
    · rename_i hsame
      exact hsame.symm
    · rfl

theorem resume_account (home : String) (past : List GpuEvent) (target : String)
    (gpuType : Option String) (payload : Option JarvisLabsInstance) :
    account home (past ++ [⟨.jlResume target gpuType, .ok payload⟩]) = account home past ∨
      (account home (past ++ [⟨.jlResume target gpuType, .ok payload⟩])).listed = false := by
  rw [account_snoc]
  cases payload with
  | none => exact Or.inl rfl
  | some i =>
    by_cases hsame : i.machineId = (account home past).live
    · exact Or.inl (if_pos hsame)
    · exact Or.inr (congrArg Account.listed (if_neg hsame))

theorem resume_step {α : Type} {home : String} {target : String} {gpuType : Option String}
    {next : Except String (Option JarvisLabsInstance) → GpuProg α}
    {Q : α → GpuWorld × List GpuEvent → Prop} {g : GpuWorld × List GpuEvent}
    (h : Fits home g)
    (haccepted : ∀ payload g', ListingFits home g' →
      (account home g'.2).live = (payload.getD { machineId := target }).machineId →
      (accountContract home).Follows (next (.ok payload)) Q g')
    (hrefused : ∀ message g', Fits home g' → Same home g g' →
      (accountContract home).Follows (next (.error message)) Q g') :
    (accountContract home).Follows (.perform (.jlResume target gpuType) next) Q g := by
  refine ⟨permits_of_ne_pause (fun id => by simp), fun r hr => ?_⟩
  cases r with
  | ok payload =>
    have hlive := resume_live hr.2
    refine haccepted payload _ ⟨?_, ?_⟩ hlive
    · change (account home (g.2 ++ _)).live = home ∨ (account home (g.2 ++ _)).live ≠ ""
      rw [hlive]
      cases payload with
      | none =>
        have htarget : target = (account home g.2).live := hr.2.1
        change target = home ∨ target ≠ ""
        rw [htarget]
        exact h.live
      | some i => exact Or.inr (hr.2.2 i rfl)
    · change (account home (g.2 ++ _)).listed = true → ∀ c ∈ g.1.instanceCache, _
      rcases resume_account home g.2 target gpuType payload with hsame | hunlisted
      · change _ → ∀ c ∈ g.1.instanceCache, ∀ i ∈ c.cached,
          i.machineId = (account home (g.2 ++ _)).live
        rw [hsame]
        exact h.cache
      · intro hlisted
        rw [hunlisted] at hlisted
        cases hlisted
  | error message =>
    have hsame : Fits home (g.1, g.2 ++ [⟨.jlResume target gpuType, .error message⟩]) ∧
        Same home g (g.1, g.2 ++ [⟨.jlResume target gpuType, .error message⟩]) :=
      fits_same h rfl rfl (account_snoc home g.2 _)
    exact hrefused message _ hsame.1 hsame.2

theorem resumeMachine_follows {home : String} {g : GpuWorld × List GpuEvent}
    (h : Fits home g) (config : GpuAutostartConfig) {pending : GpuLifecycleState}
    (hs : Named home g.2 pending.machineId) (target : String) :
    (accountContract home).Follows (resumeMachine config pending target) (Kept home) g := by
  refine resume_step h (fun payload g₁ h₁ hlive => ?_) (fun message g₁ h₁ same₁ => ?_)
  · have hnamed : Named home g₁.2 (some (payload.getD { machineId := target }).machineId) := by
      rw [← hlive]
      exact named_live h₁
    refine write_step h₁ hnamed (fun g₂ h₂ _ _ => ?_)
    change (accountContract home).Follows
      (if (payload.getD { machineId := target }).machineId = target then .done _ else _) _ g₂
    split
    · exact h₂
    · exact aside_step (by trivial) h₂ (fun _ g₃ a₃ => a₃.fits)
  · exact startFailed_follows h₁ (named_same same₁ hs) _ _

theorem startMachine_follows {home : String} {g : GpuWorld × List GpuEvent}
    (h : Fits home g) (config : GpuAutostartConfig) {pending : GpuLifecycleState}
    (hs : Named home g.2 pending.machineId) (target : String) :
    (accountContract home).Follows (startMachine config pending target) (Kept home) g := by
  refine aside_step (by trivial) h (fun r g₁ a₁ => ?_)
  simp only [Prog.bind_done]
  cases hrunning : (r.toOption.join).filter saysRunning with
  | none => exact resumeMachine_follows a₁.fits config (named_same a₁.same hs) target
  | some i =>
    have hfound := (Option.filter_eq_some_iff.mp hrunning).1
    cases r with
    | error message => cases hfound
    | ok answer =>
      obtain rfl : answer = some i := hfound
      have hnamed : Named home g₁.2 (some i.machineId) := by
        have hlive : i.machineId = (account home g.2).live := a₁.expected
        rw [hlive, ← a₁.same.2]
        exact named_live a₁.fits.toListingFits
      refine write_step a₁.fits.toListingFits hnamed (fun g₂ h₂ _ _ => ?_)
      exact aside_step (by trivial) h₂ (fun _ g₃ a₃ => a₃.fits)

theorem startJarvis_follows {home : String} {g : GpuWorld × List GpuEvent}
    (h : Fits home g) {config : GpuAutostartConfig} (hconfig : Configured home config)
    {s pending : GpuLifecycleState} (hs : Named home g.2 s.machineId)
    (hpending : pending.machineId = s.machineId) :
    (accountContract home).Follows (startJarvis config s pending) (Kept home) g := by
  refine Contract.follows_seq _ (resolveMachineId_follows h hconfig hs) ?_
  rintro target g₁ ⟨h₁, same₁, -⟩
  have hnamed : Named home g₁.2 pending.machineId := by
    rw [hpending]
    exact named_same same₁ hs
  split
  · exact startFailed_follows h₁ hnamed _ _
  · exact startMachine_follows h₁ config hnamed target

theorem keepsAside_callWebhook (url authHeader : String) (action : WebhookAction)
    (reason : String) : KeepsAside (callWebhook url authHeader action reason) := by
  unfold callWebhook
  split
  · trivial
  · refine ⟨trivial, fun r => ?_⟩
    cases r <;> trivial

theorem startWebhook_follows {home : String} {g : GpuWorld × List GpuEvent}
    (h : Fits home g) (config : GpuAutostartConfig) (reason : String)
    {pending : GpuLifecycleState} (hs : Named home g.2 pending.machineId) :
    (accountContract home).Follows (startWebhook config reason pending) (Kept home) g := by
  refine aside_then (keepsAside_callWebhook _ _ _ _) h (fun error g₁ h₁ same₁ => ?_)
  cases error with
  | none => exact h₁
  | some message => exact startFailed_follows h₁ (named_same same₁ hs) _ _

theorem beginStart_follows {home : String} {g : GpuWorld × List GpuEvent}
    (h : Fits home g) {config : GpuAutostartConfig} (hconfig : Configured home config)
    (reason : String) (manual : Bool) {s : GpuLifecycleState}
    (hs : Named home g.2 s.machineId) :
    (accountContract home).Follows (beginStart config reason manual s) (Kept home) g := by
  refine aside_step (by trivial) h (fun now g₁ a₁ => ?_)
  have hhold : KeepsAside (startHold config manual s) := by
    cases manual
    · trivial
    · exact ⟨trivial, fun _ => trivial⟩
  change (accountContract home).Follows (startHold config manual s >>= _) _ g₁
  refine aside_then hhold a₁.fits (fun hold g₂ h₂ same₂ => ?_)
  have hnamed₂ := named_same (same_trans a₁.same same₂) hs
  refine write_step h₂.toListingFits hnamed₂ (fun g₃ h₃ _ hlive₃ => ?_)
  have hnamed₃ : Named home g₃.2 s.machineId := by
    unfold Named at *
    rw [hlive₃]
    exact hnamed₂
  refine aside_step (by trivial) h₃ (fun _ g₄ a₄ => ?_)
  have hnamed₄ := named_same a₄.same hnamed₃
  change (accountContract home).Follows
    (if config.provider = .jarvislabs then startJarvis config s _
      else startWebhook config reason _) _ g₄
  split
  · exact startJarvis_follows a₄.fits hconfig hnamed₄ rfl
  · exact startWebhook_follows a₄.fits config reason hnamed₄

theorem start_follows {home : String} {g : GpuWorld × List GpuEvent} (h : Fits home g)
    {config : GpuAutostartConfig} (hconfig : Configured home config) (reason : String)
    (manual : Bool) :
    (accountContract home).Follows (start config reason manual) (Kept home) g := by
  refine aside_step (by trivial) h (fun s g₁ a₁ => ?_)
  have hs : Named home g₁.2 s.machineId := by
    have hrecord : g.1.record = s := a₁.answer
    rw [← hrecord]
    exact named_same a₁.same h.record
  change (accountContract home).Follows (if s.state = .starting ∨ s.state = .running then
    (if manual then holdStarted config reason s else pure s)
    else beginStart config reason manual s) _ g₁
  split
  · split
    · refine aside_step (by trivial) a₁.fits (fun now g₂ a₂ => ?_)
      refine write_step a₂.fits.toListingFits (named_same a₂.same hs) (fun g₃ h₃ _ _ => ?_)
      exact aside_step (by trivial) h₃ (fun _ g₄ a₄ => a₄.fits)
    · exact a₁.fits
  · exact beginStart_follows a₁.fits hconfig reason manual hs

/-! Stopping. -/

theorem pause_step {α : Type} {home : String} {target : String}
    {next : Except String Unit → GpuProg α} {Q : α → GpuWorld × List GpuEvent → Prop}
    {g : GpuWorld × List GpuEvent} (h : Fits home g)
    (htarget : ¬ StaleListing home g.2 → target = (account home g.2).live)
    (hnext : ∀ r g', Fits home g' → Same home g g' →
      (accountContract home).Follows (next r) Q g') :
    (accountContract home).Follows (.perform (.jlPause target) next) Q g := by
  refine ⟨?_, fun r _ => ?_⟩
  · intro hstale id hid
    cases hid
    exact htarget hstale
  · have hsame : Fits home (g.1, g.2 ++ [⟨.jlPause target, r⟩]) ∧
        Same home g (g.1, g.2 ++ [⟨.jlPause target, r⟩]) :=
      fits_same h rfl rfl (account_snoc home g.2 _)
    exact hnext r _ hsame.1 hsame.2

theorem stopFailed_follows {home : String} {g : GpuWorld × List GpuEvent} (h : Fits home g)
    {stopping : GpuLifecycleState} (hs : Named home g.2 stopping.machineId)
    (error message : String) :
    (accountContract home).Follows (stopFailed stopping error message) (Kept home) g := by
  refine write_step h.toListingFits hs (fun g₁ h₁ _ _ => ?_)
  exact aside_step (by trivial) h₁ (fun _ g₂ a₂ => a₂.fits)

theorem stopDone_follows {home : String} {g : GpuWorld × List GpuEvent} (h : Fits home g)
    {stopping : GpuLifecycleState} (hs : Named home g.2 stopping.machineId) (now : ℤ) :
    (accountContract home).Follows (stopDone stopping now) (Kept home) g :=
  write_step h.toListingFits hs (fun _ h₁ _ _ => h₁)

theorem stopJarvis_follows {home : String} {g : GpuWorld × List GpuEvent}
    (h : Fits home g) {config : GpuAutostartConfig} (hconfig : Configured home config)
    {s stopping : GpuLifecycleState} (hs : Named home g.2 s.machineId)
    (hstopping : stopping.machineId = s.machineId) (now : ℤ) :
    (accountContract home).Follows (stopJarvis config s stopping now) (Kept home) g := by
  refine Contract.follows_seq _ (resolveMachineId_follows h hconfig hs) ?_
  rintro target g₁ ⟨h₁, same₁, htarget⟩
  have hnamed : Named home g₁.2 stopping.machineId := by
    rw [hstopping]
    exact named_same same₁ hs
  split
  · exact stopFailed_follows h₁ hnamed _ _
  · rename_i hne
    refine pause_step h₁ (fun hstale => htarget hstale hne) (fun r g₂ h₂ same₂ => ?_)
    have hnamed₂ := named_same same₂ hnamed
    cases r with
    | ok _ => exact stopDone_follows h₂ hnamed₂ now
    | error message => exact stopFailed_follows h₂ hnamed₂ _ _

theorem stopWebhook_follows {home : String} {g : GpuWorld × List GpuEvent}
    (h : Fits home g) (config : GpuAutostartConfig) (reason : String)
    {stopping : GpuLifecycleState} (hs : Named home g.2 stopping.machineId) (now : ℤ) :
    (accountContract home).Follows (stopWebhook config reason stopping now) (Kept home) g := by
  refine aside_then (keepsAside_callWebhook _ _ _ _) h (fun error g₁ h₁ same₁ => ?_)
  have hnamed := named_same same₁ hs
  cases error with
  | none => exact stopDone_follows h₁ hnamed now
  | some message => exact stopFailed_follows h₁ hnamed _ _

theorem stop_follows {home : String} {g : GpuWorld × List GpuEvent} (h : Fits home g)
    {config : GpuAutostartConfig} (hconfig : Configured home config) (reason : String) :
    (accountContract home).Follows (stop config reason) (Kept home) g := by
  refine aside_step (by trivial) h (fun s g₁ a₁ => ?_)
  have hs : Named home g₁.2 s.machineId := by
    have hrecord : g.1.record = s := a₁.answer
    rw [← hrecord]
    exact named_same a₁.same h.record
  refine aside_step (by trivial) a₁.fits (fun now g₂ a₂ => ?_)
  have hs₂ := named_same a₂.same hs
  refine write_step a₂.fits.toListingFits hs₂ (fun g₃ h₃ _ hlive₃ => ?_)
  have hs₃ : Named home g₃.2 s.machineId := by
    unfold Named at *
    rw [hlive₃]
    exact hs₂
  refine aside_step (by trivial) h₃ (fun _ g₄ a₄ => ?_)
  have hs₄ := named_same a₄.same hs₃
  change (accountContract home).Follows
    (if config.provider = .jarvislabs then stopJarvis config s _ now
      else stopWebhook config reason _ now) _ g₄
  split
  · refine stopJarvis_follows a₄.fits hconfig hs₄ ?_ now
    rfl
  · refine stopWebhook_follows a₄.fits config reason ?_ now
    exact hs₄

/-! The other calls. -/

theorem holdIdle_follows {home : String} {g : GpuWorld × List GpuEvent} (h : Fits home g)
    (minutes : ℤ) (userId : String) :
    (accountContract home).Follows (holdIdle minutes userId) (Kept home) g := by
  refine aside_step (by trivial) h (fun s g₁ a₁ => ?_)
  refine aside_step (by trivial) a₁.fits (fun now g₂ a₂ => ?_)
  have hs : Named home g₂.2 s.machineId := by
    have hrecord : g.1.record = s := a₁.answer
    rw [← hrecord]
    exact named_same (same_trans a₁.same a₂.same) h.record
  refine write_step a₂.fits.toListingFits hs (fun g₃ h₃ _ _ => ?_)
  exact aside_step (by trivial) h₃ (fun _ g₄ a₄ => a₄.fits)

theorem clearHold_follows {home : String} {g : GpuWorld × List GpuEvent} (h : Fits home g)
    (userId : String) : (accountContract home).Follows (clearHold userId) (Kept home) g := by
  refine aside_step (by trivial) h (fun s g₁ a₁ => ?_)
  refine aside_step (by trivial) a₁.fits (fun config g₂ a₂ => ?_)
  have hs : Named home g₂.2 s.machineId := by
    have hrecord : g.1.record = s := a₁.answer
    rw [← hrecord]
    exact named_same (same_trans a₁.same a₂.same) h.record
  refine write_step a₂.fits.toListingFits hs (fun g₃ h₃ _ _ => ?_)
  exact aside_step (by trivial) h₃ (fun _ g₄ a₄ => a₄.fits)

theorem keepsAside_assertControllable (config : GpuAutostartConfig) :
    KeepsAside (assertControllable config) := by
  unfold assertControllable
  split
  · refine ⟨trivial, fun configured => ?_⟩
    change KeepsAside (if configured then
      (if config.jarvislabsMachineId = "" then _ else _) else _)
    split
    · split <;> trivial
    · trivial
  · split <;> trivial

/-- A manual control: refused, or its program runs. -/
theorem control_follows {home : String} {g : GpuWorld × List GpuEvent} (h : Fits home g)
    {p : GpuAutostartConfig → GpuProg GpuLifecycleState}
    (hp : ∀ config g', Fits home g' → Configured home config →
      (accountContract home).Follows (p config) (Kept home) g') :
    (accountContract home).Follows (do
      let config ← getGpuAutostartConfig
      match ← assertControllable config with
      | .ok _ => do
        let next ← p config
        pure (.ok next)
      | .error message => pure (.error message) : GpuProg (Except String GpuLifecycleState))
      (Kept home) g := by
  refine aside_step (by trivial) h (fun config g₁ a₁ => ?_)
  change (accountContract home).Follows (assertControllable config >>= _) _ g₁
  refine aside_then (keepsAside_assertControllable config) a₁.fits (fun allowed g₂ h₂ _ => ?_)
  cases allowed with
  | ok _ =>
    refine Contract.follows_seq _ (hp config g₂ h₂ a₁.expected) ?_
    intro next g₃ h₃
    exact h₃
  | error message => exact h₂

theorem heartbeat_follows {home : String} {g : GpuWorld × List GpuEvent} (h : Fits home g) :
    (accountContract home).Follows heartbeat (Kept home) g := by
  have hp : KeepsAside heartbeat := by
    refine ⟨trivial, fun config => ⟨trivial, fun s => ⟨trivial, fun readings =>
      ⟨trivial, fun clock => ?_⟩⟩⟩⟩
    change KeepsAside (if 0 < stuckOf _ then _ else _)
    split
    · exact ⟨trivial, fun _ => ⟨trivial, fun _ => trivial⟩⟩
    · exact ⟨trivial, fun _ => trivial⟩
  exact Contract.follows_mono _ (fun _ _ hg => hg.1) _ _ (aside_follows hp h)

theorem keepsAside_isWorkerOnline : KeepsAside isWorkerOnline := by
  refine ⟨trivial, fun r => ?_⟩
  cases r <;> trivial

theorem getStatus_follows {home : String} {g : GpuWorld × List GpuEvent} (h : Fits home g) :
    (accountContract home).Follows getStatus (Kept home) g := by
  refine aside_step (by trivial) h (fun config g₁ a₁ => ?_)
  refine aside_step (by trivial) a₁.fits (fun s g₂ a₂ => ?_)
  refine aside_step (by trivial) a₂.fits (fun readings g₃ a₃ => ?_)
  refine aside_step (by trivial) a₃.fits (fun clock g₄ a₄ => ?_)
  change (accountContract home).Follows (isWorkerOnline >>= _) _ g₄
  refine aside_then keepsAside_isWorkerOnline a₄.fits (fun online g₅ h₅ _ => ?_)
  refine Contract.follows_seq _ (getInstance_follows h₅) ?_
  rintro machine g₆ ⟨h₆, -, -⟩
  refine aside_step (by trivial) h₆ (fun now g₇ a₇ => ?_)
  have hready : KeepsAside (providerReady config) := by
    unfold providerReady
    split
    · exact ⟨trivial, fun _ => trivial⟩
    · trivial
  change (accountContract home).Follows (providerReady config >>= _) _ g₇
  exact aside_then hready a₇.fits (fun _ g₈ h₈ _ => h₈)

/-! The sweep. -/

theorem queryProviderState_follows {home : String} {g : GpuWorld × List GpuEvent}
    (h : Fits home g) {config : GpuAutostartConfig} (hconfig : Configured home config)
    {s : GpuLifecycleState} (hs : Named home g.2 s.machineId) :
    (accountContract home).Follows (queryProviderState config s)
      (fun _ g' => Fits home g' ∧ Same home g g') g := by
  refine Contract.follows_seq _ (resolveMachineId_follows h hconfig hs) ?_
  rintro target g₁ ⟨h₁, same₁, -⟩
  split
  · exact ⟨h₁, same₁⟩
  · refine aside_step (by trivial) h₁ (fun r g₂ a₂ => ?_)
    cases r with
    | ok i => exact ⟨a₂.fits, same_trans same₁ a₂.same⟩
    | error message => exact ⟨a₂.fits, same_trans same₁ a₂.same⟩

theorem getProviderState_follows {home : String} {g : GpuWorld × List GpuEvent}
    (h : Fits home g) {config : GpuAutostartConfig} (hconfig : Configured home config)
    {s : GpuLifecycleState} (hs : Named home g.2 s.machineId) :
    (accountContract home).Follows (getProviderState config s)
      (fun _ g' => Fits home g' ∧ Same home g g') g := by
  unfold getProviderState
  split
  · refine aside_step (by trivial) h (fun configured g₁ a₁ => ?_)
    cases configured with
    | false => exact ⟨a₁.fits, a₁.same⟩
    | true =>
      refine aside_step (by trivial) a₁.fits (fun now g₂ a₂ => ?_)
      refine aside_step (by trivial) a₂.fits (fun last g₃ a₃ => ?_)
      have same₃ := same_trans (same_trans a₁.same a₂.same) a₃.same
      change (accountContract home).Follows
        (if now - last < providerCheckIntervalMs then .done none else _) _ g₃
      split
      · exact ⟨a₃.fits, same₃⟩
      · refine aside_step (by trivial) a₃.fits (fun _ g₄ a₄ => ?_)
        have same₄ := same_trans same₃ a₄.same
        refine Contract.follows_mono _ ?_ _ _
          (queryProviderState_follows a₄.fits hconfig (named_same same₄ hs))
        rintro _ g' ⟨hfits, hsame⟩
        exact ⟨hfits, same_trans same₄ hsame⟩
  · exact ⟨h, same_refl home g⟩

theorem adoptRunning_follows {home : String} {g : GpuWorld × List GpuEvent} (h : Fits home g)
    {s : GpuLifecycleState} (hs : Named home g.2 s.machineId) :
    (accountContract home).Follows (adoptRunning s) (Kept home) g := by
  refine aside_step (by trivial) h (fun now g₁ a₁ => ?_)
  refine write_step a₁.fits.toListingFits (named_same a₁.same hs) (fun g₂ h₂ _ _ => ?_)
  exact aside_step (by trivial) h₂ (fun _ g₃ a₃ => a₃.fits)

theorem reportRunning_follows {home : String} {g : GpuWorld × List GpuEvent} (h : Fits home g)
    {s : GpuLifecycleState} (hs : Named home g.2 s.machineId) :
    (accountContract home).Follows (reportRunning s) (Kept home) g := by
  refine aside_step (by trivial) h (fun now g₁ a₁ => ?_)
  refine write_step a₁.fits.toListingFits (named_same a₁.same hs) (fun g₂ h₂ _ _ => ?_)
  exact aside_step (by trivial) h₂ (fun _ g₃ a₃ => a₃.fits)

theorem markOff_follows {home : String} {g : GpuWorld × List GpuEvent} (h : Fits home g)
    {s : GpuLifecycleState} (hs : Named home g.2 s.machineId) (entry : AuditEntry) :
    (accountContract home).Follows (markOff s entry) (Kept home) g := by
  refine aside_step (by trivial) h (fun since g₁ a₁ => ?_)
  refine aside_step (by trivial) a₁.fits (fun stoppedAt g₂ a₂ => ?_)
  refine write_step a₂.fits.toListingFits (named_same (same_trans a₁.same a₂.same) hs)
    (fun g₃ h₃ _ _ => ?_)
  exact aside_step (by trivial) h₃ (fun _ g₄ a₄ => a₄.fits)

theorem kept_then {α : Type} {home : String} {g : GpuWorld × List GpuEvent}
    {p : GpuProg α} {status : JobStatus}
    (hp : (accountContract home).Follows p (Kept home) g) :
    (accountContract home).Follows (do let _ ← p; pure status) (Kept home) g := by
  refine Contract.follows_seq _ hp ?_
  intro _ g' hg'
  exact hg'

theorem sweepRunning_follows {home : String} {g : GpuWorld × List GpuEvent} (h : Fits home g)
    {config : GpuAutostartConfig} (hconfig : Configured home config) {s : GpuLifecycleState}
    (hs : Named home g.2 s.machineId) (pending active : ℕ) (now : ℤ) :
    (accountContract home).Follows (sweepRunning config s pending active now) (Kept home) g := by
  unfold sweepRunning
  split
  · cases s.idleSince with
    | none => exact write_step h.toListingFits hs (fun _ h₁ _ _ => h₁)
    | some stamp =>
      change (accountContract home).Follows (if _ then _ else .done JobStatus.success) _ g
      split
      · exact kept_then (stop_follows h hconfig _)
      · exact h
  · split
    · exact write_step h.toListingFits hs (fun _ h₁ _ _ => h₁)
    · exact h

theorem sweepRecord_follows {home : String} {g : GpuWorld × List GpuEvent} (h : Fits home g)
    {config : GpuAutostartConfig} (hconfig : Configured home config) {s : GpuLifecycleState}
    (hs : Named home g.2 s.machineId) (queues : List GpuQueueSummary) (online : Bool) (now : ℤ) :
    (accountContract home).Follows (sweepRecord config s queues online now) (Kept home) g := by
  unfold sweepRecord
  split
  · exact reportRunning_follows h hs
  split
  · exact aside_step (by trivial) h (fun _ g₁ a₁ => kept_then (stop_follows a₁.fits hconfig _))
  split
  · exact markOff_follows h hs _
  split
  · exact markOff_follows h hs _
  change (accountContract home).Follows (if s.state = .off ∧ _ then _ else _) _ g
  split
  · exact kept_then (start_follows h hconfig _ _)
  split
  · exact sweepRunning_follows h hconfig hs _ _ _
  · exact h

theorem sweep_follows {home : String} {g : GpuWorld × List GpuEvent} (h : Fits home g) :
    (accountContract home).Follows handleGpuLifecycleSweep (Kept home) g := by
  refine aside_step (by trivial) h (fun config g₁ a₁ => ?_)
  have hconfig : Configured home config := a₁.expected
  change (accountContract home).Follows
    (if config.enabled then _ else .done JobStatus.skipped) _ g₁
  split
  · refine aside_step (by trivial) a₁.fits (fun s g₂ a₂ => ?_)
    refine aside_step (by trivial) a₂.fits (fun readings g₃ a₃ => ?_)
    refine aside_step (by trivial) a₃.fits (fun clock g₄ a₄ => ?_)
    change (accountContract home).Follows (isWorkerOnline >>= _) _ g₄
    refine aside_then keepsAside_isWorkerOnline a₄.fits (fun online g₅ h₅ same₅ => ?_)
    refine aside_step (by trivial) h₅ (fun now g₆ a₆ => ?_)
    have hs : Named home g₆.2 s.machineId := by
      have hrecord : g₁.1.record = s := a₂.answer
      rw [← hrecord]
      exact named_same (same_trans (same_trans (same_trans (same_trans a₂.same a₃.same)
        a₄.same) same₅) a₆.same) a₁.fits.record
    change (accountContract home).Follows
      (if s.state = .off then _ else sweepRecord config s _ online now) _ g₆
    split
    · refine Contract.follows_seq _ (getProviderState_follows a₆.fits hconfig hs) ?_
      rintro actual g₇ ⟨h₇, same₇⟩
      have hs₇ := named_same same₇ hs
      split
      · exact adoptRunning_follows h₇ hs₇
      · exact sweepRecord_follows h₇ hconfig hs₇ _ _ _
    · exact sweepRecord_follows a₆.fits hconfig hs _ _ _
  · exact a₁.fits

theorem answer_then {α : Type} {home : String} {g : GpuWorld × List GpuEvent}
    {p : GpuProg α} {f : α → Answer} (hp : (accountContract home).Follows p (Kept home) g) :
    (accountContract home).Follows (do let value ← p; pure (f value)) (Kept home) g := by
  refine Contract.follows_seq _ hp ?_
  intro _ g' hg'
  exact hg'

theorem call_follows (home : String) (c : Call) (g : GpuWorld × List GpuEvent)
    (h : Fits home g) : (accountContract home).Follows c.prog (Kept home) g := by
  cases c with
  | sweep => exact answer_then (sweep_follows h)
  | startNow reason =>
    exact answer_then (control_follows h (fun _ _ h' hconfig => start_follows h' hconfig _ _))
  | stopNow reason =>
    exact answer_then (control_follows h (fun _ _ h' hconfig => stop_follows h' hconfig _))
  | holdIdle minutes userId => exact answer_then (holdIdle_follows h minutes userId)
  | clearHold userId => exact answer_then (clearHold_follows h userId)
  | heartbeat => exact answer_then (heartbeat_follows h)
  | getStatus => exact answer_then (getStatus_follows h)

/-- Every pause is issued with the id the provider last handed out. -/
def PausesTheLive (home : String) (l : List GpuEvent) : Prop :=
  ∀ past id r rest, l = past ++ ⟨.jlPause id, r⟩ :: rest → id = (account home past).live

/-- No pause is resolved from a listing that names a machine, was read within
20 seconds and is older than the last resume that replaced the id. -/
abbrev NoStaleStop (home : String) (l : List GpuEvent) : Prop :=
  Throughout (fun past e => e.1.isPause → ¬ StaleListing home past) l

/-- Pauses target the live machine in every history of an account with one
instance in which no stop resolves its target from a stale listing. -/
theorem pausesTheLive_of_noStaleStop {home : String} {w w' : GpuWorld} {es : List GpuEpisode}
    (hist : GpuHistory w es w') (hw : Fits home (w, []))
    (hone : Throughout (OneInstance home) (traceOf es))
    (hfresh : NoStaleStop home (traceOf es)) : PausesTheLive home (traceOf es) := by
  obtain ⟨hpauses, -⟩ := hist.follows gpuHandler_lawful (call_follows home) hw hone
  intro past id r rest htrace
  exact hpauses past _ rest htrace (hfresh past _ rest htrace rfl) id rfl

/-! A stop within 20 seconds of a start whose resume replaced the id. -/

def jarvisConfig : GpuAutostartConfig :=
  { gpuAutostartDefaults with
    enabled := true
    provider := .jarvislabs
    jarvislabsMachineId := "A" }

instance (home : String) (past : List GpuEvent) (e : GpuEvent) :
    Decidable (OneInstance home past e) := by
  unfold OneInstance
  split <;> infer_instance

theorem fits_freshWorld (home : String) : Fits home (freshWorld, []) :=
  ⟨⟨Or.inl rfl, fun _ _ hc => by cases hc⟩, rfl⟩

/-- The start lists `A` and resumes it as `B`; the stop comes at `now`. -/
def replacedThenStopped (now : ℤ) : List (Call × Setting) :=
  [(.startNow "batch", {
      config := jarvisConfig
      now := 0
      listing := .ok [{ machineId := "A" }]
      resumed := .ok (some { machineId := "B" }) }),
    (.stopNow "done", {
      config := jarvisConfig
      now := now
      listing := .ok [{ machineId := "B" }] })]

theorem not_pausesTheLive : ¬ ∀ es w', GpuHistory freshWorld es w' →
    Throughout (OneInstance "A") (traceOf es) → PausesTheLive "A" (traceOf es) := by
  intro h
  let l := traceOf (playIn (replacedThenStopped 10000) freshWorld).1
  have hlive := h _ _ (history_playIn (replacedThenStopped 10000) freshWorld) (by decide)
  have hl : l = l.take 25 ++ ⟨.jlPause "A", .ok ()⟩ :: l.drop 26 := rfl
  have hA := hlive _ _ _ _ hl
  revert hA
  decide

theorem pausesTheLive_replaced :
    PausesTheLive "A" (traceOf (playIn (replacedThenStopped 60000) freshWorld).1) :=
  pausesTheLive_of_noStaleStop (history_playIn (replacedThenStopped 60000) freshWorld)
    (fits_freshWorld "A") (by decide) (by decide)

end EventLens.Gpu
