import EventLens.NamesInOrder

/-!
Runs of orderly steps. A rename is recorded as it is made; a submission is on
record once its job has run. So when no job waits, the record of a person holds
all acts on it, in order, and the name it carries is that of the last.
-/

namespace EventLens.Names

open LastWrite

section Acts

variable {usable : String → Bool} {search : String → List ℕ} {s s' : NameStore} {n : ℕ}

/-- Acts that are done stay done when match rows and faces are kept. -/
theorem processed_kept (h : Processed usable search s)
    (hfaces : ∀ f' ∈ s'.faces, ∃ f ∈ s.faces, f'.id = f.id ∧ f'.eventId = f.eventId)
    (hrows : ∀ m ∈ s.matchRows, m ∈ s'.matchRows)
    (hwaiting : ∀ p ∈ s.participants, p.id ∈ s.jobs →
      (∃ p' ∈ s'.participants, p'.submission = p.submission ∧ p'.id ∈ s'.jobs) ∨
        Handled usable search s' p.submission) :
    ∀ act ∈ s.acts, (∃ p ∈ s'.participants, p.submission = act ∧ p.id ∈ s'.jobs) ∨
    Handled usable search s' act := by
  intro act hact
  rcases h act hact with ⟨p, hp, rfl, hjob⟩ | hhandled
  · exact hwaiting p hp hjob
  · exact .inr (handled_kept hfaces hrows hhandled)

theorem tables_rename (h : Tables usable search n s) (hn : n < s.clock) {eventId personId : ℕ}
    (hknown : personId < s.nextPerson) (name : String) :
    Tables usable search s.clock (s.rename eventId personId name s.clock) := by
  have hkey :
    ∀ p : Person, (if p.id = personId ∧ p.eventId = eventId then p.renamed name s.clock else p).id =
      p.id ∧ (if p.id = personId ∧ p.eventId = eventId then p.renamed name s.clock else p).eventId =
        p.eventId := by
    intro p
    split <;> exact ⟨rfl, rfl⟩
  refine { h.mono hn.le with
    persons := ?_
    nextPerson := fun p' hp' => ?_
    known := fun e id name' time hact => ?_
    given := fun p hp => List.mem_append_left _ (h.given p hp)
    past := fun act hact => ?_
    clustered := fun f hf id hid => ?_
    claimed := fun m hm => ?_ }
  · rw [NameStore.rename, List.map_map]
    rw [List.map_congr_left (f := Person.id ∘ _) (g := Person.id) fun p _ => (hkey p).1]
    exact h.persons
  · obtain ⟨p, hp, rfl⟩ := List.mem_map.mp hp'
    rw [(hkey p).1]
    exact h.nextPerson p hp
  · rcases List.mem_append.mp hact with hact | hact
    · exact h.known e id name' time hact
    · obtain ⟨-, rfl, -, -⟩ := HumanAct.rename.inj (List.mem_singleton.mp hact)
      exact hknown
  · rcases List.mem_append.mp hact with hact | hact
    · exact (h.past act hact).trans hn.le
    · rw [List.mem_singleton.mp hact]
      exact le_rfl
  · obtain ⟨p, hp, hperson, hevent⟩ := h.clustered f hf id hid
    exact ⟨_, List.mem_map_of_mem hp, (hkey p).1.trans hperson, (hkey p).2.trans hevent⟩
  · obtain ⟨eventId', selfies, hact, hface⟩ := h.claimed m hm
    exact ⟨eventId', selfies, List.mem_append_left _ hact, hface⟩

/-- The entry of a rename is the last done and the last recorded. -/
theorem entries_rename {eventId personId now e id : ℕ} {name : String} {entry : Entry}
    (he : entry ∈ (s.rename eventId personId name now).entriesOn e id) :
    entry ∈ s.entriesOn e id ∨ entry.actedAt = now ∧ entry.recordedAt = now := by
  rcases mem_entriesOn.mp he with ⟨a, ha, rfl⟩ | ⟨m, hm, rfl⟩
  · rw [renamesOn_rename] at ha
    rcases List.mem_append.mp ha with ha | ha
    · exact .inl (mem_entriesOn.mpr (.inl ⟨a, ha, rfl⟩))
    · split at ha
      · rw [List.mem_singleton.mp ha]
        exact .inr ⟨rfl, rfl⟩
      · cases ha
  · exact .inl (mem_entriesOn.mpr (.inr ⟨m, hm, rfl⟩))

theorem carried_rename (h : Tables usable search n s) (hs : Carried s) (hn : n < s.clock)
    (eventId personId : ℕ)
    (name : String) : Carried (s.rename eventId personId name s.clock) := by
  have hkept :
    ∀ e id, ∀ entry ∈ s.entriesOn e id,
    entry ∈ (s.rename eventId personId name s.clock).entriesOn e id := by
    intro e id entry he
    rcases mem_entriesOn.mp he with ⟨a, ha, rfl⟩ | hrow
    · refine mem_entriesOn.mpr (.inl ⟨a, ?_, rfl⟩)
      rw [renamesOn_rename]
      exact List.mem_append_left _ ha
    · exact mem_entriesOn.mpr (.inr hrow)
  have hordered : ∀ p ∈ s.persons,
      InOrder ((s.rename eventId personId name s.clock).entriesOn p.eventId p.id) := fun p hp =>
    (hs.ordered p hp).extend (fun e he => ⟨(entries_past h he).1.trans hn.le,
      Nat.lt_of_le_of_lt (entries_past h he).2 hn⟩) (fun e he => entries_rename he)
  refine ⟨fun p' hp' => ?_, fun p' hp' => ?_, fun p' hp' => ?_, fun p' hp' => ?_⟩
  · obtain ⟨p, hp, rfl⟩ := List.mem_map.mp hp'
    split <;> exact hordered p hp
  · obtain ⟨p, hp, rfl⟩ := List.mem_map.mp hp'
    split
    · rename_i hkey
      intro a ha
      cases ha
      refine List.mem_map.mpr ⟨⟨name, s.clock, s.clock⟩,
        mem_entriesOn.mpr (.inl ⟨(name, s.clock), ?_, rfl⟩), rfl⟩
      rw [renamesOn_rename]
      refine List.mem_append_right _ ?_
      rw [if_pos ⟨hkey.2.symm, hkey.1.symm⟩]
      exact List.mem_singleton_self _
    · refine (hs.held p hp).mono fun a ha => ?_
      obtain ⟨e, he, rfl⟩ := List.mem_map.mp ha
      exact List.mem_map_of_mem (hkept _ _ e he)
  · obtain ⟨p, hp, rfl⟩ := List.mem_map.mp hp'
    rw [renamesOn_rename]
    split
    · refine covers_write fun b hb => ?_
      rcases List.mem_append.mp hb with hb | hb
      · exact (renames_past h.past hb).2.trans hn.le
      · split at hb
        · rw [List.mem_singleton.mp hb]
        · cases hb
    · rename_i hkey
      rw [if_neg fun hother => hkey ⟨hother.2.symm, hother.1.symm⟩, List.append_nil]
      exact hs.renamed p hp
  · obtain ⟨p, hp, rfl⟩ := List.mem_map.mp hp'
    split
    · refine covers_write fun b hb => ?_
      obtain ⟨m, hm, -, -, -, rfl⟩ := mem_claims_rows.mp hb
      exact (h.rows m (mem_rowsOn.mp hm).1).1.trans hn.le
    · exact hs.covered p hp

theorem following_rename (h : Tables usable search n s) (hs : Carried s) (hn : n < s.clock)
    (hprocessed : Processed usable search s) {eventId personId : ℕ}
    (hknown : personId < s.nextPerson)
    (name : String) : Following usable search (s.rename eventId personId name s.clock) := by
  refine ⟨tables_rename h hn hknown name, ?_, carried_rename h hs hn eventId personId name⟩
  intro act hact
  rcases List.mem_append.mp hact with hact | hact
  · rcases hprocessed act hact with hwaiting | hhandled
    · exact .inl hwaiting
    · exact .inr (handled_kept (s := s) (fun f hf => ⟨f, hf, rfl, rfl⟩) (fun _ hm => hm) hhandled)
  · rw [List.mem_singleton.mp hact]
    exact .inr trivial

/-! Submissions. -/

/-- What is on record for a person does not depend on the guests' rows. -/
theorem carried_same (h : Tables usable search n s) (hs : Carried s)
    (hpersons : s'.persons = s.persons)
    (hfaces : s'.faces = s.faces) (hrows : s'.matchRows = s.matchRows)
    (hrenames : ∀ e id, s'.renamesOn e id = s.renamesOn e id) : Carried s' := by
  have hon : ∀ id, s'.rowsOn id = s.rowsOn id := by
    intro id
    rw [NameStore.rowsOn, hrows, hfaces, NameStore.rowsOn]
  have hentries : ∀ e id, s'.entriesOn e id = s.entriesOn e id := by
    intro e id
    rw [NameStore.entriesOn, hrenames, hon, NameStore.entriesOn]
  refine ⟨fun p hp => ?_, fun p hp => ?_, fun p hp => ?_, fun p hp b hb => ?_⟩
  · rw [hentries]
    exact hs.ordered p (hpersons ▸ hp)
  · rw [hentries]
    exact hs.held p (hpersons ▸ hp)
  · rw [hrenames]
    exact hs.renamed p (hpersons ▸ hp)
  · obtain ⟨m, hm, -, -, -, rfl⟩ := mem_claims_rows.mp hb
    rw [hon] at hm
    exact covers_rows h hs (hpersons ▸ hp) hm

theorem renamesOn_submission {e id participantId eventId time : ℕ} {name : String}
    {selfies : List String}
    (hacts : s'.acts = s.acts ++ [.submission participantId eventId name selfies time]) :
    s'.renamesOn e id = s.renamesOn e id := by
  rw [NameStore.renamesOn, hacts, List.filterMap_append, NameStore.renamesOn]
  exact List.append_nil _

/-- The row of a guest after sending the form again. -/
def Participant.again (name : String) (selfies : List String) (now : ℕ) (p : Participant) :
    Participant :=
  { p with name := name, selfies := selfies, embedded := false, submittedAt := now }

theorem following_again (h : Tables usable search n s) (hs : Carried s) (hn : n < s.clock)
    (hprocessed : Processed usable search s) {row : Participant} (hrow : row ∈ s.participants)
    {name : String}
    (hname : name ≠ "") (hjob : row.id ∉ s.jobs) (selfies : List String) :
    Following usable search { s with
      participants :=
      s.participants.map (fun p => if p.id = row.id then p.again name selfies s.clock else p)
      jobs := s.jobs ++ [row.id]
      acts := s.acts ++ [.submission row.id row.eventId name selfies s.clock] } := by
  have hid :
    ∀ p : Participant, (if p.id = row.id then p.again name selfies s.clock else p).id = p.id := by
    intro p
    split <;> rfl
  have hunique : ∀ p ∈ s.participants, p.id = row.id → p = row := fun p hp hsame =>
    List.inj_on_of_nodup_map h.participants hp hrow hsame
  refine ⟨{ h.mono hn.le with
    participants := ?_
    known := fun e id name' time hact => ?_
    nextParticipant := fun p' hp' => ?_
    named := fun p' hp' => ?_
    given := fun p' hp' => ?_
    past := fun act hact => ?_
    rows := fun m hm => ?_
    claimed := fun m hm => ?_ }, ?_, ?_⟩
  · rw [List.map_map]
    rw [List.map_congr_left (f := Participant.id ∘ _) (g := Participant.id) fun p _ => hid p]
    exact h.participants
  · rcases List.mem_append.mp hact with hact | hact
    · exact h.known e id name' time hact
    · cases List.mem_singleton.mp hact
  · obtain ⟨p, hp, rfl⟩ := List.mem_map.mp hp'
    rw [hid]
    exact h.nextParticipant p hp
  · obtain ⟨p, hp, rfl⟩ := List.mem_map.mp hp'
    split
    · exact ⟨(h.named p hp).1, hname⟩
    · exact h.named p hp
  · obtain ⟨p, hp, rfl⟩ := List.mem_map.mp hp'
    split
    · rename_i hsame
      obtain rfl := hunique p hp hsame
      exact List.mem_append_right _ (List.mem_singleton_self _)
    · exact List.mem_append_left _ (h.given p hp)
  · rcases List.mem_append.mp hact with hact | hact
    · exact (h.past act hact).trans hn.le
    · rw [List.mem_singleton.mp hact]
      exact le_rfl
  · obtain ⟨htime, p, hp, hparticipant, hcurrent⟩ := h.rows m hm
    refine ⟨htime.trans hn.le, _, List.mem_map_of_mem hp, (hid p).trans hparticipant,
      fun hnow => ?_⟩
    split at hnow
    · obtain ⟨eventId, selfies', hact, -⟩ := h.claimed m hm
      have hbefore : m.submittedAt ≤ n := h.past _ hact
      change m.submittedAt = s.clock at hnow
      omega
    · rename_i hother
      rw [if_neg hother]
      exact hcurrent hnow
  · obtain ⟨eventId, selfies', hact, hface⟩ := h.claimed m hm
    exact ⟨eventId, selfies', List.mem_append_left _ hact, hface⟩
  · intro act hact
    rcases List.mem_append.mp hact with hact | hact
    · rcases hprocessed act hact with ⟨p, hp, rfl, hwaits⟩ | hhandled
      · have hother : p.id ≠ row.id := fun hsame => hjob (hsame ▸ hwaits)
        refine .inl ⟨p, List.mem_map.mpr ⟨p, hp, if_neg hother⟩, rfl, List.mem_append_left _ hwaits⟩
      · exact .inr (handled_kept (s := s) (fun f hf => ⟨f, hf, rfl, rfl⟩) (fun _ hm => hm) hhandled)
    · rw [List.mem_singleton.mp hact]
      refine .inl ⟨_, List.mem_map_of_mem hrow, ?_, ?_⟩
      · rw [if_pos rfl]
        rfl
      · rw [hid]
        exact List.mem_append_right _ (List.mem_singleton_self _)
  · exact carried_same h hs rfl rfl rfl fun e id => renamesOn_submission rfl

theorem following_first (h : Tables usable search n s) (hs : Carried s) (hn : n < s.clock)
    (hprocessed : Processed usable search s) (p₀ : Participant) (hid : p₀.id = s.nextParticipant)
    (hnamed : p₀.deleted = false ∧ p₀.name ≠ "") (htime : p₀.submittedAt = s.clock) :
    Following usable search { s with
      participants := s.participants ++ [p₀]
      nextParticipant := s.nextParticipant + 1
      jobs := s.jobs ++ [p₀.id]
      acts := s.acts ++ [p₀.submission] } := by
  refine ⟨{ h.mono hn.le with
    participants := ?_
    known := fun e id name time hact => ?_
    nextParticipant := fun p hp => ?_
    named := fun p hp => ?_
    given := fun p hp => ?_
    past := fun act hact => ?_
    rows := fun m hm => ?_
    claimed := fun m hm => ?_ }, ?_, ?_⟩
  · rw [List.map_append]
    refine List.nodup_append.mpr ⟨h.participants, List.nodup_singleton _, fun a ha b hb hab => ?_⟩
    obtain ⟨p, hp, rfl⟩ := List.mem_map.mp ha
    rw [List.mem_singleton.mp hb, hid] at hab
    exact absurd hab (h.nextParticipant p hp).ne
  · rcases List.mem_append.mp hact with hact | hact
    · exact h.known e id name time hact
    · cases List.mem_singleton.mp hact
  · rcases List.mem_append.mp hp with hp | hp
    · exact Nat.lt_succ_of_lt (h.nextParticipant p hp)
    · rw [List.mem_singleton.mp hp, hid]
      exact Nat.lt_succ_self _
  · rcases List.mem_append.mp hp with hp | hp
    · exact h.named p hp
    · rw [List.mem_singleton.mp hp]
      exact hnamed
  · rcases List.mem_append.mp hp with hp | hp
    · exact List.mem_append_left _ (h.given p hp)
    · rw [List.mem_singleton.mp hp]
      exact List.mem_append_right _ (List.mem_singleton_self _)
  · rcases List.mem_append.mp hact with hact | hact
    · exact (h.past act hact).trans hn.le
    · rw [List.mem_singleton.mp hact]
      exact htime.le
  · obtain ⟨hpast, p, hp, hcurrent⟩ := h.rows m hm
    exact ⟨hpast.trans hn.le, p, List.mem_append_left _ hp, hcurrent⟩
  · obtain ⟨eventId, selfies, hact, hface⟩ := h.claimed m hm
    exact ⟨eventId, selfies, List.mem_append_left _ hact, hface⟩
  · intro act hact
    rcases List.mem_append.mp hact with hact | hact
    · rcases hprocessed act hact with ⟨p, hp, rfl, hwaits⟩ | hhandled
      · exact .inl ⟨p, List.mem_append_left _ hp, rfl, List.mem_append_left _ hwaits⟩
      · exact .inr (handled_kept (s := s) (fun f hf => ⟨f, hf, rfl, rfl⟩) (fun _ hm => hm) hhandled)
    · rw [List.mem_singleton.mp hact]
      exact .inl ⟨p₀, List.mem_append_right _ (List.mem_singleton_self _), rfl,
        List.mem_append_right _ (List.mem_singleton_self _)⟩
  · exact carried_same h hs rfl rfl rfl fun e id => renamesOn_submission rfl

end Acts

/-! One step. -/

section Steps

variable {usable : String → Bool} {search : String → List ℕ} {s : NameStore} {n : ℕ}

theorem tables_jobs (h : Tables usable search n s) (jobs : List ℕ) :
    Tables usable search n { s with jobs := jobs } := { h with }

theorem tables_setEmbedded (h : Tables usable search n s) (participantId : ℕ) :
    Tables usable search n (s.setEmbedded participantId) := by
  have hid :
    ∀ p : Participant,
    (if p.id = participantId then { p with embedded := true } else p).id = p.id := by
    intro p
    split <;> rfl
  refine { h with
    participants := ?_
    nextParticipant := fun p' hp' => ?_
    named := fun p' hp' => ?_
    given := fun p' hp' => ?_
    rows := fun m hm => ?_ }
  · rw [NameStore.setEmbedded, List.map_map]
    rw [List.map_congr_left (f := Participant.id ∘ _) (g := Participant.id) fun p _ => hid p]
    exact h.participants
  · obtain ⟨p, hp, rfl⟩ := List.mem_map.mp hp'
    rw [hid]
    exact h.nextParticipant p hp
  · obtain ⟨p, hp, rfl⟩ := List.mem_map.mp hp'
    split <;> exact h.named p hp
  · obtain ⟨p, hp, rfl⟩ := List.mem_map.mp hp'
    split <;> exact h.given p hp
  · obtain ⟨htime, p, hp, hparticipant, hcurrent⟩ := h.rows m hm
    refine ⟨htime, _, List.mem_map_of_mem hp, (hid p).trans hparticipant, ?_⟩
    split <;> exact hcurrent

theorem following_nameAll (h : Following usable search s) (clusters : List (ℕ × ℕ)) :
    Following usable search (s.nameAll clusters) := by
  obtain ⟨persons, hsame⟩ := nameAll_same s clusters
  have htables := tables_nameAll h.tables clusters
  have hcarried := carried_nameAll (h.carried.naming h.tables) fun p hp =>
    (.inr (h.carried.covered p hp) : (p.eventId, p.id) ∈ clusters ∨ _)
  rw [hsame] at htables hcarried ⊢
  exact ⟨htables, h.processed, hcarried⟩

/-- A rematch inserts rows for submissions that are handled already. -/
theorem following_match (h : Tables usable search n s) (hs : Carried s) (hn : n < s.clock)
    (hprocessed : Processed usable search s) {p : Participant} (hp : p ∈ s.participants)
    (hembedded : p.embedded = true) (htime : s.InTime usable search p) :
    Following usable search (s.matchParticipant usable search p) := by
  have htables := tables_match h hn hp hembedded
  have hcarried := carried_match h hs hn hp hembedded htime
  obtain ⟨persons, hsame⟩ := match_same usable search s hembedded
  rw [hsame] at htables hcarried ⊢
  refine ⟨htables, ?_, hcarried⟩
  exact processed_kept (s :=
    s) hprocessed (fun f hf => ⟨f, hf, rfl, rfl⟩) (fun _ hm => insertMatches_keeps _ hm)
    (fun q hq hjob => .inl ⟨q, hq, rfl, hjob⟩)

theorem following_rematch (h : Tables usable search n s) (hs : Carried s) (hn : n < s.clock)
    (hprocessed : Processed usable search s) {participantId : ℕ}
    (horderly : s.Orderly usable search (.rematch participantId)) :
    Following usable search (s.rematch usable search participantId) := by
  rw [NameStore.rematch]
  cases hfind : s.getById participantId with
  | none => exact ⟨h.mono hn.le, hprocessed, hs⟩
  | some p =>
    have hp := List.mem_of_find?_eq_some hfind
    have hkey := List.find?_some hfind
    change Following usable search (s.matchParticipant usable search p)
    by_cases hembedded : p.embedded = true
    · exact following_match h hs hn hprocessed hp hembedded
        (horderly p hp (of_decide_eq_true hkey).1 hembedded).2
    · rw [NameStore.matchParticipant, if_neg hembedded]
      exact ⟨h.mono hn.le, hprocessed, hs⟩

/-- The submission of a guest whose job has run is handled. -/
theorem following_selfieProcess (h : Tables usable search n s) (hs : Carried s) (hn : n < s.clock)
    (hprocessed : Processed usable search s) {participantId : ℕ}
    (horderly : s.Orderly usable search (.selfieProcess participantId)) :
    Following usable search (s.handleSelfieProcess usable search participantId) := by
  have hjobs :
    ∀ p : Participant, p.id ≠ participantId → p.id ∈ s.jobs → p.id ∈ s.jobs.erase participantId :=
    fun p hother hjob => (List.mem_erase_of_ne hother).mpr hjob
  let erased : NameStore := { s with jobs := s.jobs.erase participantId }
  have htables : Tables usable search n erased := tables_jobs h _
  have hcarried : Carried erased := carried_same h hs rfl rfl rfl fun _ _ => rfl
  have hnothing :
    (∀ p ∈ s.participants, p.id = participantId → Handled usable search erased p.submission) →
      Following usable search erased := by
    intro hhandled
    refine ⟨htables.mono hn.le, ?_, hcarried⟩
    refine processed_kept (s :=
      s) hprocessed (fun f hf => ⟨f, hf, rfl, rfl⟩) (fun _ hm => hm) fun p hp hjob => ?_
    by_cases hid : p.id = participantId
    · exact .inr (hhandled p hp hid)
    · exact .inl ⟨p, hp, rfl, hjobs p hid hjob⟩
  rw [NameStore.handleSelfieProcess]
  cases hfind : erased.getById participantId with
  | none =>
    refine hnothing fun p hp hid => ?_
    exact absurd ⟨hid, (h.named p hp).1⟩ (of_decide_eq_false (Bool.eq_false_of_not_eq_true
      (List.find?_eq_none.mp hfind p hp)))
  | some p =>
    have hp : p ∈ s.participants := List.mem_of_find?_eq_some hfind
    have hkey := List.find?_some hfind
    obtain ⟨hid, -⟩ := of_decide_eq_true hkey
    have hunique : ∀ q ∈ s.participants, q.id = participantId → q = p := fun q hq hsame =>
      List.inj_on_of_nodup_map h.participants hq hp (hsame.trans hid.symm)
    simp only
    split
    · rename_i hunusable
      refine hnothing fun q hq hsame f hf hhit => ?_
      rw [hunique q hq hsame, NameStore.hitIds, hunusable] at hhit
      cases hhit
    · obtain ⟨hphotos, htime⟩ := horderly p hp hid
      let embedded : NameStore := erased.setEmbedded participantId
      let p' : Participant := { p with embedded := true }
      have hp' : p' ∈ embedded.participants := List.mem_map.mpr ⟨p, hp, if_pos hid⟩
      have htables' : Tables usable search n embedded := tables_setEmbedded htables participantId
      have hcarried' : Carried embedded := carried_same h hs rfl rfl rfl fun _ _ => rfl
      have hdone : Handled usable search (embedded.matched usable search p') p'.submission :=
        handled_matched htables' hp' hphotos
      have htablesFinal := tables_match htables' hn hp' rfl
      have hcarriedFinal := carried_match htables' hcarried' hn hp' rfl htime
      obtain ⟨persons, hsame⟩ := match_same (p := p') usable search embedded rfl
      change Following usable search (embedded.matchParticipant usable search p')
      rw [hsame] at htablesFinal hcarriedFinal ⊢
      refine ⟨htablesFinal, ?_, hcarriedFinal⟩
      refine processed_kept (s :=
        s) hprocessed (fun f hf => ⟨f, hf, rfl, rfl⟩) (fun _ hm => insertMatches_keeps _ hm)
        fun q hq hjob => ?_
      by_cases hsameId : q.id = participantId
      · rw [hunique q hq hsameId]
        exact .inr hdone
      · exact .inl ⟨q, List.mem_map.mpr ⟨q, hq, if_neg hsameId⟩, rfl, hjobs q hsameId hjob⟩

theorem following_join (h : Tables usable search n s) (hs : Carried s) (hn : n < s.clock)
    (hprocessed : Processed usable search s) {face : AssetFace} (hface : face ∈ s.faces)
    (hnone : face.personId = none) {personId : ℕ}
    (hperson : ∃ p ∈ s.persons, p.id = personId ∧ p.eventId = face.eventId)
    (hjoins : s.JoinsInOrder face personId) :
    Following usable search
    ((s.reassignFaces face.id personId).nameFromParticipants face.eventId personId) := by
  refine ⟨tables_nameFromParticipants ((tables_reassign h hface hperson).mono hn.le) _ _, ?_,
    carried_join h hs hface hnone hperson hjoins⟩
  refine processed_kept (s :=
    s) hprocessed (fun f' hf' => ?_) (fun _ hm => hm) (fun p hp hjob => .inl ⟨p, hp, rfl, hjob⟩)
  obtain ⟨f, hf, hid, hevent, -⟩ := faces_reassign hf'
  exact ⟨f, hf, hid, hevent⟩

theorem following_recognize (h : Tables usable search n s) (hs : Carried s) (hn : n < s.clock)
    (hprocessed : Processed usable search s) {faceId : ℕ} {found : Option ℕ} {isCore : Bool}
    (horderly : s.Orderly usable search (.recognize faceId found isCore)) :
    Following usable search (s.handleRecognizeFaces faceId found isCore) := by
  have hsame : Following usable search s := ⟨h.mono hn.le, hprocessed, hs⟩
  rw [NameStore.handleRecognizeFaces]
  split
  · exact hsame
  · rename_i face hfind
    have hface := List.mem_of_find?_eq_some hfind
    have hkey := List.find?_some hfind
    obtain rfl : face.id = faceId := of_decide_eq_true hkey
    split
    · exact hsame
    · rename_i hassigned
      have hnone : face.personId = none := Option.not_isSome_iff_eq_none.mp hassigned
      have hjoins := horderly face hface rfl hnone
      rw [NameStore.joined] at hjoins
      cases hfound : found.bind (fun id => (s.faceIn face.eventId id).bind AssetFace.personId) with
      | some personId =>
        rw [hfound] at hjoins
        obtain ⟨id, -, hnear⟩ := Option.bind_eq_some_iff.mp hfound
        obtain ⟨near, hnear, hid⟩ := Option.bind_eq_some_iff.mp hnear
        have hevent := List.find?_some hnear
        obtain ⟨p, hp, hperson, hsameEvent⟩ :=
          h.clustered near (List.mem_of_find?_eq_some hnear) personId hid
        exact following_join h hs hn hprocessed hface hnone
          ⟨p, hp, hperson, hsameEvent.trans (of_decide_eq_true hevent).2⟩ hjoins
      | none =>
        rw [hfound] at hjoins
        simp only
        split
        · refine following_join (s := s.createPerson face.eventId) (tables_createPerson h _)
            (carried_createPerson h hs _) hn hprocessed hface hnone ?_ hjoins
          exact ⟨_, List.mem_append_right _ (List.mem_singleton_self _), rfl, rfl⟩
        · exact hsame

theorem following_submit (h : Tables usable search n s) (hs : Carried s) (hn : n < s.clock)
    (hprocessed : Processed usable search s) {eventId : ℕ} {email name : String}
    {selfies : List String}
    (horderly : s.Orderly usable search (.submit eventId email name selfies)) :
    Following usable search (s.submitSelfie eventId email name selfies) := by
  obtain ⟨hname, hjobs⟩ := horderly
  rw [NameStore.submitSelfie]
  split
  · rename_i row hfind
    have hrow := List.mem_of_find?_eq_some hfind
    have hkey := List.find?_some hfind
    obtain ⟨rfl, hemail, -⟩ := of_decide_eq_true hkey
    exact following_again h hs hn hprocessed hrow hname (hjobs row hrow rfl hemail) selfies
  · exact following_first h hs hn hprocessed
      ⟨s.nextParticipant, eventId, email, name, selfies, false, false, s.clock⟩ rfl ⟨rfl, hname⟩ rfl

theorem following_perform (h : Tables usable search n s) (hs : Carried s) (hn : n < s.clock)
    (hprocessed : Processed usable search s) (step : NameStep)
    (horderly : s.Orderly usable search step) :
    Following usable search (s.perform usable search step) := by
  cases step with
  | rename eventId personId name =>
    simp only [NameStore.perform]
    split
    · rename_i s' hupdate
      obtain ⟨rfl, p, hp, rfl, -⟩ := update_cases hupdate
      exact following_rename h hs hn hprocessed (h.nextPerson p hp) name
    · exact ⟨h.mono hn.le, hprocessed, hs⟩
  | submit eventId email name selfies => exact following_submit h hs hn hprocessed horderly
  | selfieProcess participantId => exact following_selfieProcess h hs hn hprocessed horderly
  | rematch participantId => exact following_rematch h hs hn hprocessed horderly
  | recognize faceId found isCore => exact following_recognize h hs hn hprocessed horderly
  | backfill => exact following_nameAll ⟨h.mono hn.le, hprocessed, hs⟩ _

theorem following_step (h : Following usable search s) (m : ℕ × NameStep)
    (horderly : (s.tick m.1).Orderly usable search m.2) :
    Following usable search (s.step usable search m) := by
  have htables : Tables usable search s.clock (s.tick m.1) := { h.tables with }
  have hcarried : Carried (s.tick m.1) := carried_same h.tables h.carried rfl rfl rfl fun _ _ => rfl
  have hlater : s.clock < (s.tick m.1).clock :=
    Nat.lt_of_lt_of_le (Nat.lt_succ_self _) (le_max_left _ _)
  exact following_perform htables hcarried hlater h.processed m.2 horderly

theorem following_run (h : Following usable search s) (moves : List (ℕ × NameStep))
    (horderly : s.OrderlyRun usable search moves) :
    Following usable search (s.runSteps usable search moves) := by
  induction moves generalizing s with
  | nil => exact h
  | cons m rest ih => exact ih (following_step h m horderly.1) horderly.2

theorem following_started (h : s.Started) : Following usable search s := by
  have hno : ∀ m, m ∉ s.matchRows := by
    rw [h.matchRows]
    exact fun m => List.not_mem_nil
  have hnobody : ∀ p, p ∉ s.participants := by
    rw [h.participants]
    exact fun p => List.not_mem_nil
  have hnothing : ∀ act, act ∉ s.acts := by
    rw [h.fresh.acts]
    exact fun act => List.not_mem_nil
  have hrows : ∀ id, ∀ m, m ∉ s.rowsOn id := fun id m hm => hno m (mem_rowsOn.mp hm).1
  have hrenames : ∀ e id, ∀ a, a ∉ s.renamesOn e id := by
    intro e id a ha
    obtain ⟨act, hact, -⟩ := List.mem_filterMap.mp ha
    exact hnothing act hact
  have hentries : ∀ e id, ∀ entry, entry ∉ s.entriesOn e id := by
    intro e id entry he
    rcases mem_entriesOn.mp he with ⟨a, ha, -⟩ | ⟨m, hm, -⟩
    · exact hrenames e id a ha
    · exact hrows id m hm
  refine ⟨⟨h.fresh.faces, h.unique, ?_, h.fresh.persons,
    fun _ _ _ _ hact => absurd hact (hnothing _),
    fun p hp => absurd hp (hnobody p), fun p hp => absurd hp (hnobody p), fun p hp =>
      absurd hp (hnobody p),
    fun act hact => absurd hact (hnothing act), h.clustered, fun m hm => absurd hm (hno m),
    fun m hm => absurd hm (hno m)⟩, fun act hact => absurd hact (hnothing act),
    fun p _ e he => absurd he (hentries _ _ e), fun p hp a ha => ?_,
    fun p _ b hb => absurd hb (hrenames _ _ b), fun p _ b hb => ?_⟩
  · rw [h.participants]
    exact List.nodup_nil
  · rw [Person.cell, h.fresh.unnamed p hp] at ha
    cases ha
  · obtain ⟨m, hm, -⟩ := mem_claims_rows.mp hb
    exact absurd hm (hrows _ m)

end Steps

/-! The name carried. -/

section Latest

variable {usable : String → Bool} {search : String → List ℕ} {s : NameStore} {n : ℕ} {p : Person}

theorem mem_humanActs {a : String × ℕ} : a ∈ s.humanActs usable search p ↔
    a ∈ s.renamesOn p.eventId p.id ∨ ∃ participantId eventId selfies,
      .submission participantId eventId a.1 selfies a.2 ∈ s.acts ∧
        ∃ f ∈ s.faces, f.id ∈ NameStore.hitIds usable search selfies ∧ f.eventId = eventId ∧
          f.personId = some p.id := by
  rw [NameStore.humanActs, NameStore.renamesOn, List.mem_filterMap, List.mem_filterMap]
  constructor
  · rintro ⟨act, hact, hconcern⟩
    cases act with
    | rename eventId personId name time => exact .inl ⟨_, hact, hconcern⟩
    | submission participantId eventId name selfies time =>
      rw [NameStore.concerning] at hconcern
      split at hconcern
      · rename_i hany
        cases hconcern
        obtain ⟨f, hf, hnear⟩ := List.any_eq_true.mp hany
        exact .inr ⟨participantId, eventId, selfies, hact, f, hf, of_decide_eq_true hnear⟩
      · cases hconcern
  · rintro (⟨act, hact, hrename⟩ | ⟨participantId, eventId, selfies, hact, f, hf, hnear⟩)
    · cases act with
      | rename eventId personId name time => exact ⟨_, hact, hrename⟩
      | submission participantId eventId name selfies time => cases hrename
    · exact ⟨_, hact, if_pos (List.any_eq_true.mpr ⟨f, hf, decide_eq_true hnear⟩)⟩

/-- What is on record was done. -/
theorem act_of_entry (h : Tables usable search n s) {e : Entry}
    (he : e ∈ s.entriesOn p.eventId p.id) :
    (e.name, e.actedAt) ∈ s.humanActs usable search p := by
  rcases mem_entriesOn.mp he with ⟨a, ha, rfl⟩ | ⟨m, hm, rfl⟩
  · exact mem_humanActs.mpr (.inl ha)
  · obtain ⟨hm, f, hf, hvia, hperson⟩ := mem_rowsOn.mp hm
    obtain ⟨eventId, selfies, hact, g, hg, hvia', hevent, hhit⟩ := h.claimed m hm
    obtain rfl := List.inj_on_of_nodup_map h.faces hg hf (hvia'.trans hvia.symm)
    exact mem_humanActs.mpr
      (.inr ⟨m.participantId, eventId, selfies, hact, g, hg, hhit, hevent, hperson⟩)

/-- What was done is on record when no job waits. -/
theorem entry_of_act (hprocessed : Processed usable search s) (hjobs : s.jobs = []) {a : String × ℕ}
    (ha : a ∈ s.humanActs usable search p) :
    ∃ e ∈ s.entriesOn p.eventId p.id, (e.name, e.actedAt) = a := by
  rcases mem_humanActs.mp ha with hrename |
    ⟨participantId, eventId, selfies, hact, f, hf, hhit, hevent, hperson⟩
  · exact ⟨_, mem_entriesOn.mpr (.inl ⟨a, hrename, rfl⟩), rfl⟩
  · rcases hprocessed _ hact with ⟨q, -, -, hwaits⟩ | hhandled
    · rw [hjobs] at hwaits
      cases hwaits
    · obtain ⟨m, hm, -, hvia, htime, hname⟩ := hhandled f hf hhit hevent
      refine ⟨m.entry,
        mem_entriesOn.mpr (.inr ⟨m, mem_rowsOn.mpr ⟨hm, f, hf, hvia.symm, hperson⟩, rfl⟩), ?_⟩
      exact Prod.ext hname htime

/-- No entry is newer than what the person carries. -/
theorem entry_covered (h : Tables usable search n s) (hs : Carried s) (hp : p ∈ s.persons)
    {e : Entry}
    (he : e ∈ s.entriesOn p.eventId p.id) : ∃ a, p.cell = some a ∧ e.recordedAt ≤ a.2 := by
  rcases mem_entriesOn.mp he with ⟨a, ha, rfl⟩ | ⟨m, hm, rfl⟩
  · exact hs.renamed p hp a ha
  · exact covers_rows h hs hp hm

theorem cell_name {a : String × ℕ} (h : p.cell = some a) : p.name = a.1 := by
  obtain ⟨time, -, rfl⟩ := Option.map_eq_some_iff.mp h
  rfl

theorem followed (h : Following usable search s) (hjobs : s.jobs = []) :
    s.Followed usable search := by
  intro p hp hsome
  obtain ⟨first, hfirst⟩ := List.exists_mem_of_ne_nil _ hsome
  obtain ⟨e₀, he₀, -⟩ := entry_of_act h.processed hjobs hfirst
  obtain ⟨a, ha, -⟩ := entry_covered h.tables h.carried hp he₀
  obtain ⟨e, he, rfl⟩ := List.mem_map.mp (h.carried.held p hp a ha)
  have hname : p.name = e.name := cell_name ha
  refine ⟨e.actedAt, ?_, fun b hb => ?_⟩
  · rw [hname]
    exact act_of_entry h.tables he
  · obtain ⟨e', he', rfl⟩ := entry_of_act h.processed hjobs hb
    refine le_of_not_gt fun hlater => ?_
    -- an act after the one that is carried would be recorded after it, too
    have horder := h.carried.ordered p hp e he e' he' hlater
    obtain ⟨a', ha', hle⟩ := entry_covered h.tables h.carried hp he'
    cases ha.symm.trans ha'
    exact absurd horder (Nat.not_lt_of_le hle)

/-- As long as acts are recorded in the order they are done in, whoever was
given a name carries the one given last, once no submission waits. -/
theorem names_follow (hs : s.Started) (moves : List (ℕ × NameStep))
    (horderly : s.OrderlyRun usable search moves)
    (hjobs : (s.runSteps usable search moves).jobs = []) :
    (s.runSteps usable search moves).Followed usable search :=
  followed (following_run (following_started hs) moves horderly) hjobs

end Latest

/-! The guest sends the form first and is matched last. -/

def ceremony : NameStore :=
  { persons := [{ id := 0, eventId := 0 }]
    faces := [{ id := 0, assetId := 10, eventId := 0, personId := some 0 },
      { id := 1, assetId := 11, eventId := 0 }]
    nextPerson := 1 }

theorem ceremony_started : ceremony.Started :=
  ⟨⟨by decide, rfl, by decide, by decide⟩, by decide, by decide, rfl, rfl, rfl⟩

def priya : NameStep := .submit 0 "priya@guests" "Priya" ["selfie"]

def lateMatch : List (ℕ × NameStep) :=
  [(10, priya), (20, .rename 0 0 "Priya Sharma"), (30, .selfieProcess 0),
    (40, .recognize 1 (some 0) true),
    (50, .rematch 0), (60, .backfill)]

theorem not_names_follow : ¬ ∀ (usable : String → Bool) (search : String → List ℕ) (s : NameStore)
    (moves : List (ℕ × NameStep)), s.Started → (∀ m ∈ moves, ∀ eventId email selfies,
      m.2 ≠ .submit eventId email "" selfies) → (s.runSteps usable search moves).jobs = [] →
      (s.runSteps usable search moves).Followed usable search := by
  intro h
  have hnamed : ∀ m ∈ lateMatch, ∀ eventId email selfies, m.2 ≠
    NameStep.submit eventId email "" selfies := by
    intro m hm eventId email selfies hsubmit
    have hall : ∀ m ∈ lateMatch, m.2.submits = true → m.2 = priya := by decide
    have hpriya := hall m hm (by rw [hsubmit]; rfl)
    obtain ⟨-, -, hname, -⟩ := NameStep.submit.inj (hsubmit.symm.trans hpriya)
    exact absurd hname (by decide)
  have hfollowed := h (fun _ => true) (fun _ => [0, 1]) ceremony lateMatch ceremony_started hnamed
    (by decide)
  let s := ceremony.runSteps (fun _ => true) (fun _ => [0, 1]) lateMatch
  have hperson : (⟨0, 0, "Priya", some 30, some .participant⟩ : Person) ∈
    s.persons := by decide
  have hacts : s.humanActs (fun _ => true) (fun _ => [0, 1])
    ⟨0, 0, "Priya", some 30, some .participant⟩ =
      [("Priya", 10), ("Priya Sharma", 20)] := by decide
  obtain ⟨time, hmem, hlast⟩ := hfollowed _ hperson (by rw [hacts]; exact List.cons_ne_nil _ _)
  rw [hacts] at hmem hlast
  have htime := hlast _ (List.mem_cons_of_mem _ (List.mem_singleton_self _))
  rcases List.mem_cons.mp hmem with hfirst | hsecond
  · cases hfirst
    exact absurd htime (by decide)
  · have hname : "Priya" = "Priya Sharma" := congrArg Prod.fst (List.mem_singleton.mp hsecond)
    exact absurd hname (by decide)

/-- She is matched at once and renamed; a face that another guest was matched
to joins the person last. -/
def promptMatch : List (ℕ × NameStep) :=
  [(10, priya), (20, .selfieProcess 0), (30, .rename 0 0 "Priya Sharma"),
    (40, .submit 0 "rob@guests" "Rob" ["other"]), (50, .selfieProcess 1),
      (60, .recognize 1 (some 0) false),
    (70, .backfill)]

theorem names_follow_ceremony :
    (ceremony.runSteps (fun _ => true) (fun key => if key = "selfie" then [0] else [1])
      promptMatch).persons.map
        Person.cell = [some ("Rob", 50)] ∧
      (ceremony.runSteps (fun _ => true) (fun key => if key = "selfie" then [0] else [1])
        promptMatch).Followed
        (fun _ => true) (fun key => if key = "selfie" then [0] else [1]) :=
  ⟨by decide +kernel, names_follow ceremony_started promptMatch (by decide +kernel)
    (by decide +kernel)⟩

end EventLens.Names
