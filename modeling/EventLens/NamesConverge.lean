import EventLens.NameRecord
import Mathlib.Data.List.Nodup

/-!
However matching, clustering and the backfill come in turn with the renames of
the organiser, a person ends up with the latest of its claims and renames.
A person's time only grows under offers, and an offer is always the newest of
the claims there are; claims are never lost while faces stay where they are.
-/

namespace EventLens.Names

open LastWrite

/-- The renames of one person. -/
def HumanAct.renaming (eventId personId : ℕ) : HumanAct → Option (String × ℕ)
  | .rename e id name time => if e = eventId ∧ id = personId then some (name, time) else none
  | .submission _ _ _ _ _ => none

def HumanAct.time : HumanAct → ℕ
  | .rename _ _ _ time | .submission _ _ _ _ time => time

namespace NameStore

variable (s : NameStore)

def renamesOn (eventId personId : ℕ) : List (String × ℕ) :=
    s.acts.filterMap (HumanAct.renaming eventId personId)

def actsOn (p : Person) : List (String × ℕ) := s.renamesOn p.eventId p.id ++ s.claimsOn p.id

/-- Every person has the latest of its renames and claims, and every naming
step finds nothing to do. -/
structure Converged : Prop where
  latest : ∀ p ∈ s.persons, Latest (s.actsOn p) p.cell
  again : ∀ eventId personId, s.nameFromParticipants eventId personId = s
  matched : ∀ participant faceIds, s.nameMatchedPerson participant faceIds = s
  backfill : s.handlePersonNameBackfill = s

/-- Nobody has been named; ids are unique, and the next is new. -/
structure Fresh : Prop where
  unnamed : ∀ p ∈ s.persons, p.nameSetAt = none
  acts : s.acts = []
  faces : (s.faces.map AssetFace.id).Nodup
  persons : ∀ p ∈ s.persons, p.id < s.nextPerson

end NameStore

/-! Claims. -/

section Claims

variable {s s' : NameStore} {personId : ℕ} {c : String × ℕ}

theorem mem_claimsOn : c ∈ s.claimsOn personId ↔
    ∃ f ∈ s.faces, f.personId = some personId ∧ ∃ m ∈ s.matchRows, m.viaFaceId = f.id ∧
      ∃ p ∈ s.participants, (p.id = m.participantId ∧ p.deleted = false ∧ p.name ≠ "") ∧
        (p.name, m.createdAt) = c := by
  simp only [NameStore.claimsOn, List.mem_flatMap, List.mem_map, List.mem_filter,
    decide_eq_true_iff]
  constructor
  · rintro ⟨f, ⟨hf, hperson⟩, m, ⟨hm, hvia⟩, p, ⟨hp, hkey⟩, hc⟩
    exact ⟨f, hf, hperson, m, hm, hvia, p, hp, hkey, hc⟩
  · rintro ⟨f, hf, hperson, m, hm, hvia, p, hp, hkey, hc⟩
    exact ⟨f, ⟨hf, hperson⟩, m, ⟨hm, hvia⟩, p, ⟨hp, hkey⟩, hc⟩

/-- Claims stay when faces, matches and named guests do. -/
theorem claims_kept (hfaces : ∀ f ∈ s.faces, f.personId = some personId → f ∈ s'.faces)
    (hmatches : ∀ m ∈ s.matchRows, m ∈ s'.matchRows)
    (hparticipants : ∀ p ∈ s.participants, ∃ p' ∈ s'.participants,
      p'.id = p.id ∧ p'.deleted = p.deleted ∧ p'.name = p.name) (hc : c ∈ s.claimsOn personId) :
    c ∈ s'.claimsOn personId := by
  obtain ⟨f, hf, hperson, m, hm, hvia, p, hp, ⟨hid, hdeleted, hname⟩, hpair⟩ := mem_claimsOn.mp hc
  obtain ⟨p', hp', hid', hdeleted', hname'⟩ := hparticipants p hp
  refine mem_claimsOn.mpr ⟨f, hfaces f hf hperson, hperson, m, hmatches m hm, hvia, p', hp', ?_, ?_⟩
  · exact ⟨hid'.trans hid, hdeleted'.trans hdeleted, hname'.trans_ne hname⟩
  · rw [hname']
    exact hpair

theorem insertMatch_keeps (rows : List ParticipantMatch) (m : ParticipantMatch)
    {row : ParticipantMatch}
    (h : row ∈ rows) : row ∈ NameStore.insertMatch rows m := by
  rw [NameStore.insertMatch]
  split
  · exact h
  · exact List.mem_append_left _ h

theorem insertMatches_keeps (inserts : List ParticipantMatch) {rows : List ParticipantMatch}
    {row : ParticipantMatch} (h : row ∈ rows) : row ∈ inserts.foldl NameStore.insertMatch rows := by
  induction inserts generalizing rows with
  | nil => exact h
  | cons m rest ih => exact ih (insertMatch_keeps rows m h)

theorem claims_insertMatches (inserts : List ParticipantMatch) (hc : c ∈ s.claimsOn personId) :
    c ∈ (s.insertMatches inserts).claimsOn personId :=
  claims_kept (s := s) (fun _ hf _ => hf) (fun _ hm => insertMatches_keeps inserts hm)
    (fun p hp => ⟨p, hp, rfl, rfl, rfl⟩) hc

theorem claims_setEmbedded (participantId : ℕ) (hc : c ∈ s.claimsOn personId) :
    c ∈ (s.setEmbedded participantId).claimsOn personId := by
  refine claims_kept (s := s) (fun _ hf _ => hf) (fun _ hm => hm)
    (fun p hp => ⟨_, List.mem_map_of_mem hp, ?_⟩) hc
  split <;> exact ⟨rfl, rfl, rfl⟩

/-- A face that has no person takes no claim away. -/
theorem claims_reassign (hnodup : (s.faces.map AssetFace.id).Nodup) {face : AssetFace}
    (hface : face ∈ s.faces)
    (hnone : face.personId = none) (newPersonId : ℕ) (hc : c ∈ s.claimsOn personId) :
    c ∈ (s.reassignFaces face.id newPersonId).claimsOn personId := by
  refine claims_kept (s := s) (fun f hf hperson => ?_) (fun _ hm => hm)
    (fun p hp => ⟨p, hp, rfl, rfl, rfl⟩) hc
  refine List.mem_map.mpr ⟨f, hf, if_neg fun hid => ?_⟩
  rw [List.inj_on_of_nodup_map hnodup hf hface hid, hnone] at hperson
  cases hperson

theorem nodup_reassign (hnodup : (s.faces.map AssetFace.id).Nodup) (faceId newPersonId : ℕ) :
    ((s.reassignFaces faceId newPersonId).faces.map AssetFace.id).Nodup := by
  have hsame :
    (s.reassignFaces faceId newPersonId).faces.map AssetFace.id = s.faces.map AssetFace.id := by
    rw [NameStore.reassignFaces, List.map_map]
    refine List.map_congr_left fun f _ => ?_
    rw [Function.comp_apply]
    split <;> rfl
  rw [hsame]
  exact hnodup

end Claims

/-! The invariant. -/

/-- A person's name was given by a rename or claim, and is no older than any
rename. -/
structure Dated (s : NameStore) : Prop where
  held : ∀ p ∈ s.persons, Held (s.actsOn p) p.cell
  renamed : ∀ p ∈ s.persons, Covers (s.renamesOn p.eventId p.id) p.cell
  past : ∀ act ∈ s.acts, act.time ≤ s.clock
  known : ∀ eventId personId name time, .rename eventId personId name time ∈ s.acts →
    personId < s.nextPerson
  faces : (s.faces.map AssetFace.id).Nodup
  persons : ∀ p ∈ s.persons, p.id < s.nextPerson

section Steps

variable {s s' : NameStore}

/-- Only claims are added. -/
theorem Dated.grown (h : Dated s) (hpersons : s'.persons = s.persons) (hacts : s'.acts = s.acts)
    (hclock : s.clock ≤ s'.clock) (hnext : s'.nextPerson = s.nextPerson)
    (hfaces : (s'.faces.map AssetFace.id).Nodup)
    (hclaims : ∀ personId, ∀ c ∈ s.claimsOn personId, c ∈ s'.claimsOn personId) : Dated s' := by
  have hrenames : ∀ e id, s'.renamesOn e id = s.renamesOn e id := by
    intro e id
    rw [NameStore.renamesOn, hacts, NameStore.renamesOn]
  refine ⟨fun p hp => ?_, fun p hp => ?_, fun act hact => ?_, ?_, hfaces, ?_⟩
  · rw [hpersons] at hp
    refine (h.held p hp).mono fun a ha => ?_
    rw [NameStore.actsOn, hrenames]
    rcases List.mem_append.mp ha with ha | ha
    · exact List.mem_append_left _ ha
    · exact List.mem_append_right _ (hclaims p.id a ha)
  · rw [hpersons] at hp
    rw [hrenames]
    exact h.renamed p hp
  · exact (h.past act (hacts ▸ hact)).trans hclock
  · rw [hacts, hnext]
    exact h.known
  · rw [hpersons, hnext]
    exact h.persons

theorem dated_nameFromParticipants (h : Dated s) (eventId personId : ℕ) :
    Dated (s.nameFromParticipants eventId personId) := by
  refine ⟨fun p' hp' => ?_, fun p' hp' => ?_, h.past, h.known, h.faces, fun p' hp' => ?_⟩
  · obtain ⟨p, hp, rfl⟩ := List.mem_map.mp hp'
    split
    · rename_i hkey
      obtain ⟨hid, hevent⟩ := offered_key (s.latestClaim personId) p
      rw [cell_offered, NameStore.actsOn, hid, hevent]
      refine held_offer (h.held p hp) fun a ha _ => List.mem_append_right _ ?_
      rw [hkey.1]
      exact newest_mem ha
    · exact h.held p hp
  · obtain ⟨p, hp, rfl⟩ := List.mem_map.mp hp'
    split
    · obtain ⟨hid, hevent⟩ := offered_key (s.latestClaim personId) p
      rw [cell_offered, hid, hevent]
      exact covers_offer (h.renamed p hp) _
    · exact h.renamed p hp
  · obtain ⟨p, hp, rfl⟩ := List.mem_map.mp hp'
    split
    · rw [(offered_key _ p).1]
      exact h.persons p hp
    · exact h.persons p hp

theorem dated_nameAll (h : Dated s) (clusters : List (ℕ × ℕ)) : Dated (s.nameAll clusters) := by
  induction clusters generalizing s with
  | nil => exact h
  | cons cluster rest ih => exact ih (dated_nameFromParticipants h cluster.1 cluster.2)

theorem dated_nameMatchedPerson (h : Dated s) (participant : Participant) (faceIds : List ℕ) :
    Dated (s.nameMatchedPerson participant faceIds) := by
  rw [NameStore.nameMatchedPerson]
  split
  · exact h
  · exact dated_nameAll h _

/-- A new person has neither renames nor a name. -/
theorem dated_createPerson (h : Dated s) (eventId : ℕ) : Dated (s.createPerson eventId) := by
  have hnew : s.renamesOn eventId s.nextPerson = [] := by
    refine List.filterMap_eq_nil_iff.mpr fun act hact => ?_
    cases act with
    | submission participantId e name selfies time => rfl
    | rename e id name time =>
      exact if_neg fun hkey => absurd (h.known e id name time hact) (by omega)
  refine ⟨fun p hp => ?_, fun p hp => ?_, h.past, fun e id name time hact => ?_, h.faces,
    fun p hp => ?_⟩
  · rcases List.mem_append.mp hp with hp | hp
    · exact h.held p hp
    · obtain rfl := List.mem_singleton.mp hp
      intro a ha
      cases ha
  · rcases List.mem_append.mp hp with hp | hp
    · exact h.renamed p hp
    · obtain rfl := List.mem_singleton.mp hp
      intro b hb
      change b ∈ s.renamesOn eventId s.nextPerson at hb
      rw [hnew] at hb
      cases hb
  · exact Nat.lt_succ_of_lt (h.known e id name time hact)
  · rcases List.mem_append.mp hp with hp | hp
    · exact Nat.lt_succ_of_lt (h.persons p hp)
    · obtain rfl := List.mem_singleton.mp hp
      exact Nat.lt_succ_self _

theorem dated_reassign (h : Dated s) {face : AssetFace} (hface : face ∈ s.faces)
    (hnone : face.personId = none)
    (personId : ℕ) : Dated (s.reassignFaces face.id personId) :=
  h.grown rfl rfl le_rfl rfl (nodup_reassign h.faces face.id personId)
    (fun _ _ hc => claims_reassign h.faces hface hnone personId hc)

theorem dated_insertMatches (h : Dated s) (inserts : List ParticipantMatch) :
    Dated (s.insertMatches inserts) :=
  h.grown rfl rfl le_rfl rfl h.faces (fun _ _ hc => claims_insertMatches inserts hc)

theorem dated_setEmbedded (h : Dated s) (participantId : ℕ) : Dated (s.setEmbedded participantId) :=
  h.grown rfl rfl le_rfl rfl h.faces (fun _ _ hc => claims_setEmbedded participantId hc)

theorem dated_recognize (h : Dated s) (faceId : ℕ) (found : Option ℕ) (isCore : Bool) :
    Dated (s.handleRecognizeFaces faceId found isCore) := by
  rw [NameStore.handleRecognizeFaces]
  split
  · exact h
  · rename_i face hfind
    have hface := List.mem_of_find?_eq_some hfind
    have hkey := List.find?_some hfind
    obtain rfl : face.id = faceId := of_decide_eq_true hkey
    split
    · exact h
    · rename_i hperson
      have hnone : face.personId = none := Option.not_isSome_iff_eq_none.mp hperson
      split
      · exact dated_nameFromParticipants (dated_reassign h hface hnone _) _ _
      · split
        · exact dated_nameFromParticipants
            (dated_reassign (dated_createPerson h _) hface hnone _) _ _
        · exact h

theorem renamesOn_rename (eventId personId : ℕ) (name : String) (now e id : ℕ) :
    (s.rename eventId personId name now).renamesOn e id =
      s.renamesOn e id ++ if eventId = e ∧ personId = id then [(name, now)] else [] := by
  rw [NameStore.renamesOn, NameStore.renamesOn, NameStore.rename, List.filterMap_append]
  congr 1
  by_cases hkey : eventId = e ∧ personId = id
  · rw [if_pos hkey]
    exact List.filterMap_cons_some (if_pos hkey)
  · rw [if_neg hkey]
    exact List.filterMap_cons_none (if_neg hkey)

theorem renames_past {n : ℕ} (hpast : ∀ act ∈ s.acts, act.time ≤ n) {e id : ℕ} {a : String × ℕ}
    (ha : a ∈ s.renamesOn e id) : .rename e id a.1 a.2 ∈ s.acts ∧ a.2 ≤ n := by
  obtain ⟨act, hact, hrename⟩ := List.mem_filterMap.mp ha
  have hle := hpast act hact
  cases act with
  | submission participantId e' name' selfies time => cases hrename
  | rename e' id' name' time =>
    rw [HumanAct.renaming] at hrename
    split at hrename
    · rename_i hkey
      obtain ⟨rfl, rfl⟩ := hkey
      cases hrename
      exact ⟨hact, hle⟩
    · cases hrename

/-- The rename of a person is the latest there is. -/
theorem dated_rename (h : Dated s) {eventId personId : ℕ} (hknown : personId < s.nextPerson)
    (name : String) :
    Dated (s.rename eventId personId name s.clock) := by
  refine ⟨fun p' hp' => ?_, fun p' hp' => ?_, fun act hact => ?_, fun e id name' time hact => ?_,
    h.faces,
    fun p' hp' => ?_⟩
  · obtain ⟨p, hp, rfl⟩ := List.mem_map.mp hp'
    split
    · rename_i hkey
      intro a ha
      cases ha
      refine List.mem_append_left _ ?_
      rw [renamesOn_rename]
      refine List.mem_append_right _ ?_
      rw [if_pos ⟨hkey.2.symm, hkey.1.symm⟩]
      exact List.mem_singleton_self _
    · refine (h.held p hp).mono fun a ha => ?_
      rcases List.mem_append.mp ha with ha | ha
      · refine List.mem_append_left _ ?_
        rw [renamesOn_rename]
        exact List.mem_append_left _ ha
      · exact List.mem_append_right _ ha
  · obtain ⟨p, hp, rfl⟩ := List.mem_map.mp hp'
    rw [renamesOn_rename]
    split
    · refine covers_write fun b hb => ?_
      rcases List.mem_append.mp hb with hb | hb
      · exact (renames_past h.past hb).2
      · split at hb
        · rw [List.mem_singleton.mp hb]
        · cases hb
    · rename_i hkey
      rw [if_neg fun hother => hkey ⟨hother.2.symm, hother.1.symm⟩, List.append_nil]
      exact h.renamed p hp
  · rcases List.mem_append.mp hact with hact | hact
    · exact h.past act hact
    · rw [List.mem_singleton.mp hact]
      exact le_rfl
  · rcases List.mem_append.mp hact with hact | hact
    · exact h.known e id name' time hact
    · obtain ⟨-, rfl, -, -⟩ := HumanAct.rename.inj (List.mem_singleton.mp hact)
      exact hknown
  · obtain ⟨p, hp, rfl⟩ := List.mem_map.mp hp'
    split <;> exact h.persons p hp

theorem update_cases {eventId personId : ℕ} {name : String} {now : ℕ}
    (hs : s.update eventId personId name now = .ok s') :
    s' = s.rename eventId personId name now ∧ ∃ p ∈ s.persons, p.id = personId ∧
    p.eventId = eventId := by
  rw [NameStore.update] at hs
  split at hs
  · rename_i hany
    cases hs
    obtain ⟨p, hp, hkey⟩ := List.any_eq_true.mp hany
    exact ⟨rfl, p, hp, of_decide_eq_true hkey⟩
  · cases hs

variable {usable : String → Bool} {search : String → List ℕ}

theorem dated_matchParticipant (h : Dated s) (participant : Participant) :
    Dated (s.matchParticipant usable search participant) := by
  rw [NameStore.matchParticipant]
  split
  · exact dated_nameMatchedPerson (dated_insertMatches h _) _ _
  · exact h

theorem dated_perform (h : Dated s) (step : NameStep) (hstep : step.submits = false) :
    Dated (s.perform usable search step) := by
  cases step with
  | rename eventId personId name =>
    simp only [NameStore.perform]
    split
    · rename_i s' hs
      obtain ⟨rfl, p, hp, rfl, -⟩ := update_cases hs
      exact dated_rename h (h.persons p hp) name
    · exact h
  | submit eventId email name selfies => cases hstep
  | selfieProcess participantId =>
    have hjobs : Dated { s with jobs := s.jobs.erase participantId } :=
      h.grown rfl rfl le_rfl rfl h.faces fun _ _ hc => hc
    simp only [NameStore.perform, NameStore.handleSelfieProcess]
    split
    · exact hjobs
    · split
      · exact hjobs
      · exact dated_matchParticipant (dated_setEmbedded hjobs _) _
  | rematch participantId =>
    simp only [NameStore.perform, NameStore.rematch]
    split
    · exact h
    · exact dated_matchParticipant h _
  | recognize faceId found isCore => exact dated_recognize h faceId found isCore
  | backfill => exact dated_nameAll h _

theorem dated_step (h : Dated s) (m : ℕ × NameStep) (hm : m.2.submits = false) :
    Dated (s.step usable search m) := by
  refine dated_perform ?_ m.2 hm
  exact h.grown rfl rfl ((Nat.le_succ _).trans (le_max_left _ _)) rfl h.faces fun _ _ hc => hc

theorem dated_run (h : Dated s) (moves : List (ℕ × NameStep))
    (hmoves : ∀ m ∈ moves, m.2.submits = false) :
    Dated (s.runSteps usable search moves) := by
  induction moves generalizing s with
  | nil => exact h
  | cons m rest ih =>
    exact ih (dated_step h m (hmoves m List.mem_cons_self)) fun m' hm' =>
      hmoves m' (List.mem_cons_of_mem _ hm')

end Steps

/-! After a backfill. -/

section Backfill

variable {s : NameStore}

/-- A person that has the newest of its claims, or newer, takes none. -/
theorem offered_covered {p : Person} (h : Covers (s.claimsOn p.id) p.cell) :
    p.offered (s.latestClaim p.id) = p := by
  cases hbest : s.latestClaim p.id with
  | none => rfl
  | some a =>
    obtain ⟨held, hheld, hle⟩ := h a (newest_mem hbest)
    obtain ⟨setAt, hsetAt, rfl⟩ := Option.map_eq_some_iff.mp hheld
    refine if_neg fun hnewer => ?_
    rw [hsetAt] at hnewer
    exact absurd (of_decide_eq_true hnewer) (Nat.not_lt_of_le hle)

/-- Whoever is on the list has its claims covered afterwards. -/
theorem covered_nameAll {clusters : List (ℕ × ℕ)}
    (h : ∀ p ∈ s.persons, (p.eventId, p.id) ∈ clusters ∨ Covers (s.claimsOn p.id) p.cell) :
    ∀ p ∈ (s.nameAll clusters).persons, Covers (s.claimsOn p.id) p.cell := by
  induction clusters generalizing s with
  | nil => exact fun p hp => (h p hp).resolve_left List.not_mem_nil
  | cons cluster rest ih =>
    refine ih (s := s.nameFromParticipants cluster.1 cluster.2) fun p' hp' => ?_
    obtain ⟨p, hp, rfl⟩ := List.mem_map.mp hp'
    split
    · rename_i hkey
      refine .inr ?_
      rw [cell_offered, (offered_key _ p).1, ← hkey.1]
      exact covers_newest _ _
    · rename_i hkey
      rcases h p hp with hlisted | hcovered
      · rcases List.mem_cons.mp hlisted with rfl | hrest
        · exact absurd ⟨rfl, rfl⟩ hkey
        · exact .inl hrest
      · exact .inr hcovered

theorem covered_backfill :
    ∀ p ∈ s.handlePersonNameBackfill.persons, Covers (s.claimsOn p.id) p.cell := by
  refine covered_nameAll fun p hp => ?_
  by_cases hclaims : s.claimsOn p.id = []
  · refine .inr fun b hb => ?_
    rw [hclaims] at hb
    cases hb
  · exact .inl (List.mem_map.mpr ⟨p, List.mem_filter.mpr ⟨hp, decide_eq_true hclaims⟩, rfl⟩)

theorem claims_nameAll (clusters : List (ℕ × ℕ)) (personId : ℕ) :
    (s.nameAll clusters).claimsOn personId = s.claimsOn personId := by
  induction clusters generalizing s with
  | nil => rfl
  | cons cluster rest ih => exact ih (s := s.nameFromParticipants cluster.1 cluster.2)

theorem converged (hdated : Dated s) (hnamed : ∀ p ∈ s.persons, Covers (s.claimsOn p.id) p.cell) :
    s.Converged := by
  have hagain : ∀ eventId personId, s.nameFromParticipants eventId personId = s := by
    intro eventId personId
    have hsame : s.persons.map (fun p =>
        if p.id = personId ∧ p.eventId = eventId then p.offered (s.latestClaim personId) else p) =
          s.persons := by
      refine (List.map_congr_left fun p hp => ?_).trans (List.map_id _)
      split
      · rename_i hkey
        rw [← hkey.1]
        exact offered_covered (hnamed p hp)
      · rfl
    rw [NameStore.nameFromParticipants, hsame]
  have hall : ∀ clusters, s.nameAll clusters = s := by
    intro clusters
    induction clusters with
    | nil => rfl
    | cons cluster rest ih =>
      rw [NameStore.nameAll, List.foldl_cons, hagain]
      exact ih
  refine ⟨fun p hp => ?_, hagain, fun participant faceIds => ?_, hall _⟩
  · exact ⟨hdated.held p hp, covers_append (hdated.renamed p hp) (hnamed p hp)⟩
  · rw [NameStore.nameMatchedPerson]
    split
    · rfl
    · exact hall _

end Backfill

section Converge

variable {usable : String → Bool} {search : String → List ℕ} {s : NameStore}

theorem dated_fresh (h : s.Fresh) : Dated s := by
  have hrenames : ∀ e id, s.renamesOn e id = [] := by
    intro e id
    rw [NameStore.renamesOn, h.acts]
    rfl
  have hacts : ∀ act, act ∉ s.acts := by
    intro act hact
    rw [h.acts] at hact
    cases hact
  refine ⟨fun p hp a ha => ?_, fun p hp b hb => ?_, fun act hact => absurd hact (hacts act),
    fun e id name time hact => absurd hact (hacts _), h.faces, h.persons⟩
  · rw [Person.cell, h.unnamed p hp] at ha
    cases ha
  · rw [hrenames] at hb
    cases hb

/-- Matching, clustering, renames and backfills in any order leave every person
with the latest of its claims and renames, once a backfill has come last. -/
theorem names_converge (hs : s.Fresh) (moves : List (ℕ × NameStep))
    (hmoves : ∀ m ∈ moves, m.2.submits = false) (later : ℕ) :
    (s.runSteps usable search (moves ++ [(later, .backfill)])).Converged := by
  have hall : ∀ m ∈ moves ++ [(later, NameStep.backfill)], m.2.submits = false := by
    intro m hm
    rcases List.mem_append.mp hm with hm | hm
    · exact hmoves m hm
    · rw [List.mem_singleton.mp hm]
      rfl
  refine converged (dated_run (dated_fresh hs) _ hall) ?_
  rw [NameStore.runSteps, List.foldl_append]
  intro p hp
  have hcovered := covered_backfill p hp
  change Covers (NameStore.claimsOn (NameStore.nameAll _ _) p.id) p.cell
  rw [claims_nameAll]
  exact hcovered

end Converge

/-- A guest is matched, the organiser renames the person, and a matched face
joins the person last. -/
def wedding : NameStore :=
  { persons := [{ id := 0, eventId := 0 }]
    faces := [{ id := 0, assetId := 10, eventId := 0, personId := some 0 },
      { id := 1, assetId := 11, eventId := 0 }]
    participants :=
      [{ id := 0, eventId := 0, email := "priya@guests", name := "Priya", selfies := ["selfie"],
                       embedded := true }]
    nextPerson := 1
    nextParticipant := 1 }

def weddingMoves : List (ℕ × NameStep) :=
  [(10, .rematch 0), (20, .rename 0 0 "Priya Sharma"), (30, .recognize 1 (some 0) false)]

theorem names_converge_wedding :
    (wedding.runSteps (fun _ => true) (fun _ => [0, 1])
      (weddingMoves ++ [(40, .backfill)])).persons.map
        Person.cell = [some ("Priya Sharma", 20)] ∧
      (wedding.runSteps (fun _ => true) (fun _ => [0, 1])
        (weddingMoves ++ [(40, .backfill)])).Converged :=
  ⟨by decide, names_converge ⟨by decide, rfl, by decide, by decide⟩
    weddingMoves (by decide) 40⟩

end EventLens.Names
