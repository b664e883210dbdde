import EventLens.ParticipantStages
import Mathlib.Data.List.Induction

/-!
Matching against a new submission. A job reads the selfies, has them embedded
or searches with their embeddings, and writes in statements of their own, while
a submission replaces the selfies. Two jobs of a participant also download to
the same files. As long as a photo is detected in the file that the job itself
has written, and what a job read is still there when it writes, the stored
embeddings and the matches come from the last set of selfies.
-/

namespace EventLens.Selfies

open Programs Contract

/-- The last set of selfies written for a participant. -/
def latest (s : ParticipantStore) (id : ParticipantId) : Option (List SelfieKey) :=
  ((s.submitted.filter (fun set => set.1 = id)).getLast?).map Prod.snd

/-- The embedding of the largest face of this photo. -/
def OfPhoto (V : Services) (key : SelfieKey) (e : Embedding) : Prop :=
  ∃ face, largest (V.detect key) = some face ∧ face.embedding = e

def FromLatest (V : Services) (s : ParticipantStore) (id : ParticipantId) (e : Embedding) : Prop :=
  ∃ keys, latest s id = some keys ∧ ∃ key ∈ keys, OfPhoto V key e

/-- The match is for an asset with a face that a search of the call found within
the distance of the event, by an embedding of the latest selfies. -/
def Genuine (V : Services) (s : ParticipantStore) (past : List ParticipantEvent) (m : MatchInsert) :
    Prop :=
  ∃ e eventId faces, FromLatest V s m.participantId e ∧
    ⟨.searchFaces eventId e (V.maxDistance eventId), faces⟩ ∈ past ∧
    (∀ row ∈ s.participants, row.id = m.participantId → row.eventId = eventId) ∧
    ∃ face ∈ (faces : List IndexedFace), face.id = m.viaFaceId ∧ face.assetId = m.assetId ∧
      V.distance face.embedding e ≤ V.maxDistance eventId

/-- Matches that are inserted and primary embeddings that are stored come from
the latest selfies, and an embedding stored for a selfie from its photo. -/
structure Faithful (V : Services) (p : ParticipantPool) (t : ParticipantThread)
    (e : ParticipantEvent) : Prop where
  inserted : ∀ inserts, e.1 = .insertMatches inserts → ∀ m ∈ inserts, Genuine V p.state t.past m
  primary : ∀ id dto embedding, e.1 = .update id dto →
    dto.selfieEmbedding = some (some embedding) → FromLatest V p.state id embedding
  selfie : ∀ id embedding, e.1 = .setSelfieEmbedding id (some embedding) →
    ∀ row ∈ p.state.selfies, row.id = id → OfPhoto V row.storageKey embedding

/-- What is stored comes from the latest selfies. -/
structure UpToDate (V : Services) (s : ParticipantStore) : Prop where
  primary : ∀ p ∈ s.participants, ∀ e, p.selfieEmbedding = some e → FromLatest V s p.id e
  selfies : ∀ row ∈ s.selfies, (∃ keys, latest s row.participantId = some keys ∧
    row.storageKey ∈ keys) ∧ ∀ e, row.embedding = some e → OfPhoto V row.storageKey e

/-- The row of this selfie is still in the table. -/
def StillThere (s : ParticipantStore) (selfie : ParticipantSelfie) : Prop :=
  ∃ row ∈ s.selfies, row.id = selfie.id

instance (s : ParticipantStore) (selfie : ParticipantSelfie) : Decidable (StillThere s selfie) := by
  unfold StillThere
  infer_instance

/-- The file at this path, if there, is this photo. -/
def Downloaded (s : ParticipantStore) (id : ParticipantId) (ordinal : ℕ) (key : SelfieKey) : Prop :=
  ∀ f ∈ s.workFiles, f.participantId = id → f.ordinal = ordinal → f.photo = some key

instance (s : ParticipantStore) (id : ParticipantId) (ordinal : ℕ) (key : SelfieKey) :
    Decidable (Downloaded s id ordinal key) := by
  unfold Downloaded
  infer_instance

/-- What a stage has read for its next write, or written for its next reading,
is still so. -/
def Stage.Fresh (inProgress : List Stage) (s : ParticipantStore) : Stage → ParticipantOp → Prop
  | .embedding _ _ (selfie :: _), .detectFaces id ordinal =>
    Downloaded s id ordinal selfie.storageKey
  | .embedding id (some (selfie, _)) _, .update _ dto =>
    dto.selfieEmbedding = none ∨ StillThere s selfie ∧ .replacing id ∉ inProgress
  | .matching p _ (some selfies) _ _, .insertMatches _ =>
    if selfies.filterMap (fun selfie => selfie.embedding) = [] then
      ∃ row ∈ s.participants, row.id = p.id ∧ row.selfieEmbedding = p.selfieEmbedding
    else ∀ selfie ∈ selfies, selfie.embedding ≠ none → StillThere s selfie
  | _, _ => True

theorem Stage.Fresh.update {inProgress : List Stage} {s : ParticipantStore} {id k : ParticipantId}
    {selfie : ParticipantSelfie} {face : DetectedFace} {selfies : List ParticipantSelfie}
    {dto : ParticipantChange}
    (h : (Stage.embedding id (some (selfie, face)) selfies).Fresh inProgress s (.update k dto)) :
    dto.selfieEmbedding = none ∨ StillThere s selfie ∧ .replacing id ∉ inProgress := by
  cases selfies <;> exact h

/-- The selfie whose embedding is about to be stored, and whose it is. -/
def Stage.storing : Stage → Option (ParticipantId × ParticipantSelfie)
  | .embedding id (some (selfie, _)) _ => some (id, selfie)
  | _ => none

/-- The photo whose face is detected next. -/
def Stage.awaited : Stage → Option SelfieKey
  | .embedding _ _ (selfie :: _) => some selfie.storageKey
  | _ => none

/-- The selfies searched with, and whose they are. -/
def Stage.searching : Stage → Option (Participant × List ParticipantSelfie)
  | .matching p _ (some selfies) _ _ => some (p, selfies)
  | _ => none

def ParticipantOp.changes : ParticipantOp → Option ParticipantChange
  | .update _ dto => some dto
  | _ => none

def ParticipantOp.detecting : ParticipantOp → Option (ParticipantId × ℕ)
  | .detectFaces id ordinal => some (id, ordinal)
  | _ => none

def ParticipantOp.inserting : ParticipantOp → Bool
  | .insertMatches _ => true
  | _ => false

/-- Freshness by what is awaited, stored and searched with. -/
theorem Stage.fresh_iff (inProgress : List Stage) (s : ParticipantStore) (g : Stage)
    (o : ParticipantOp) :
    ((∀ key ∈ g.awaited, ∀ path ∈ o.detecting, Downloaded s path.1 path.2 key) ∧
      (∀ chosen ∈ g.storing, ∀ dto ∈ o.changes,
        dto.selfieEmbedding = none ∨ StillThere s chosen.2 ∧ .replacing chosen.1 ∉ inProgress) ∧
      ∀ searching ∈ g.searching, o.inserting = true →
        if searching.2.filterMap (fun selfie => selfie.embedding) = [] then
          ∃ row ∈ s.participants, row.id = searching.1.id ∧
            row.selfieEmbedding = searching.1.selfieEmbedding
        else ∀ selfie ∈ searching.2, selfie.embedding ≠ none → StillThere s selfie) ↔
      g.Fresh inProgress s o := by
  have hnone : ∀ {α : Type} {P : α → Prop}, ∀ a ∈ (none : Option α), P a :=
    fun a ha => absurd ha (Option.not_mem_none a)
  have hone : ∀ {α : Type} {P : α → Prop} {a : α}, (∀ b ∈ some a, P b) ↔ P a :=
    ⟨fun h => h _ rfl, fun h _ hb => by rwa [← Option.mem_some.mp hb]⟩
  cases g with
  | embedding id stored selfies =>
    have hsearching : ∀ {P : Participant × List ParticipantSelfie → Prop},
        ∀ searching ∈ (Stage.embedding id stored selfies).searching, P searching := hnone
    cases o with
    | detectFaces k ordinal =>
      have hchanges : ∀ {P : ParticipantChange → Prop},
          ∀ dto ∈ (ParticipantOp.detectFaces k ordinal).changes, P dto := hnone
      cases selfies with
      | nil =>
        exact iff_of_true ⟨hnone, fun _ _ => hchanges, hsearching⟩ (by cases stored <;> trivial)
      | cons selfie selfies =>
        refine ⟨fun h => h.1 _ rfl _ rfl, fun h => ⟨hone.mpr (hone.mpr h), fun _ _ => hchanges,
          hsearching⟩⟩
    | update k dto =>
      cases stored with
      | none =>
        exact iff_of_true ⟨fun _ _ => hnone, hnone, hsearching⟩ (by cases selfies <;> trivial)
      | some chosen =>
        refine ⟨fun h => ?_, fun h => ⟨fun _ _ => hnone, hone.mpr (hone.mpr h.update),
          hsearching⟩⟩
        cases selfies <;> exact h.2.1 _ rfl _ rfl
    | _ =>
      exact iff_of_true ⟨fun _ _ => hnone, fun _ _ => hnone, hsearching⟩
        (by cases stored <;> cases selfies <;> trivial)
  | matching p primary selfies found after =>
    have hawaited : ∀ {P : SelfieKey → Prop},
        ∀ key ∈ (Stage.matching p primary selfies found after).awaited, P key := hnone
    have hstoring : ∀ {P : ParticipantId × ParticipantSelfie → Prop},
        ∀ chosen ∈ (Stage.matching p primary selfies found after).storing, P chosen := hnone
    cases selfies with
    | none => exact iff_of_true ⟨hawaited, hstoring, hnone⟩ trivial
    | some selfies =>
      cases o with
      | insertMatches rows =>
        exact ⟨fun h => h.2.2 _ rfl rfl, fun h => ⟨hawaited, hstoring, hone.mpr fun _ => h⟩⟩
      | _ => exact iff_of_true ⟨hawaited, hstoring, fun _ _ h => absurd h Bool.false_ne_true⟩ trivial
  | _ => exact iff_of_true ⟨hnone, hnone, hnone⟩ trivial

instance (inProgress : List Stage) (s : ParticipantStore) (g : Stage) (o : ParticipantOp) :
    Decidable (g.Fresh inProgress s o) :=
  decidable_of_iff _ (Stage.fresh_iff inProgress s g o)

/-- When a job has a face detected, the file at the path, if there, is the photo
it has downloaded; when it stores a primary embedding, the selfie it comes from
is still there and no new submission has begun to write; when it inserts
matches, the embeddings it searched with are still there. -/
def NotOvertaken (p : ParticipantPool) (t : ParticipantThread) (e : ParticipantEvent) : Prop :=
  (t.past.foldl Stage.note t.call.first).Fresh (stagesOf p) p.state e.1

instance (p : ParticipantPool) (t : ParticipantThread) (e : ParticipantEvent) :
    Decidable (NotOvertaken p t e) := by
  unfold NotOvertaken
  infer_instance

/-! What the calls in progress have read. -/

section Reading

variable {V : Services} {s s' : ParticipantStore}

/-- The selfie, if it is still there, has this photo and this participant. -/
def Known (s : ParticipantStore) (selfie : ParticipantSelfie) : Prop :=
  selfie.id < s.nextSelfie ∧ ∀ row ∈ s.selfies, row.id = selfie.id →
    row.storageKey = selfie.storageKey ∧ row.participantId = selfie.participantId

/-- The participant, if still there, belongs to this event. -/
def KnownPerson (s : ParticipantStore) (p : Participant) : Prop :=
  p.id < s.nextParticipant ∧ ∀ row ∈ s.participants, row.id = p.id → row.eventId = p.eventId

def KnownAfter (s : ParticipantStore) (after : After) : Prop :=
  ∀ todo ∈ after, ∀ p ∈ todo, KnownPerson s p

/-- A selfie as it was read. -/
structure Read (V : Services) (s : ParticipantStore) (id : ParticipantId)
    (selfie : ParticipantSelfie) : Prop where
  known : Known s selfie
  own : selfie.participantId = id
  photo : ∀ e, selfie.embedding = some e → OfPhoto V selfie.storageKey e

/-- A search made for a participant with these selfies. -/
structure Searched (V : Services) (p : Participant) (primary : Embedding)
    (selfies : Option (List ParticipantSelfie)) (search : Search) : Prop where
  event : search.eventId = p.eventId
  maxDistance : search.maxDistance = V.maxDistance p.eventId
  embedding : ∃ rows, selfies = some rows ∧ search.embedding ∈ searchWith primary rows
  near : ∀ face ∈ search.faces, V.distance face.embedding search.embedding ≤ V.maxDistance p.eventId

def Stage.Holds (V : Services) (s : ParticipantStore) : Stage → Prop
  | .embedding id stored selfies => (∀ selfie ∈ selfies, Read V s id selfie) ∧
      ∀ pair ∈ stored, Read V s id pair.1 ∧ OfPhoto V pair.1.storageKey pair.2.embedding
  | .detected id selfie face selfies => (∀ selfie ∈ selfies, Read V s id selfie) ∧
      Read V s id selfie ∧ face = largest (V.detect selfie.storageKey)
  | .matching p primary selfies found after => KnownPerson s p ∧ p.selfieEmbedding = some primary ∧
      (∀ rows ∈ selfies, ∀ selfie ∈ rows, Read V s p.id selfie) ∧
      (∀ search ∈ found, Searched V p primary selfies search) ∧ KnownAfter s after
  | .matched _ _ after | .announcing _ after => KnownAfter s after
  | _ => True

/-- Rows that are there are new, or were there, for the same photo. -/
structure Extends (s s' : ParticipantStore) : Prop where
  nextParticipant : s.nextParticipant ≤ s'.nextParticipant
  nextSelfie : s.nextSelfie ≤ s'.nextSelfie
  participants : ∀ row ∈ s'.participants, s.nextParticipant ≤ row.id ∨
    ∃ before ∈ s.participants, before.id = row.id ∧ before.eventId = row.eventId
  selfies : ∀ row ∈ s'.selfies, s.nextSelfie ≤ row.id ∨
    ∃ before ∈ s.selfies, before.id = row.id ∧ before.storageKey = row.storageKey ∧
      before.participantId = row.participantId

theorem Known.mono {selfie : ParticipantSelfie} (h : Known s selfie) (hs : Extends s s') :
    Known s' selfie := by
  refine ⟨h.1.trans_le hs.nextSelfie, fun row hrow hid => ?_⟩
  rcases hs.selfies row hrow with hnew | ⟨before, hbefore, hsame, hkey, hown⟩
  · rw [hid] at hnew
    exact absurd hnew (Nat.not_le.mpr h.1)
  · rw [← hkey, ← hown]
    exact h.2 before hbefore (hsame.trans hid)

theorem KnownPerson.mono {p : Participant} (h : KnownPerson s p) (hs : Extends s s') :
    KnownPerson s' p := by
  refine ⟨h.1.trans_le hs.nextParticipant, fun row hrow hid => ?_⟩
  rcases hs.participants row hrow with hnew | ⟨before, hbefore, hsame, hevent⟩
  · rw [hid] at hnew
    exact absurd hnew (Nat.not_le.mpr h.1)
  · rw [← hevent]
    exact h.2 before hbefore (hsame.trans hid)

theorem KnownAfter.mono {after : After} (h : KnownAfter s after) (hs : Extends s s') :
    KnownAfter s' after := fun todo htodo p hp => (h todo htodo p hp).mono hs

theorem Read.mono {id : ParticipantId} {selfie : ParticipantSelfie} (h : Read V s id selfie)
    (hs : Extends s s') : Read V s' id selfie := ⟨h.known.mono hs, h.own, h.photo⟩

theorem Stage.Holds.mono {g : Stage} (h : g.Holds V s) (hs : Extends s s') : g.Holds V s' := by
  cases g with
  | embedding id stored selfies =>
    obtain ⟨hselfies, hstored⟩ := h
    exact ⟨fun selfie hselfie => (hselfies selfie hselfie).mono hs,
      fun pair hpair => ⟨(hstored pair hpair).1.mono hs, (hstored pair hpair).2⟩⟩
  | detected id selfie face selfies =>
    obtain ⟨hselfies, hselfie, hface⟩ := h
    exact ⟨fun selfie hselfie => (hselfies selfie hselfie).mono hs, hselfie.mono hs, hface⟩
  | matching p primary selfies found after =>
    obtain ⟨hp, hprimary, hselfies, hfound, hafter⟩ := h
    exact ⟨hp.mono hs, hprimary, fun rows hrows selfie hselfie =>
      (hselfies rows hrows selfie hselfie).mono hs, hfound, hafter.mono hs⟩
  | matched p inserted after => exact KnownAfter.mono h hs
  | announcing p after => exact KnownAfter.mono h hs
  | _ => trivial

theorem holds_next {todo : List Participant} (h : ∀ p ∈ todo, KnownPerson s p) :
    (Stage.next todo).Holds V s := by
  induction todo with
  | nil => trivial
  | cons p todo ih =>
    have htodo : ∀ q ∈ todo, KnownPerson s q := fun q hq => h q (List.mem_cons_of_mem _ hq)
    rw [Stage.next]
    cases hprimary : truthy p.selfieEmbedding with
    | none => exact ih htodo
    | some primary =>
      refine ⟨h p (List.mem_cons_self ..), (Option.filter_eq_some_iff.mp hprimary).1, nofun,
        fun _ hsearch => absurd hsearch List.not_mem_nil, ?_⟩
      rintro _ ⟨⟩
      exact htodo

theorem holds_resume {after : After} (h : KnownAfter s after) : (Stage.resume after).Holds V s := by
  cases after with
  | none => trivial
  | some todo => exact holds_next (h todo rfl)

theorem holds_chosen {p : Participant} {after : After} (hp : KnownPerson s p)
    (hafter : KnownAfter s after) : (Stage.chosen p after).Holds V s := by
  rw [Stage.chosen]
  cases hprimary : truthy p.selfieEmbedding with
  | none => exact holds_resume hafter
  | some primary =>
    exact ⟨hp, (Option.filter_eq_some_iff.mp hprimary).1, (fun _ hfound => by cases hfound),
      fun _ hsearch => absurd hsearch List.not_mem_nil, hafter⟩

theorem next_ne_replacing (todo : List Participant) (id : ParticipantId) :
    Stage.next todo ≠ .replacing id := by
  induction todo with
  | nil => nofun
  | cons p todo ih =>
    rw [Stage.next]
    cases truthy p.selfieEmbedding with
    | none => exact ih
    | some primary => nofun

theorem resume_ne_replacing (after : After) (id : ParticipantId) :
    Stage.resume after ≠ .replacing id := by
  cases after with
  | none => nofun
  | some todo => exact next_ne_replacing todo id

theorem chosen_ne_replacing (p : Participant) (after : After) (id : ParticipantId) :
    Stage.chosen p after ≠ .replacing id := by
  rw [Stage.chosen]
  cases truthy p.selfieEmbedding with
  | none => exact resume_ne_replacing after id
  | some primary =>
    intro h
    cases h

end Reading

/-! What every step keeps. -/

structure Sound (V : Services) (S : Multiset Stage) (s : ParticipantStore) : Prop where
  ids : (s.participants.map Participant.id).Nodup
  below : ∀ p ∈ s.participants, p.id < s.nextParticipant
  selfieIds : (s.selfies.map ParticipantSelfie.id).Nodup
  fresh : ∀ row ∈ s.selfies, row.id < s.nextSelfie
  whole : ∀ row ∈ s.selfies, ∃ first ∈ s.selfies,
    first.participantId = row.participantId ∧ first.ordinal = 0
  upToDate : UpToDate V s
  unwritten : ∀ p ∈ s.participants, .replacing p.id ∈ S → p.selfieEmbedding = none
  holds : ∀ g ∈ S, g.Holds V s

section Steps

variable {V : Services} {g g' : Stage} {N S : Multiset Stage} {s s' : ParticipantStore}

/-- The tables that selfies and their embeddings are kept in. -/
structure SameTables (s s' : ParticipantStore) : Prop where
  participants : s'.participants = s.participants
  selfies : s'.selfies = s.selfies
  submitted : s'.submitted = s.submitted
  nextParticipant : s'.nextParticipant = s.nextParticipant
  nextSelfie : s'.nextSelfie = s.nextSelfie

theorem SameTables.extends (h : SameTables s s') : Extends s s' where
  nextParticipant := h.nextParticipant.ge
  nextSelfie := h.nextSelfie.ge
  participants row hrow := .inr ⟨row, h.participants ▸ hrow, rfl, rfl⟩
  selfies row hrow := .inr ⟨row, h.selfies ▸ hrow, rfl, rfl, rfl⟩

theorem latest_congr (h : s'.submitted = s.submitted) (id : ParticipantId) :
    latest s' id = latest s id := by
  rw [latest, latest, h]

theorem FromLatest.congr {id : ParticipantId} {e : Embedding} (h : FromLatest V s id e)
    (hsame : latest s' id = latest s id) : FromLatest V s' id e := by
  rw [FromLatest, hsame]
  exact h

/-- A step that changes participants and selfies in place, or removes them. -/
theorem Sound.next (h : Sound V (g ::ₘ N) s) (hs : Extends s s')
    (hids : (s'.participants.map Participant.id).Nodup)
    (hbelow : ∀ p ∈ s'.participants, p.id < s'.nextParticipant)
    (hselfieIds : (s'.selfies.map ParticipantSelfie.id).Nodup)
    (hfresh : ∀ row ∈ s'.selfies, row.id < s'.nextSelfie)
    (hwhole : ∀ row ∈ s'.selfies, ∃ first ∈ s'.selfies,
      first.participantId = row.participantId ∧ first.ordinal = 0)
    (hupToDate : UpToDate V s')
    (hunwritten : ∀ p ∈ s'.participants, .replacing p.id ∈ g' ::ₘ N → p.selfieEmbedding = none)
    (hholds : g'.Holds V s') : Sound V (g' ::ₘ N) s' := by
  refine ⟨hids, hbelow, hselfieIds, hfresh, hwhole, hupToDate, hunwritten, fun k hk => ?_⟩
  rcases Multiset.mem_cons.mp hk with rfl | hk
  · exact hholds
  · exact (h.holds k (Multiset.mem_cons_of_mem hk)).mono hs

theorem replacing_before {id : ParticipantId}
    (hg : ∀ k, g' = .replacing k → g = .replacing k) (hmem : .replacing id ∈ g' ::ₘ N) :
    .replacing id ∈ g ::ₘ N := by
  rcases Multiset.mem_cons.mp hmem with hk | hk
  · exact Multiset.mem_cons.mpr (.inl (hg id hk.symm).symm)
  · exact Multiset.mem_cons_of_mem hk

/-- A step that leaves the tables alone. -/
theorem Sound.read (h : Sound V (g ::ₘ N) s) (hsame : SameTables s s')
    (hg : ∀ k, g' = .replacing k → g = .replacing k) (hholds : g'.Holds V s') :
    Sound V (g' ::ₘ N) s' := by
  refine h.next hsame.extends ?_ ?_ ?_ ?_ ?_ ⟨?_, ?_⟩ ?_ hholds
  · rw [hsame.participants]
    exact h.ids
  · rw [hsame.participants, hsame.nextParticipant]
    exact h.below
  · rw [hsame.selfies]
    exact h.selfieIds
  · rw [hsame.selfies, hsame.nextSelfie]
    exact h.fresh
  · rw [hsame.selfies]
    exact h.whole
  · rw [hsame.participants]
    intro p hp e he
    exact (h.upToDate.primary p hp e he).congr (latest_congr hsame.submitted p.id)
  · rw [hsame.selfies]
    intro row hrow
    rw [latest_congr hsame.submitted]
    exact h.upToDate.selfies row hrow
  · rw [hsame.participants]
    exact fun p hp hmem => h.unwritten p hp (replacing_before hg hmem)

/-- Participants keep their ids and events; only some primary embeddings
change. -/
theorem Sound.people (h : Sound V (g ::ₘ N) s) {people : List Participant}
    (hids : (people.map Participant.id).Nodup)
    (hpeople : ∀ p ∈ people, ∃ before ∈ s.participants, before.id = p.id ∧
      before.eventId = p.eventId ∧ ∀ e, p.selfieEmbedding = some e →
        before.selfieEmbedding = some e ∨
          FromLatest V s p.id e ∧ .replacing p.id ∉ g' ::ₘ N)
    (hg : ∀ k, g' = .replacing k → g = .replacing k)
    (hholds : g'.Holds V { s with participants := people }) :
    Sound V (g' ::ₘ N) { s with participants := people } := by
  refine h.next ⟨le_rfl, le_rfl, ?_, fun row hrow => .inr ⟨row, hrow, rfl, rfl, rfl⟩⟩ hids ?_
    h.selfieIds h.fresh h.whole ⟨?_, h.upToDate.selfies⟩ ?_ hholds
  · intro row hrow
    obtain ⟨before, hbefore, hid, hevent, -⟩ := hpeople row hrow
    exact .inr ⟨before, hbefore, hid, hevent⟩
  · intro p hp
    obtain ⟨before, hbefore, hid, -⟩ := hpeople p hp
    exact hid ▸ h.below before hbefore
  · intro p hp e he
    obtain ⟨before, hbefore, hid, -, hprimary⟩ := hpeople p hp
    rcases hprimary e he with hkept | ⟨hlatest, -⟩
    · exact hid ▸ h.upToDate.primary before hbefore e hkept
    · exact hlatest
  · intro p hp hmem
    obtain ⟨before, hbefore, hid, -, hprimary⟩ := hpeople p hp
    cases he : p.selfieEmbedding with
    | none => rfl
    | some e =>
      rcases hprimary e he with hkept | ⟨-, hnone⟩
      · have hnull := h.unwritten before hbefore (hid ▸ replacing_before hg hmem)
        rw [hkept] at hnull
        exact hnull
      · exact absurd hmem hnone

/-- Selfies of one participant go. -/
theorem extends_deleteSelfies (id : ParticipantId) : Extends s (s.deleteSelfies id) where
  nextParticipant := le_rfl
  nextSelfie := le_rfl
  participants row hrow := .inr ⟨row, hrow, rfl, rfl⟩
  selfies row hrow := .inr ⟨row, (List.mem_filter.mp hrow).1, rfl, rfl, rfl⟩

theorem Sound.deleted (h : Sound V (g ::ₘ N) s) (id : ParticipantId)
    (hg : ∀ k, g' = .replacing k → g = .replacing k) (hholds : g'.Holds V (s.deleteSelfies id)) :
    Sound V (g' ::ₘ N) (s.deleteSelfies id) := by
  have hmem : ∀ row ∈ (s.deleteSelfies id).selfies, row ∈ s.selfies ∧ row.participantId ≠ id := by
    intro row hrow
    obtain ⟨hrow, hne⟩ := List.mem_filter.mp hrow
    exact ⟨hrow, of_decide_eq_true hne⟩
  refine h.next (extends_deleteSelfies id) h.ids h.below ?_
    (fun row hrow => h.fresh row (hmem row hrow).1)
    ?_ ⟨h.upToDate.primary, fun row hrow => h.upToDate.selfies row (hmem row hrow).1⟩ ?_ hholds
  · exact h.selfieIds.sublist (List.Sublist.map _ List.filter_sublist)
  · intro row hrow
    obtain ⟨hrow, hne⟩ := hmem row hrow
    obtain ⟨first, hfirst, hown, hzero⟩ := h.whole row hrow
    refine ⟨first, List.mem_filter.mpr ⟨hfirst, decide_eq_true ?_⟩, hown, hzero⟩
    rwa [hown]
  · exact fun p hp hk => h.unwritten p hp (replacing_before hg hk)

theorem Sound.update (h : Sound V (g ::ₘ N) s) {id : ParticipantId} {dto : ParticipantChange}
    (hdto : ∀ e, dto.selfieEmbedding = some (some e) →
      FromLatest V s id e ∧ .replacing id ∉ g' ::ₘ N)
    (hg : ∀ k, g' = .replacing k → g = .replacing k) (hholds : g'.Holds V (s.update id dto)) :
    Sound V (g' ::ₘ N) (s.update id dto) := by
  refine h.people ?_ ?_ hg hholds
  · rw [map_updateRow (f := dto.apply) fun _ => rfl]
    exact h.ids
  · intro p hp
    rcases mem_updateRow.mp hp with ⟨before, hbefore, hid, rfl⟩ | ⟨hp, -⟩
    · refine ⟨before, hbefore, rfl, rfl, fun e he => ?_⟩
      cases hset : dto.selfieEmbedding with
      | none =>
        rw [ParticipantChange.apply, hset] at he
        exact .inl he
      | some primary =>
        rw [ParticipantChange.apply, hset] at he
        obtain rfl : primary = some e := he
        obtain ⟨hlatest, hnone⟩ := hdto e hset
        exact .inr ⟨hid.symm ▸ hlatest, hid.symm ▸ hnone⟩
    · exact ⟨p, hp, rfl, rfl, fun e he => .inl he⟩

theorem Sound.scrubbed (h : Sound V (g ::ₘ N) s) (id : ParticipantId)
    (hg : ∀ k, g' = .replacing k → g = .replacing k) (hholds : g'.Holds V (s.scrub id)) :
    Sound V (g' ::ₘ N) (s.scrub id) := by
  have hids : (s.scrub id).participants.map Participant.id = s.participants.map Participant.id :=
    map_updateRow fun _ => rfl
  refine h.people ?_ ?_ hg hholds
  · exact hids ▸ h.ids
  · intro p hp
    rcases mem_updateRow.mp hp with ⟨before, hbefore, hid, rfl⟩ | ⟨hp, -⟩
    · exact ⟨before, hbefore, rfl, rfl, nofun⟩
    · exact ⟨p, hp, rfl, rfl, fun e he => .inl he⟩

theorem Sound.erased (h : Sound V (.erasing ::ₘ N) s) (id : ParticipantId) :
    Sound V (.erasing ::ₘ N) (s.deleteParticipant id) := by
  have hdeleted : Sound V (.erasing ::ₘ N) (s.deleteSelfies id) := h.deleted id nofun trivial
  have hpeople : Sound V (.erasing ::ₘ N) { s.deleteSelfies id with
      participants := s.participants.filter (fun p => p.id ≠ id) } := by
    refine hdeleted.people (h.ids.sublist (List.Sublist.map _ List.filter_sublist)) ?_ nofun trivial
    intro p hp
    exact ⟨p, (List.mem_filter.mp hp).1, rfl, rfl, fun e he => .inl he⟩
  exact hpeople.read ⟨rfl, rfl, rfl, rfl, rfl⟩ nofun trivial

/-- A new submission resets the primary embedding. -/
theorem Sound.upserted (h : Sound V (.submitting ::ₘ N) s) (up : ParticipantUpsert) :
    Sound V (.replacing (s.upsert up).1.id ::ₘ N) (s.upsert up).2 := by
  obtain ⟨hids, hbelow⟩ := s.ids_upsert up h.ids h.below
  have hrows : ∀ p ∈ (s.upsert up).2.participants,
      (p.selfieEmbedding = none ∧ (s.nextParticipant ≤ p.id ∨
        ∃ before ∈ s.participants, before.id = p.id ∧ before.eventId = p.eventId)) ∨
      p ∈ s.participants ∧ p.id ≠ (s.upsert up).1.id := by
    intro p hp
    rcases s.upsert_cases up with ⟨q, hq, -, hrow, hpeople, -⟩ | ⟨hrow, hpeople, -⟩
    · rw [hpeople] at hp
      rw [hrow]
      rcases mem_updateRow.mp hp with ⟨before, hbefore, hid, rfl⟩ | ⟨hp, hne⟩
      · exact .inl ⟨rfl, .inr ⟨before, hbefore, rfl, rfl⟩⟩
      · exact .inr ⟨hp, hne⟩
    · rw [hpeople] at hp
      rw [hrow]
      rcases List.mem_append.mp hp with hp | hp
      · exact .inr ⟨hp, Nat.ne_of_lt (h.below p hp)⟩
      · rw [List.mem_singleton.mp hp]
        exact .inl ⟨rfl, .inl le_rfl⟩
  have hnext : s.nextParticipant ≤ (s.upsert up).2.nextParticipant := by
    rcases s.upsert_cases up with ⟨-, -, -, -, -, hnext⟩ | ⟨-, -, hnext⟩
    · exact hnext.ge
    · rw [hnext]
      exact Nat.le_succ _
  have hselfies : (s.upsert up).2.selfies = s.selfies ∧ (s.upsert up).2.submitted = s.submitted ∧
      (s.upsert up).2.nextSelfie = s.nextSelfie := by
    rw [s.upsert_rest up]
    exact ⟨rfl, rfl, rfl⟩
  obtain ⟨hsame, hsubmitted, hnextSelfie⟩ := hselfies
  refine h.next ⟨hnext, hnextSelfie.ge, ?_, ?_⟩ hids hbelow ?_ ?_ ?_ ⟨?_, ?_⟩ ?_ trivial
  · intro p hp
    rcases hrows p hp with ⟨-, hnew⟩ | ⟨hold, -⟩
    · exact hnew
    · exact .inr ⟨p, hold, rfl, rfl⟩
  · intro row hrow
    exact .inr ⟨row, hsame ▸ hrow, rfl, rfl, rfl⟩
  · rw [hsame]
    exact h.selfieIds
  · rw [hsame, hnextSelfie]
    exact h.fresh
  · rw [hsame]
    exact h.whole
  · intro p hp e he
    rcases hrows p hp with ⟨hnone, -⟩ | ⟨hold, -⟩
    · rw [hnone] at he
      cases he
    · exact (h.upToDate.primary p hold e he).congr (latest_congr hsubmitted p.id)
  · rw [hsame]
    intro row hrow
    rw [latest_congr hsubmitted]
    exact h.upToDate.selfies row hrow
  · intro p hp hmem
    rcases hrows p hp with ⟨hnone, -⟩ | ⟨hold, hne⟩
    · exact hnone
    · rcases Multiset.mem_cons.mp hmem with hk | hk
      · exact absurd (Stage.replacing.inj hk) hne
      · exact h.unwritten p hold (Multiset.mem_cons_of_mem hk)

theorem latest_insertSelfies (id k : ParticipantId) (keys : List SelfieKey) :
    latest (s.insertSelfies id keys) k = if k = id then some keys else latest s k := by
  rw [latest, latest, ParticipantStore.insertSelfies, List.filter_append]
  by_cases hk : k = id
  · rw [if_pos hk, hk]
    simp
  · rw [if_neg hk]
    simp [Ne.symm hk]

/-- A set of selfies is written only where there is none. -/
theorem Sound.free (h : Sound V S s) {id : ParticipantId} {keys : List SelfieKey}
    (hkeys : keys ≠ [])
    (hfree : s.free id keys.length = true) : ∀ row ∈ s.selfies, row.participantId ≠ id := by
  intro row hrow hown
  obtain ⟨first, hfirst, hsame, hzero⟩ := h.whole row hrow
  have hcheck := List.all_eq_true.mp hfree first hfirst
  rw [hzero, hsame, hown] at hcheck
  have hlength : keys.length ≤ 0 := by simpa using hcheck
  exact hkeys (List.length_eq_zero_iff.mp (Nat.le_zero.mp hlength))

theorem Sound.written {id : ParticipantId} {keys : List SelfieKey}
    (h : Sound V (.replacing id ::ₘ N) s) (hkeys : keys ≠ [])
    (hfree : s.free id keys.length = true) : Sound V (.idle ::ₘ N) (s.insertSelfies id keys) := by
  have hnone := h.free hkeys hfree
  have hmem :
    ∀ row ∈ (s.insertSelfies id keys).selfies, (row ∈ s.selfies ∧ row.participantId ≠ id) ∨
      row ∈ ParticipantStore.selfieRows id s.nextSelfie 0 keys := by
    intro row hrow
    rcases List.mem_append.mp hrow with hrow | hrow
    · exact .inl ⟨hrow, hnone row hrow⟩
    · exact .inr hrow
  have hlatest : ∀ k, k ≠ id → latest (s.insertSelfies id keys) k = latest s k := by
    intro k hk
    rw [latest_insertSelfies, if_neg hk]
  refine h.next ⟨le_rfl, Nat.le_add_right _ _, fun p hp => .inr ⟨p, hp, rfl, rfl⟩,
    ?_⟩ h.ids h.below ?_ ?_
    ?_ ⟨?_, ?_⟩ ?_ trivial
  · intro row hrow
    rcases hmem row hrow with ⟨hrow, -⟩ | hrow
    · exact .inr ⟨row, hrow, rfl, rfl, rfl⟩
    · exact .inl (ParticipantStore.mem_selfieRows hrow).2.2.2.1
  · change ((s.selfies ++ ParticipantStore.selfieRows id s.nextSelfie 0 keys).map _).Nodup
    rw [List.map_append]
    refine h.selfieIds.append (ParticipantStore.nodup_selfieRows ..) fun k hold hnew => ?_
    obtain ⟨row, hrow, rfl⟩ := List.mem_map.mp hold
    obtain ⟨row', hrow', hid⟩ := List.mem_map.mp hnew
    have hlow := (ParticipantStore.mem_selfieRows hrow').2.2.2.1
    exact absurd (h.fresh row hrow) (Nat.not_lt.mpr (hlow.trans_eq hid))
  · intro row hrow
    rcases hmem row hrow with ⟨hrow, -⟩ | hrow
    · exact (h.fresh row hrow).trans_le (Nat.le_add_right _ _)
    · exact (ParticipantStore.mem_selfieRows hrow).2.2.2.2
  · intro row hrow
    rcases hmem row hrow with ⟨hrow, -⟩ | hrow
    · obtain ⟨first, hfirst, hown⟩ := h.whole row hrow
      exact ⟨first, List.mem_append_left _ hfirst, hown⟩
    · cases keys with
      | nil => exact absurd rfl hkeys
      | cons key keys =>
        refine ⟨⟨s.nextSelfie, id, 0, key, none⟩, List.mem_append_right _ (List.mem_cons_self ..),
          ?_, rfl⟩
        exact (ParticipantStore.mem_selfieRows hrow).1.symm
  · intro p hp e he
    have hne : p.id ≠ id := by
      rintro rfl
      rw [h.unwritten p hp (Multiset.mem_cons_self ..)] at he
      cases he
    exact (h.upToDate.primary p hp e he).congr (hlatest p.id hne)
  · intro row hrow
    rcases hmem row hrow with ⟨hrow, hne⟩ | hrow
    · rw [hlatest _ hne]
      exact h.upToDate.selfies row hrow
    · obtain ⟨hown, hkey, hnull, -⟩ := ParticipantStore.mem_selfieRows hrow
      rw [latest_insertSelfies, if_pos hown, hnull]
      exact ⟨⟨keys, rfl, hkey⟩, nofun⟩
  · intro p hp hk
    rcases Multiset.mem_cons.mp hk with hk | hk
    · cases hk
    · exact h.unwritten p hp (Multiset.mem_cons_of_mem hk)

/-- The embedding of a selfie is that of its photo. -/
theorem Sound.embedded {id : ParticipantId} {selfie : ParticipantSelfie}
    {face : Option DetectedFace}
    {selfies : List ParticipantSelfie} (h : Sound V (.detected id selfie face selfies ::ₘ N) s) :
    Sound V (.embedding id (face.map (fun face => (selfie, face))) selfies ::ₘ N)
      (s.setSelfieEmbedding selfie.id (face.map (fun face => face.embedding))) := by
  obtain ⟨hselfies, hread, hface⟩ := h.holds _ (Multiset.mem_cons_self ..)
  have hmem :
    ∀ row ∈ (s.setSelfieEmbedding selfie.id (face.map (fun face => face.embedding))).selfies,
      ∃ before ∈ s.selfies, before.id = row.id ∧ before.storageKey = row.storageKey ∧
        before.participantId = row.participantId ∧ before.ordinal = row.ordinal ∧
        ∀ e, row.embedding = some e → OfPhoto V row.storageKey e := by
    intro row hrow
    rcases mem_updateRow.mp hrow with ⟨before, hbefore, hid, rfl⟩ | ⟨hrow, -⟩
    · refine ⟨before, hbefore, rfl, rfl, rfl, rfl, fun e he => ?_⟩
      obtain ⟨found, hfound, hembedding⟩ := Option.map_eq_some_iff.mp he
      rw [hfound] at hface
      refine ⟨found, ?_, hembedding⟩
      rw [(hread.known.2 before hbefore hid).1]
      exact hface.symm
    · exact ⟨row, hrow, rfl, rfl, rfl, rfl, (h.upToDate.selfies row hrow).2⟩
  have hextends : Extends s
      (s.setSelfieEmbedding selfie.id (face.map (fun face => face.embedding))) := by
    refine ⟨le_rfl, le_rfl, fun p hp => .inr ⟨p, hp, rfl, rfl⟩, fun row hrow => ?_⟩
    obtain ⟨before, hbefore, hid, hkey, hown, -⟩ := hmem row hrow
    exact .inr ⟨before, hbefore, hid, hkey, hown⟩
  refine h.next hextends h.ids h.below ?_ ?_ ?_ ⟨h.upToDate.primary, ?_⟩ ?_ ⟨?_, ?_⟩
  · have hids : (s.setSelfieEmbedding selfie.id (face.map (fun face => face.embedding))).selfies.map
        ParticipantSelfie.id = s.selfies.map ParticipantSelfie.id := map_updateRow fun _ => rfl
    rw [hids]
    exact h.selfieIds
  · intro row hrow
    obtain ⟨before, hbefore, hid, -⟩ := hmem row hrow
    exact hid ▸ h.fresh before hbefore
  · intro row hrow
    obtain ⟨before, hbefore, -, -, hown, -⟩ := hmem row hrow
    obtain ⟨first, hfirst, hsame, hzero⟩ := h.whole before hbefore
    refine ⟨if first.id = selfie.id then
        { first with embedding := face.map (fun face => face.embedding) }
      else first, List.mem_map_of_mem hfirst, ?_⟩
    rw [← hown]
    split <;> exact ⟨hsame, hzero⟩
  · intro row hrow
    obtain ⟨before, hbefore, -, hkey, hown, -, hphoto⟩ := hmem row hrow
    rw [← hkey, ← hown]
    exact ⟨(h.upToDate.selfies before hbefore).1, hkey ▸ hphoto⟩
  · refine fun p hp hk => h.unwritten p hp (replacing_before ?_ hk)
    intro k hstage
    cases hstage
  · exact fun later hlater => (hselfies later hlater).mono hextends
  · intro pair hpair
    obtain ⟨found, hfound, rfl⟩ := Option.map_eq_some_iff.mp hpair
    rw [hfound] at hface
    exact ⟨hread.mono hextends, found, hface.symm, rfl⟩

/-- Operations on the tables that selfies and their embeddings are kept in. -/
def ParticipantOp.rewrites : ParticipantOp → Bool
  | .upsert _ | .update _ _ | .deleteSelfies _ | .insertSelfies _ _ | .setSelfieEmbedding _ _
  | .deleteParticipant _ | .scrub _ => true
  | _ => false

theorem sameTables_op {o : ParticipantOp} (ho : o.rewrites = false) (r : ParticipantRes o) :
    SameTables s (participantHandler V o r s).2 := by
  cases o with
  | queue job =>
    obtain ⟨jobs, hadd, -⟩ := s.addJob_jobs job
    change SameTables s (s.addJob job)
    rw [hadd]
    exact ⟨rfl, rfl, rfl, rfl, rfl⟩
  | putFile path key mimeType => cases r <;> exact ⟨rfl, rfl, rfl, rfl, rfl⟩
  | writeWorkFile id ordinal key => cases r <;> exact ⟨rfl, rfl, rfl, rfl, rfl⟩
  | detectFaces id ordinal =>
    rw [detectFaces_same]
    exact ⟨rfl, rfl, rfl, rfl, rfl⟩
  | insertMatches inserts => cases r <;> exact ⟨rfl, rfl, rfl, rfl, rfl⟩
  | send id template counted => cases r <;> exact ⟨rfl, rfl, rfl, rfl, rfl⟩
  | upsert up => cases ho
  | update id dto => cases ho
  | deleteSelfies id => cases ho
  | insertSelfies id keys => cases ho
  | setSelfieEmbedding id e => cases ho
  | deleteParticipant id => cases ho
  | scrub id => cases ho
  | _ => exact ⟨rfl, rfl, rfl, rfl, rfl⟩

/-- An operation on other tables. -/
theorem Sound.quiet (h : Sound V (g ::ₘ N) s) {o : ParticipantOp} (ho : o.rewrites = false)
    (r : ParticipantRes o) (hg : ∀ k, g' = .replacing k → g = .replacing k)
    (hholds : g'.Holds V s) :
    Sound V (g' ::ₘ N) (participantHandler V o r s).2 :=
  h.read (sameTables_op ho r) hg (hholds.mono (sameTables_op ho r).extends)

theorem Sound.readSelfies (h : Sound V S s) (id : ParticipantId) :
    ∀ selfie ∈ s.getSelfies id, Read V s id selfie := by
  intro selfie hselfie
  obtain ⟨hmem, hown⟩ := List.mem_filter.mp ((List.mem_insertionSort _).mp hselfie)
  refine ⟨⟨h.fresh selfie hmem, fun row hrow hid => ?_⟩, of_decide_eq_true hown,
    (h.upToDate.selfies selfie hmem).2⟩
  rw [row_unique h.selfieIds hrow hmem hid]
  exact ⟨rfl, rfl⟩

theorem Sound.readPerson (h : Sound V S s) {p : Participant} (hp : p ∈ s.participants) :
    KnownPerson s p := by
  refine ⟨h.below p hp, fun row hrow hid => ?_⟩
  rw [row_unique h.ids hrow hp hid]

theorem extends_update (id : ParticipantId) (dto : ParticipantChange) :
    Extends s (s.update id dto) where
  nextParticipant := le_rfl
  nextSelfie := le_rfl
  participants row hrow := by
    rcases mem_updateRow.mp hrow with ⟨before, hbefore, -, rfl⟩ | ⟨hrow, -⟩
    · exact .inr ⟨before, hbefore, rfl, rfl⟩
    · exact .inr ⟨row, hrow, rfl, rfl⟩
  selfies row hrow := .inr ⟨row, hrow, rfl, rfl, rfl⟩

theorem Sound.stillThere (h : Sound V S s) {id : ParticipantId} {selfie : ParticipantSelfie}
    {e : Embedding} (hread : Read V s id selfie) (hphoto : OfPhoto V selfie.storageKey e)
    (hthere : StillThere s selfie) : FromLatest V s id e := by
  obtain ⟨row, hrow, hid⟩ := hthere
  obtain ⟨hkey, hown⟩ := hread.known.2 row hrow hid
  obtain ⟨⟨keys, hkeys, hmem⟩, -⟩ := h.upToDate.selfies row hrow
  rw [hown, hread.own] at hkeys
  exact ⟨keys, hkeys, selfie.storageKey, hkey ▸ hmem, hphoto⟩

/-- The selfies of a participant, one after another. -/
theorem sound_embedding {L : List Stage} {id : ParticipantId}
    {stored : Option (ParticipantSelfie × DetectedFace)} {selfies : List ParticipantSelfie}
    (hL : ∀ k, k ∈ L ↔ k ∈ .embedding id stored selfies ::ₘ N) {o : ParticipantOp}
    (r : ParticipantRes o)
    (h : Sound V (.embedding id stored selfies ::ₘ N) s)
    (hpermit : Stage.Permits V (.embedding id stored selfies) o)
    (hfresh : (Stage.embedding id stored selfies).Fresh L s o) :
    Sound V ((Stage.embedding id stored selfies).note ⟨o, (participantHandler V o r s).1⟩ ::ₘ N)
      (participantHandler V o r s).2 := by
  obtain ⟨hselfies, hstored⟩ := h.holds _ (Multiset.mem_cons_self ..)
  cases o with
  | makeWorkDir k => exact h.quiet rfl _ nofun ⟨hselfies, hstored⟩
  | getObject key => exact h.quiet rfl _ nofun ⟨hselfies, hstored⟩
  | writeWorkFile k ordinal key => exact h.quiet rfl _ nofun ⟨hselfies, hstored⟩
  | removeWorkDir k => exact h.quiet rfl _ nofun ⟨hselfies, hstored⟩
  | detectFaces k ordinal =>
    cases selfies with
    | nil => cases hpermit.2
    | cons selfie selfies =>
      have hsame : SameTables s s := ⟨rfl, rfl, rfl, rfl, rfl⟩
      rcases detectFaces_cases k ordinal r with ⟨e, hseen⟩ |
        ⟨faces, hseen, f, hf, hown, hplace, hphoto⟩
      · rw [hseen]
        exact h.read hsame nofun trivial
      · rw [hseen]
        have hkey : f.photo = some selfie.storageKey := hfresh f hf hown hplace
        refine h.read hsame nofun ⟨?_, hselfies selfie (List.mem_cons_self ..), ?_⟩
        · exact fun later hlater => hselfies later (List.mem_cons_of_mem _ hlater)
        · rw [hphoto _ hkey]
  | update k dto =>
    obtain ⟨rfl, hdto⟩ := hpermit
    have hholds : (Stage.embedding k none selfies).Holds V (s.update k dto) :=
      ⟨fun selfie hselfie => (hselfies selfie hselfie).mono (extends_update k dto), nofun⟩
    refine h.update ?_ nofun hholds
    intro e he
    rcases hdto with ⟨selfie, face, rfl, rfl⟩ | ⟨-, rfl⟩
    · obtain ⟨hthere, hnone⟩ := (Stage.Fresh.update hfresh).resolve_left nofun
      obtain ⟨hread, hphoto⟩ := hstored (selfie, face) rfl
      obtain rfl : face.embedding = e := by simpa using he
      refine ⟨h.stillThere hread hphoto hthere, fun hmem => hnone ((hL _).mpr ?_)⟩
      rcases Multiset.mem_cons.mp hmem with hk | hk
      · cases hk
      · exact Multiset.mem_cons_of_mem hk
    · cases he
  | queue job => exact h.quiet rfl _ nofun ⟨hselfies, hstored⟩
  | getById k =>
    change Sound V ((Stage.embedding id stored selfies).note ⟨.getById k, s.getById k⟩ ::ₘ N) s
    cases hread : s.getById k with
    | none => exact h.read ⟨rfl, rfl, rfl, rfl, rfl⟩ nofun trivial
    | some p =>
      obtain ⟨hrow, -⟩ := Option.filter_eq_some_iff.mp hread
      refine h.read ⟨rfl, rfl, rfl, rfl, rfl⟩ ?_ ?_
      · exact fun k hk => absurd hk (chosen_ne_replacing p none k)
      · exact holds_chosen (h.readPerson (mem_of_findRow hrow).1) nofun
  | _ => cases hpermit

/-- A participant is matched. -/
theorem sound_matching {p : Participant} {primary : Embedding}
    {selfies : Option (List ParticipantSelfie)} {found : List Search} {after : After}
    {o : ParticipantOp} (r : ParticipantRes o)
    (h : Sound V (.matching p primary selfies found after ::ₘ N) s)
    (hpermit : Stage.Permits V (.matching p primary selfies found after) o) :
    Sound V ((Stage.matching p primary selfies found after).note
      ⟨o, (participantHandler V o r s).1⟩ ::ₘ N) (participantHandler V o r s).2 := by
  obtain ⟨hp, hprimary, hselfies, hfound, hafter⟩ := h.holds _ (Multiset.mem_cons_self ..)
  cases selfies with
  | none =>
    have hnone : ∀ search ∈ found, False := by
      intro search hsearch
      obtain ⟨rows, hrows, -⟩ := (hfound search hsearch).embedding
      cases hrows
    cases o with
    | getConfig eventId => exact h.quiet rfl _ nofun ⟨hp, hprimary, nofun, hfound, hafter⟩
    | getSelfies k =>
      obtain rfl : k = p.id := hpermit
      refine h.quiet rfl _ nofun ⟨hp, hprimary, ?_,
        fun search hsearch => (hnone search hsearch).elim,
        hafter⟩
      rintro _ ⟨⟩
      exact h.readSelfies p.id
    | countMatches k since => exact h.quiet rfl _ nofun hafter
    | _ => cases hpermit
  | some rows =>
    cases o with
    | getConfig eventId => exact h.quiet rfl _ nofun ⟨hp, hprimary, hselfies, hfound, hafter⟩
    | searchFaces eventId e maxDistance =>
      obtain ⟨rfl, hsearch, rfl⟩ := hpermit
      refine h.quiet rfl _ nofun ⟨hp, hprimary, hselfies, fun search hmem => ?_, hafter⟩
      rcases List.mem_append.mp hmem with hmem | hmem
      · exact hfound search hmem
      · rw [List.mem_singleton.mp hmem]
        refine ⟨rfl, rfl, ⟨rows, rfl, hsearch⟩, fun face hface => ?_⟩
        exact of_decide_eq_true (List.mem_filter.mp hface).2
    | insertMatches inserts =>
      cases r with
      | error e => exact h.quiet rfl _ nofun trivial
      | ok r => exact h.quiet rfl _ nofun hafter
    | countMatches k since => exact h.quiet rfl _ nofun hafter
    | _ => cases hpermit

theorem sound_submitting {o : ParticipantOp} (r : ParticipantRes o)
    (h : Sound V (.submitting ::ₘ N) s) (hpermit : Stage.Permits V .submitting o) :
    Sound V (Stage.submitting.note ⟨o, (participantHandler V o r s).1⟩ ::ₘ N)
      (participantHandler V o r s).2 := by
  cases o with
  | upsert up => exact h.upserted up
  | getActiveEvent slug => exact h.quiet rfl _ (fun _ hk => by cases hk) trivial
  | consumeIp clientIp => exact h.quiet rfl _ (fun _ hk => by cases hk) trivial
  | consumeEmail eventId email => exact h.quiet rfl _ (fun _ hk => by cases hk) trivial
  | randomUUID => exact h.quiet rfl _ (fun _ hk => by cases hk) trivial
  | putFile path key mimeType => exact h.quiet rfl _ (fun _ hk => by cases hk) trivial
  | _ => cases hpermit

theorem sound_replacing {id : ParticipantId} {o : ParticipantOp} (r : ParticipantRes o)
    (h : Sound V (.replacing id ::ₘ N) s) (hpermit : Stage.Permits V (.replacing id) o) :
    Sound V ((Stage.replacing id).note ⟨o, (participantHandler V o r s).1⟩ ::ₘ N)
      (participantHandler V o r s).2 := by
  cases o with
  | deleteSelfies k => exact h.deleted k (fun _ hk => hk) trivial
  | insertSelfies k keys =>
    obtain ⟨rfl, hkeys⟩ := hpermit
    by_cases hfree : s.free k keys.length = true
    · have hwritten := h.written hkeys hfree
      have hstate :
        (participantHandler V (.insertSelfies k keys) r s).2 = s.insertSelfies k keys := by
        rw [participantHandler, if_pos hfree]
      rw [hstate]
      exact hwritten
    · have hstate : (participantHandler V (.insertSelfies k keys) r s).2 = s := by
        rw [participantHandler, if_neg hfree]
      rw [hstate]
      exact h.read ⟨rfl, rfl, rfl, rfl, rfl⟩ (fun _ hk => by cases hk) trivial
  | _ => cases hpermit

theorem sound_selecting {o : ParticipantOp} (r : ParticipantRes o)
    (h : Sound V (.selecting ::ₘ N) s) (hpermit : Stage.Permits V .selecting o) :
    Sound V (Stage.selecting.note ⟨o, (participantHandler V o r s).1⟩ ::ₘ N)
      (participantHandler V o r s).2 := by
  have hnext : ∀ rows : List Participant, (∀ p ∈ rows, p ∈ s.participants) →
      Sound V (.next rows ::ₘ N) s := by
    intro rows hrows
    refine h.read ⟨rfl, rfl, rfl, rfl, rfl⟩ ?_ (holds_next fun p hp => h.readPerson (hrows p hp))
    exact fun k hk => absurd hk (next_ne_replacing rows k)
  cases o with
  | getMatchableByEvent eventId => exact hnext _ fun p hp => (List.mem_filter.mp hp).1
  | getPendingForSweep => exact hnext _ fun p hp => (List.mem_filter.mp hp).1
  | _ => cases hpermit

theorem sound_matched {p : Participant} {inserted : ℕ} {after : After} {o : ParticipantOp}
    (r : ParticipantRes o) (h : Sound V (.matched p inserted after ::ₘ N) s)
    (hpermit : Stage.Permits V (.matched p inserted after) o) :
    Sound V ((Stage.matched p inserted after).note ⟨o, (participantHandler V o r s).1⟩ ::ₘ N)
      (participantHandler V o r s).2 := by
  have hholds := h.holds _ (Multiset.mem_cons_self ..)
  cases o with
  | countMatches k since => exact h.quiet rfl _ (fun _ hk => by cases hk) hholds
  | update k dto =>
    obtain ⟨rfl, status, rfl⟩ := hpermit
    have hafter := KnownAfter.mono hholds (extends_update p.id { status := some status })
    change Sound V ((if 0 < inserted then _ else _) ::ₘ N) _
    split
    · exact h.update (fun _ hk => by cases hk) (fun _ hk => by cases hk) hafter
    · refine h.update (fun _ hk => by
        cases hk) (fun k hk => absurd hk (resume_ne_replacing after k)) ?_
      exact holds_resume hafter
  | _ => cases hpermit

theorem sound_mailing {id : ParticipantId} {ofDigest : Bool} {o : ParticipantOp}
    (r : ParticipantRes o) (h : Sound V (.mailing id ofDigest ::ₘ N) s)
    (hpermit : Stage.Permits V (.mailing id ofDigest) o) :
    Sound V ((Stage.mailing id ofDigest).note ⟨o, (participantHandler V o r s).1⟩ ::ₘ N)
      (participantHandler V o r s).2 := by
  cases o with
  | getById k => exact h.quiet rfl _ (fun _ hk => by cases hk) trivial
  | eventExists eventId => exact h.quiet rfl _ (fun _ hk => by cases hk) trivial
  | countMatches k since => exact h.quiet rfl _ (fun _ hk => by cases hk) trivial
  | now => exact h.quiet rfl _ (fun _ hk => by cases hk) trivial
  | send k template rows => exact h.quiet rfl _ (fun _ hk => by cases hk) trivial
  | update k dto =>
    obtain ⟨-, t, rfl⟩ := hpermit
    exact h.update (fun _ hk => by cases hk) (fun _ hk => by cases hk) trivial
  | _ => cases hpermit

theorem sound_loading {id : ParticipantId} {o : ParticipantOp} (r : ParticipantRes o)
    (h : Sound V (.loading id ::ₘ N) s) (hpermit : Stage.Permits V (.loading id) o) :
    Sound V ((Stage.loading id).note ⟨o, (participantHandler V o r s).1⟩ ::ₘ N)
      (participantHandler V o r s).2 := by
  cases o with
  | getById k =>
    change Sound V ((Stage.loading id).note ⟨.getById k, s.getById k⟩ ::ₘ N) s
    cases s.getById k with
    | none => exact h.read ⟨rfl, rfl, rfl, rfl, rfl⟩ (fun _ hk => by cases hk) trivial
    | some p =>
      rw [Stage.note_loaded]
      cases p.notifiedFirstAt <;> exact h.read ⟨rfl, rfl, rfl, rfl, rfl⟩ (fun _ hk => by
        cases hk) trivial
  | _ => cases hpermit

theorem sound_erasing {o : ParticipantOp} (r : ParticipantRes o)
    (h : Sound V (.erasing ::ₘ N) s) (hpermit : Stage.Permits V .erasing o) :
    Sound V (Stage.erasing.note ⟨o, (participantHandler V o r s).1⟩ ::ₘ N)
      (participantHandler V o r s).2 := by
  cases o with
  | getById k => exact h.quiet rfl _ (fun _ hk => by cases hk) trivial
  | now => exact h.quiet rfl _ (fun _ hk => by cases hk) trivial
  | getExpiredSelfies cutoff => exact h.quiet rfl _ (fun _ hk => by cases hk) trivial
  | listSelfieKeys ids => exact h.quiet rfl _ (fun _ hk => by cases hk) trivial
  | queue job => exact h.quiet rfl _ (fun _ hk => by cases hk) trivial
  | deleteEmails k => exact h.quiet rfl _ (fun _ hk => by cases hk) trivial
  | deleteKeys keys => exact h.quiet rfl _ (fun _ hk => by cases hk) trivial
  | deleteParticipant k => exact h.erased k
  | deleteSelfies k => exact h.deleted k (fun _ hk => by cases hk) trivial
  | scrub k => exact h.scrubbed k (fun _ hk => by cases hk) trivial
  | _ => cases hpermit

/-- One permitted operation of one call. -/
theorem sound_step {L : List Stage} (hL : ∀ k, k ∈ L ↔ k ∈ g ::ₘ N) {o : ParticipantOp}
    (r : ParticipantRes o) (h : Sound V (g ::ₘ N) s) (hpermit : Stage.Permits V g o)
    (hfresh : g.Fresh L s o) :
    Sound V (g.note ⟨o, (participantHandler V o r s).1⟩ ::ₘ N) (participantHandler V o r s).2 := by
  have hholds := h.holds _ (Multiset.mem_cons_self ..)
  cases g with
  | embedding id stored selfies => exact sound_embedding hL r h hpermit hfresh
  | matching p primary selfies found after => exact sound_matching r h hpermit
  | idle =>
    cases o with
    | queue job => exact h.quiet rfl _ (fun _ hk => by cases hk) trivial
    | removeWorkDir id => exact h.quiet rfl _ (fun _ hk => by cases hk) trivial
    | _ => cases hpermit
  | submitting => exact sound_submitting r h hpermit
  | replacing id => exact sound_replacing r h hpermit
  | selecting => exact sound_selecting r h hpermit
  | processing id =>
    cases o with
    | getById k => exact h.quiet rfl _ (fun _ hk => by cases hk) trivial
    | getConfig eventId => exact h.quiet rfl _ (fun _ hk => by cases hk) trivial
    | getSelfies k =>
      obtain rfl : k = id := hpermit
      exact h.quiet rfl _ (fun _ hk => by cases hk) ⟨h.readSelfies k, (fun _ hk => by cases hk)⟩
    | _ => cases hpermit
  | detected id selfie face selfies =>
    cases o with
    | setSelfieEmbedding k e =>
      obtain ⟨rfl, rfl⟩ := hpermit
      exact h.embedded
    | _ => cases hpermit
  | matched p inserted after => exact sound_matched r h hpermit
  | announcing p after =>
    cases o with
    | queue job =>
      exact h.quiet rfl _ (fun k hk => absurd hk (resume_ne_replacing after k))
        (holds_resume hholds)
    | _ => cases hpermit
  | mailing id ofDigest => exact sound_mailing r h hpermit
  | loading id => exact sound_loading r h hpermit
  | throttling id since =>
    cases o with
    | eventExists eventId => cases r <;> exact h.quiet rfl _ (fun _ hk => by cases hk) trivial
    | now =>
      change Sound V ((if _ < _ then _ else _) ::ₘ N) _
      split <;> exact h.quiet rfl _ (fun _ hk => by cases hk) trivial
    | _ => cases hpermit
  | due id since =>
    cases o with
    | countMatches k since' =>
      change Sound V ((if _ = _ then _ else _) ::ₘ N) _
      split <;> exact h.quiet rfl _ (fun _ hk => by cases hk) trivial
    | _ => cases hpermit
  | counted id rows =>
    cases o with
    | send k template told => cases r <;> exact h.quiet rfl _ (fun _ hk => by cases hk) trivial
    | _ => cases hpermit
  | sent id rows =>
    cases o with
    | now => exact h.quiet rfl _ (fun _ hk => by cases hk) trivial
    | _ => cases hpermit
  | stamping id rows sentAt =>
    cases o with
    | update k dto =>
      obtain ⟨rfl, rfl⟩ := hpermit
      exact h.update (fun _ hk => by cases hk) (fun _ hk => by cases hk) trivial
    | _ => cases hpermit
  | refused id => cases o <;> cases hpermit
  | «over» id => cases o <;> cases hpermit
  | erasing => exact sound_erasing r h hpermit

end Steps

/-! What the searches of a stage found is what the call was answered. -/

section Searches

variable {g : Stage} {search : Search}

def Stage.searches : Stage → List Search
  | .matching _ _ _ found _ => found
  | _ => []

theorem searches_next (todo : List Participant) : (Stage.next todo).searches = [] := by
  induction todo with
  | nil => rfl
  | cons p todo ih =>
    rw [Stage.next]
    cases truthy p.selfieEmbedding with
    | none => exact ih
    | some primary => rfl

theorem searches_resume (after : After) : (Stage.resume after).searches = [] := by
  cases after with
  | none => rfl
  | some todo => exact searches_next todo

theorem searches_chosen (p : Participant) (after : After) :
    (Stage.chosen p after).searches = [] := by
  rw [Stage.chosen]
  cases truthy p.selfieEmbedding with
  | none => exact searches_resume after
  | some primary => rfl

/-- Only a matching stage has searches, and only a search adds one. -/
theorem mem_searches_note {e : ParticipantEvent} (h : search ∈ (g.note e).searches) :
    search ∈ g.searches ∨
      e = ⟨.searchFaces search.eventId search.embedding search.maxDistance, search.faces⟩ := by
  have hnone : ∀ {g' : Stage}, g'.searches = [] → search ∉ g'.searches := by
    intro g' hg' hmem
    rw [hg'] at hmem
    exact List.not_mem_nil hmem
  rw [Stage.note.eq_def] at h
  split at h
  case h_11 =>
    rcases List.mem_append.mp h with h | h
    · exact .inl h
    · rw [List.mem_singleton.mp h]
      exact .inr rfl
  all_goals first
    | exact .inl h
    | exact absurd h (hnone rfl)
    | exact absurd h (hnone (searches_next _))
    | exact absurd h (hnone (searches_resume _))
    | skip
  all_goals
    split at h <;> first
      | exact .inl h
      | exact absurd h (hnone rfl)
      | exact absurd h (hnone (searches_chosen _ _))
      | exact absurd h (hnone (searches_resume _))
      | skip
  all_goals
    split at h <;> exact absurd h (hnone rfl)

theorem searches_past (past : List ParticipantEvent) (c : ParticipantCall) :
    ∀ search ∈ (past.foldl Stage.note c.first).searches,
      ⟨.searchFaces search.eventId search.embedding search.maxDistance, search.faces⟩ ∈ past := by
  induction past using List.reverseRecOn with
  | nil =>
    intro search hsearch
    cases c <;> exact absurd hsearch List.not_mem_nil
  | append_singleton past e ih =>
    intro search hsearch
    rw [List.foldl_append] at hsearch
    rcases mem_searches_note hsearch with hbefore | rfl
    · exact List.mem_append_left _ (ih search hbefore)
    · exact List.mem_append_right _ (List.mem_singleton_self _)

end Searches

/-! Whole runs. -/

section Runs

variable {V : Services} {N S : Multiset Stage} {s s' : ParticipantStore} {p : ParticipantPool}

theorem Sound.drop {g : Stage} (h : Sound V (g ::ₘ N) s) : Sound V N s :=
  ⟨h.ids, h.below, h.selfieIds, h.fresh, h.whole, h.upToDate,
    fun q hq hmem => h.unwritten q hq (Multiset.mem_cons_of_mem hmem),
    fun k hk => h.holds k (Multiset.mem_cons_of_mem hk)⟩

theorem Sound.add {g : Stage} (h : Sound V N s) (hg : ∀ k, g ≠ .replacing k)
    (hholds : g.Holds V s) :
    Sound V (g ::ₘ N) s := by
  refine ⟨h.ids, h.below, h.selfieIds, h.fresh, h.whole, h.upToDate, fun q hq hmem => ?_,
    fun k hk => ?_⟩
  · rcases Multiset.mem_cons.mp hmem with hk | hk
    · exact absurd hk.symm (hg q.id)
    · exact h.unwritten q hq hk
  · rcases Multiset.mem_cons.mp hk with rfl | hk
    · exact hholds
    · exact h.holds k hk

/-- Queues and marks of digests are no part of it. -/
theorem Sound.congr (h : Sound V N s) (hsame : SameTables s s') : Sound V N s' :=
  ((h.add (g := .idle) (fun _ => nofun) trivial).read hsame (fun _ hk => hk) trivial).drop

theorem sameTables_accept {c : ParticipantCall} (h : (participantServer V).accept c s = some s') :
    SameTables s s' := by
  cases c with
  | sendDigest id =>
    change (if _ then _ else _) = some s' at h
    split at h
    · cases h
      exact ⟨rfl, rfl, rfl, rfl, rfl⟩
    · cases h
  | _ =>
    cases h
    exact ⟨rfl, rfl, rfl, rfl, rfl⟩

theorem sameTables_release {c : ParticipantCall} {answer : Answer} {again : Bool}
    (h : (participantServer V).release c answer again s = some s') : SameTables s s' := by
  cases c with
  | sendDigest id =>
    change (if _ then _ else if _ then _ else _) = some s' at h
    split at h
    · cases h
      exact ⟨rfl, rfl, rfl, rfl, rfl⟩
    split at h
    · cases h
      exact ⟨rfl, rfl, rfl, rfl, rfl⟩
    · cases h
      exact ⟨rfl, rfl, rfl, rfl, rfl⟩
  | _ =>
    cases h
    exact ⟨rfl, rfl, rfl, rfl, rfl⟩

theorem preserves_sound :
    Preserves (participantServer V) NotOvertaken (stages V) ParticipantCall.first
    ParticipantCall.Post (Sound V) where
  accept c N s s' h hs := by
    have hsame := sameTables_accept hs
    refine (h.congr hsame).add ?_ ?_
    · cases c <;> nofun
    · cases c <;> trivial
  perform p t N o r hnotes h hpermit hfresh := by
    refine ⟨handler_expects o r, sound_step (L := stagesOf p) (fun k => ?_) r h hpermit hfresh⟩
    rw [mem_stagesOf, hnotes]
  release c value g again N s s' h hpost hs := h.drop.congr (sameTables_release hs)

theorem sound_empty : Sound V 0 {} where
  ids := List.nodup_nil
  below _ hp := absurd hp List.not_mem_nil
  selfieIds := List.nodup_nil
  fresh _ hrow := absurd hrow List.not_mem_nil
  whole _ hrow := absurd hrow List.not_mem_nil
  upToDate := ⟨fun _ hp => absurd hp List.not_mem_nil, fun _ hrow => absurd hrow List.not_mem_nil⟩
  unwritten _ hp := absurd hp List.not_mem_nil
  holds _ hg := absurd hg (Multiset.notMem_zero _)

theorem mem_searchWith {e primary : Embedding} {selfies : List ParticipantSelfie}
    (h : e ∈ searchWith primary selfies) :
    (∃ selfie ∈ selfies, selfie.embedding = some e) ∨
      selfies.filterMap (fun selfie => selfie.embedding) = [] ∧ e = primary := by
  rw [searchWith] at h
  split at h
  · rename_i hnone
    exact .inr ⟨hnone, List.mem_singleton.mp h⟩
  · exact .inl (List.mem_filterMap.mp h)

/-- The matches a job inserts come from the latest selfies. -/
theorem genuine_of_fresh {L : List Stage} {q : Participant} {primary : Embedding}
    {rows : List ParticipantSelfie} {found : List Search} {after : After}
    {past : List ParticipantEvent}
    (h : Sound V (.matching q primary (some rows) found after ::ₘ N) s)
    (hpast : ∀ search ∈ found, ⟨.searchFaces search.eventId search.embedding search.maxDistance,
      search.faces⟩ ∈ past) {inserts : List MatchInsert}
    (hfresh : (Stage.matching q primary (some rows) found after).Fresh L s (.insertMatches inserts))
    {m : MatchInsert} (hm : HitOf V q found m) : Genuine V s past m := by
  obtain ⟨hq, hprimary, hselfies, hfound, -⟩ := h.holds _ (Multiset.mem_cons_self ..)
  obtain ⟨hown, search, hsearch, face, hface, hvia, hasset, -⟩ := hm
  obtain ⟨hevent, hmax, ⟨rows', hrows, hwith⟩, hnear⟩ := hfound search hsearch
  obtain rfl : rows = rows' := Option.some.inj hrows
  have hlatest : FromLatest V s q.id search.embedding := by
    rcases mem_searchWith hwith with ⟨selfie, hselfie, he⟩ | ⟨hnone, he⟩
    · have hread := hselfies rows rfl selfie hselfie
      have hsome : rows.filterMap (fun selfie => selfie.embedding) ≠ [] :=
        List.ne_nil_of_mem (List.mem_filterMap.mpr ⟨selfie, hselfie, he⟩)
      change (if _ then _ else _) at hfresh
      rw [if_neg hsome] at hfresh
      exact h.stillThere hread (hread.photo _ he) (hfresh selfie hselfie (by rw [he]; nofun))
    · change (if _ then _ else _) at hfresh
      rw [if_pos hnone] at hfresh
      obtain ⟨row, hrow, hid, hsame⟩ := hfresh
      rw [he]
      exact hid ▸ h.upToDate.primary row hrow primary (hsame.trans hprimary)
  have hmem := hpast search hsearch
  rw [hmax, ← hevent] at hmem
  refine ⟨search.embedding, search.eventId, search.faces, hown ▸ hlatest, hmem, ?_, face, hface,
    hvia.symm, hasset.symm, ?_⟩
  · intro row hrow hid
    rw [hevent]
    exact hq.2 row hrow (hid.trans hown)
  · rw [hevent]
    exact hnear face hface

/-- As long as what a job read is still there when it writes, embeddings are
stored and matches are inserted for the latest selfies only. -/
theorem matches_from_latest (V : Services)
    (h : (participantServer V).Reaches NotOvertaken ⟨[], {}⟩ p) :
    UpToDate V p.state ∧ ∀ m, (participantServer V).Meets NotOvertaken m p →
      (participantServer V).Meets (Faithful V) m p := by
  refine ⟨(h.invariant call_follows preserves_sound rfl sound_empty).2.upToDate, ?_⟩
  rintro m hmeets ⟨t, e⟩ hevent
  obtain ⟨N, r, hnotes, hsound, hpermit, hanswer⟩ :=
    h.event call_follows preserves_sound rfl sound_empty hevent
  have hfresh := hmeets _ hevent
  have hsearches := searches_past t.past t.call
  change (t.past.foldl Stage.note t.call.first).Fresh (stagesOf p) p.state e.1 at hfresh
  change Sound V (t.past.foldl Stage.note t.call.first ::ₘ N) p.state at hsound
  change Stage.Permits V (t.past.foldl Stage.note t.call.first) e.1 at hpermit
  obtain ⟨o, answer⟩ := e
  generalize t.past.foldl Stage.note t.call.first = g at hfresh hsound hpermit hsearches
  refine ⟨?_, ?_, ?_⟩
  · rintro inserts rfl m hm
    cases g with
    | matching q primary selfies found after =>
      cases selfies with
      | none => cases hpermit
      | some rows => exact genuine_of_fresh hsound hsearches hfresh (hpermit m hm)
    | _ => cases hpermit
  · rintro id dto embedding rfl hdto
    cases g with
    | embedding k stored selfies =>
      obtain ⟨rfl, ⟨selfie, face, rfl, rfl⟩ | ⟨-, rfl⟩⟩ := hpermit
      · obtain ⟨hthere, -⟩ := (Stage.Fresh.update hfresh).resolve_left nofun
        obtain ⟨hread, hphoto⟩ := (hsound.holds _ (Multiset.mem_cons_self ..)).2 (selfie, face) rfl
        obtain rfl : face.embedding = embedding := by simpa using hdto
        exact hsound.stillThere hread hphoto hthere
      · cases hdto
    | matched q inserted after =>
      obtain ⟨-, status, rfl⟩ := hpermit
      cases hdto
    | mailing k ofDigest =>
      obtain ⟨-, t, rfl⟩ := hpermit
      cases hdto
    | stamping k rows sentAt =>
      obtain ⟨-, rfl⟩ := hpermit
      cases hdto
    | _ => cases hpermit
  · rintro id embedding rfl row hrow hid
    cases g with
    | detected k selfie face selfies =>
      obtain ⟨rfl, hface⟩ := hpermit
      obtain ⟨-, hread, hlargest⟩ := hsound.holds _ (Multiset.mem_cons_self ..)
      obtain ⟨found, rfl, hembedding⟩ := Option.map_eq_some_iff.mp hface.symm
      rw [(hread.known.2 row hrow hid).1]
      exact ⟨found, hlargest.symm, hembedding⟩
    | _ => cases hpermit

end Runs

/-! A job that reads the selfies of one submission and goes on after the next. -/

/-- The photo of submission n shows a face of embedding n, and every face of the
index is near to every embedding. -/
def album : Services where
  detect key := [⟨0, 0, 1, 1, if key.participantId = 0 then "earlier" else "later"⟩]
  distance _ _ := 0
  maxDistance _ := 0
  endsAt _ := none
  active _ := true

def onePhoto : ParticipantCall := .submitSelfie
  { slug := "gala"
    email := "ada"
    name := "Ada"
    phone := none
    staged := [⟨"staged", "image/jpeg", 1⟩]
    clientIp := "::1" }

/-- The index knows one face, near to everything. -/
abbrev near : (o : ParticipantOp) → ParticipantRes o := willing 0 [⟨"face", "asset", "indexed"⟩]

/-- The job has read the selfies; the second submission is written before it
stores what it detects and falls back to it. -/
def overtakenJob : List ParticipantMove :=
  wholeCall near onePhoto 0 10 ++ .start (.selfieProcess 0) :: performs near 0 3 ++
    wholeCall near onePhoto 1 10 ++ performs near 0 10

/-- The embedding of a search. -/
def searchedWith : ParticipantEvent → Option Embedding
  | ⟨.searchFaces _ e _, _⟩ => some e
  | _ => none

theorem not_matches_from_latest : ¬ ∀ V p,
    (participantServer V).Reaches (fun _ _ _ => True) ⟨[], {}⟩ p →
      UpToDate V p.state ∧ ∀ m, (participantServer V).Meets (Faithful V) m p := by
  intro h
  let p := ((participantServer album).play (fun _ _ _ => True) overtakenJob ⟨[], {}⟩).get
    (by decide +kernel)
  have hreached : (participantServer album).Reaches (fun _ _ _ => True) ⟨[], {}⟩ p :=
    Server.Reaches.start.play _ (Option.some_get _).symm
  let m : ParticipantMove := .perform 0 (willing 0 [])
  let te := ((participantServer album).event m p).get (by decide +kernel)
  have hevent : (participantServer album).event m p = some te := (Option.some_get _).symm
  have hfaithful := (h album p hreached).2 m te hevent
  have hinsert : te.2.1 = .insertMatches [⟨0, "asset", "face", 0⟩] := by decide +kernel
  obtain ⟨e, eventId, faces, ⟨keys, hkeys, key, hkey, face, hface, he⟩, hsearch, -⟩ :=
    hfaithful.inserted _ hinsert _ (List.mem_singleton_self _)
  have hlatest : latest p.state 0 = some [⟨"studio", "gala", 1, 0⟩] := by decide +kernel
  have hlater : e = "later" := by
    obtain rfl := Option.some.inj (hlatest.symm.trans hkeys)
    obtain rfl := List.mem_singleton.mp hkey
    rw [← he, ← Option.some.inj hface]
    rfl
  have hnone : ∀ event ∈ te.1.past, searchedWith event ≠ some "later" := by decide +kernel
  exact hnone _ hsearch (congrArg some hlater)

/-- Each submission is processed before the next. -/
def jobsInTurn : List ParticipantMove :=
  wholeCall near onePhoto 0 10 ++ wholeCall near (.selfieProcess 0) 0 18 ++
    wholeCall near onePhoto 0 10 ++ wholeCall near (.selfieProcess 0) 0 17

theorem matches_from_latest_inTurn :
    ∃ p, (participantServer album).play NotOvertaken jobsInTurn ⟨[], {}⟩ = some p ∧
      UpToDate album p.state ∧ ∀ m, (participantServer album).Meets NotOvertaken m p →
        (participantServer album).Meets (Faithful album) m p := by
  let p := ((participantServer album).play NotOvertaken jobsInTurn ⟨[], {}⟩).get (by decide +kernel)
  have hplay : (participantServer album).play NotOvertaken jobsInTurn ⟨[], {}⟩ = some p :=
    (Option.some_get _).symm
  exact ⟨p, hplay, matches_from_latest album (Server.Reaches.start.play _ hplay)⟩

end EventLens.Selfies
