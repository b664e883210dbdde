import EventLens.FaceReconcile

/-!
The matching of one participant, with nothing else going on and nothing failing
from outside. Every selfie is searched for, the smallest distance is kept for
each face, and for each photo the face that was found first is recorded. That
is the nearest face for every order of the selfies exactly when all selfies
that find the photo find the same face of it first.
-/

namespace EventLens.Faces

open Programs

/-! The best distance for each face. -/

/-- Hits on one face are hits on one asset. -/
def OneAsset (hits : List FaceSearchResult) : Prop :=
  ∀ a ∈ hits, ∀ b ∈ hits, a.id = b.id → a.assetId = b.assetId

/-- The best distances stand for the hits they were kept from. -/
structure BestOf (hits best : List FaceSearchResult) : Prop where
  nodup : (best.map FaceSearchResult.id).Nodup
  from_hits :
    ∀ b ∈ best, ∃ hit ∈ hits, hit.id = b.id ∧ hit.assetId = b.assetId ∧ hit.distance = b.distance
  least : ∀ b ∈ best, ∀ hit ∈ hits, hit.id = b.id → b.distance ≤ hit.distance
  all : ∀ hit ∈ hits, ∃ b ∈ best, b.id = hit.id
  first : ∀ assetId, (best.find? (fun b => b.assetId = assetId)).map FaceSearchResult.id =
    (hits.find? (fun hit => hit.assetId = assetId)).map FaceSearchResult.id

section Best

variable {hits best : List FaceSearchResult} {hit : FaceSearchResult}

/-- A face that was found before keeps its place. -/
theorem noteBest_known (h : ∃ b ∈ best, b.id = hit.id) :
    noteBest best hit = best.map (fun b => if b.id = hit.id ∧ hit.distance < b.distance then
      { b with assetId := hit.assetId, distance := hit.distance } else b) := by
  obtain ⟨b, hb, hid⟩ := h
  unfold noteBest
  rw [if_pos (List.any_eq_true.mpr ⟨b, hb, decide_eq_true hid⟩)]

theorem noteBest_new (h : ∀ b ∈ best, b.id ≠ hit.id) : noteBest best hit = best ++ [hit] := by
  unfold noteBest
  rw [if_neg]
  intro hany
  obtain ⟨b, hb, hid⟩ := List.any_eq_true.mp hany
  exact h b hb (of_decide_eq_true hid)

theorem find_map {l : List FaceSearchResult} {g : FaceSearchResult → FaceSearchResult}
    (assetId : AssetId)
    (h : ∀ b ∈ l, (g b).assetId = b.assetId ∧ (g b).id = b.id) :
    ((l.map g).find? (fun b => b.assetId = assetId)).map FaceSearchResult.id =
      (l.find? (fun b => b.assetId = assetId)).map FaceSearchResult.id := by
  induction l with
  | nil => rfl
  | cons b l ih =>
    obtain ⟨hasset, hid⟩ := h b List.mem_cons_self
    have hrest := ih fun c hc => h c (List.mem_cons_of_mem _ hc)
    by_cases hfirst : b.assetId = assetId
    · simp [hasset, hfirst, hid]
    · simpa [hasset, hfirst] using hrest

theorem find?_asset {l : List FaceSearchResult} {b : FaceSearchResult} {assetId : AssetId}
    (h : l.find? (fun b => b.assetId = assetId) = some b) : b.assetId = assetId := by
  simpa using List.find?_some h

theorem BestOf.known (h : BestOf hits best) (hone : OneAsset (hits ++ [hit]))
    (hknown : ∃ b ∈ best, b.id = hit.id) : BestOf (hits ++ [hit]) (noteBest best hit) := by
  rw [noteBest_known hknown]
  have hasset : ∀ b ∈ best, b.id = hit.id → b.assetId = hit.assetId := by
    intro b hb hid
    obtain ⟨old, hold, hid', hassetId, -⟩ := h.from_hits b hb
    rw [← hassetId]
    exact hone old (List.mem_append_left _ hold) hit
      (List.mem_append_right _ (List.mem_singleton_self _))
      (hid'.trans hid)
  refine ⟨?_, ?_, ?_, ?_, ?_⟩
  · rw [List.map_map]
    have hids :
      best.map (FaceSearchResult.id ∘ fun b => if b.id = hit.id ∧ hit.distance < b.distance then
        { b with assetId := hit.assetId, distance := hit.distance } else b) =
          best.map FaceSearchResult.id := by
      refine List.map_congr_left fun b _ => ?_
      simp only [Function.comp]
      split <;> rfl
    rw [hids]
    exact h.nodup
  · intro b' hb'
    obtain ⟨b, hb, rfl⟩ := List.mem_map.mp hb'
    split
    · rename_i hbetter
      exact ⟨hit, List.mem_append_right _ (List.mem_singleton_self _), hbetter.1.symm, rfl, rfl⟩
    · obtain ⟨old, hold, hfacts⟩ := h.from_hits b hb
      exact ⟨old, List.mem_append_left _ hold, hfacts⟩
  · intro b' hb' other hother hid
    obtain ⟨b, hb, rfl⟩ := List.mem_map.mp hb'
    rcases List.mem_append.mp hother with hold | hnew
    · split
      · rename_i hbetter
        rw [if_pos hbetter] at hid
        exact hbetter.2.le.trans (h.least b hb other hold hid)
      · rename_i hworse
        rw [if_neg hworse] at hid
        exact h.least b hb other hold hid
    · have hsame : other = hit := by simpa using hnew
      subst hsame
      split
      · exact le_rfl
      · rename_i hworse
        rw [if_neg hworse] at hid
        exact not_lt.mp fun hlt => hworse ⟨hid.symm, hlt⟩
  · intro other hother
    have hfind : ∃ b ∈ best, b.id = other.id := by
      rcases List.mem_append.mp hother with hold | hnew
      · exact h.all other hold
      · have hsame : other = hit := by simpa using hnew
        exact hsame ▸ hknown
    obtain ⟨b, hb, hid⟩ := hfind
    refine ⟨_, List.mem_map_of_mem hb, ?_⟩
    split <;> exact hid
  · intro assetId
    rw [find_map assetId, h.first assetId, List.find?_append]
    · cases hfind : hits.find? (fun other => other.assetId = assetId) with
      | some old => rfl
      | none =>
        obtain ⟨b, hb, hid⟩ := hknown
        obtain ⟨old, hold, -, hassetId, -⟩ := h.from_hits b hb
        have hother : hit.assetId ≠ assetId := by
          rw [← hasset b hb hid, ← hassetId]
          simpa using List.find?_eq_none.mp hfind old hold
        simp [hother]
    · intro b hb
      split
      · rename_i hbetter
        exact ⟨(hasset b hb hbetter.1).symm, rfl⟩
      · exact ⟨rfl, rfl⟩

theorem BestOf.new (h : BestOf hits best) (hnew : ∀ b ∈ best, b.id ≠ hit.id) :
    BestOf (hits ++ [hit]) (noteBest best hit) := by
  rw [noteBest_new hnew]
  have hunseen : ∀ other ∈ hits, other.id ≠ hit.id := by
    intro other hother hid
    obtain ⟨b, hb, hid'⟩ := h.all other hother
    exact hnew b hb (hid'.trans hid)
  refine ⟨?_, ?_, ?_, ?_, ?_⟩
  · rw [List.map_append, List.nodup_append]
    refine ⟨h.nodup, List.nodup_singleton _, fun i hi j hj hij => ?_⟩
    obtain ⟨b, hb, rfl⟩ := List.mem_map.mp hi
    have hj' : j = hit.id := by simpa using hj
    exact hnew b hb (hij.trans hj')
  · intro b hb
    rcases List.mem_append.mp hb with hb | hb
    · obtain ⟨old, hold, hfacts⟩ := h.from_hits b hb
      exact ⟨old, List.mem_append_left _ hold, hfacts⟩
    · have hsame : b = hit := by simpa using hb
      exact ⟨hit, List.mem_append_right _ (List.mem_singleton_self _), hsame ▸ ⟨rfl, rfl, rfl⟩⟩
  · intro b hb other hother hid
    rcases List.mem_append.mp hb with hb | hb
    · rcases List.mem_append.mp hother with hold | hlast
      · exact h.least b hb other hold hid
      · have hsame : other = hit := by simpa using hlast
        exact absurd (hsame ▸ hid.symm) (hnew b hb)
    · have hsame : b = hit := by simpa using hb
      subst hsame
      rcases List.mem_append.mp hother with hold | hlast
      · exact absurd hid (hunseen other hold)
      · have hother' : other = b := by simpa using hlast
        exact hother' ▸ le_rfl
  · intro other hother
    rcases List.mem_append.mp hother with hold | hlast
    · obtain ⟨b, hb, hid⟩ := h.all other hold
      exact ⟨b, List.mem_append_left _ hb, hid⟩
    · have hsame : other = hit := by simpa using hlast
      exact ⟨hit, List.mem_append_right _ (List.mem_singleton_self _), by rw [hsame]⟩
  · intro assetId
    rw [List.find?_append, List.find?_append, Option.map_or, Option.map_or, h.first assetId]

/-- The best distances of a list of hits. -/
theorem bestOf_foldl (hone : OneAsset hits) : BestOf hits (hits.foldl noteBest []) := by
  induction hits using List.reverseRecOn with
  | nil => exact ⟨List.nodup_nil, by simp, by simp, by simp, fun _ => rfl⟩
  | append_singleton hits hit ih =>
    have hbefore : OneAsset hits := fun a ha b hb =>
      hone a (List.mem_append_left _ ha) b (List.mem_append_left _ hb)
    rw [List.foldl_append]
    by_cases hknown : ∃ b ∈ hits.foldl noteBest [], b.id = hit.id
    · exact (ih hbefore).known hone hknown
    · exact (ih hbefore).new fun b hb hid => hknown ⟨b, hb, hid⟩

end Best

/-! The rows that are inserted. -/

section Inserts

variable {rows inserts : List ParticipantMatch} {participantId : ParticipantId}

/-- A photo is among the matches of a participant. -/
def MatchedIn (rows : List ParticipantMatch) (participantId : ParticipantId)
    (assetId : AssetId) : Prop :=
  ∃ m ∈ rows, m.participantId = participantId ∧ m.assetId = assetId

theorem matchedIn_append {x : ParticipantMatch} {assetId : AssetId}
    (hx : x.participantId = participantId) :
    MatchedIn (rows ++ [x]) participantId assetId ↔
      MatchedIn rows participantId assetId ∨ x.assetId = assetId := by
  simp [MatchedIn, or_and_right, exists_or, hx]

/-- Of the rows for one photo the first is inserted, if the photo is not matched yet. -/
theorem mem_insertRows (h : ∀ m ∈ inserts, m.participantId = participantId) {m : ParticipantMatch} :
    m ∈ inserts.foldl FaceStore.addMatch rows ↔ m ∈ rows ∨
      (¬ MatchedIn rows participantId m.assetId ∧
      inserts.find? (fun r => r.assetId = m.assetId) = some m) := by
  induction inserts generalizing rows with
  | nil => simp
  | cons x inserts ih =>
    have hrest : ∀ m ∈ inserts, m.participantId = participantId :=
      fun m hm => h m (List.mem_cons_of_mem _ hm)
    have hx : x.participantId = participantId := h x List.mem_cons_self
    rw [List.foldl_cons, ih hrest]
    by_cases hmatched : MatchedIn rows participantId x.assetId
    · have hsame : FaceStore.addMatch rows x = rows := by
        obtain ⟨r, hr, hp, ha⟩ := hmatched
        unfold FaceStore.addMatch
        rw [if_pos (List.any_eq_true.mpr ⟨r, hr, by simp [hp, ha, hx]⟩)]
      rw [hsame]
      by_cases hasset : x.assetId = m.assetId
      · have hold : MatchedIn rows participantId m.assetId := hasset ▸ hmatched
        simp [hold]
      · simp [hasset]
    · have hadd : FaceStore.addMatch rows x = rows ++ [x] := by
        unfold FaceStore.addMatch
        rw [if_neg]
        intro hany
        obtain ⟨r, hr, hpair⟩ := List.any_eq_true.mp hany
        have hpair' := of_decide_eq_true hpair
        exact hmatched ⟨r, hr, hpair'.1.trans hx, hpair'.2⟩
      rw [hadd, matchedIn_append hx, List.mem_append, List.mem_singleton]
      by_cases hasset : x.assetId = m.assetId
      · have hnew : ¬ MatchedIn rows participantId m.assetId := hasset ▸ hmatched
        simp [hnew, hasset, eq_comm]
      · have hne : m ≠ x := fun heq => hasset (by rw [heq])
        simp [hasset, hne]

end Inserts

/-! The searches. -/

/-- A live face of a live photo of the event, with its embedding. -/
structure Shows (s : FaceStore) (eventId : EventId) (assetId : AssetId) (f : AssetFace)
    (v : Embedding) :
    Prop where
  stored : f ∈ s.faces
  live : f.deleted = false
  photo : f.assetId = assetId
  asset : ∃ a, s.asset assetId = some a ∧ a.eventId = eventId ∧ a.deleted = false
  embedded : s.embedding f.id = some v

section Searches

variable (distance : Embedding → Embedding → ℚ) (maxDistance : ℚ) (s : FaceStore)
  (eventId : EventId)
  (choice : Embedding → List FaceSearchResult)

def searchFor (e : Embedding) : FaceSearchOptions where
  eventId := eventId
  embedding := e
  numResults := MATCH_NUM_RESULTS
  maxDistance := maxDistance

def hitOn (f : AssetFace) (v e : Embedding) : FaceSearchResult where
  id := f.id
  personId := f.personId
  assetId := f.assetId
  distance := distance v e

/-- Every live face of the event, at its distance. -/
def hitsFor (e : Embedding) : List FaceSearchResult :=
  s.faces.filterMap (s.candidate distance (searchFor maxDistance eventId e))

/-- What the search for one selfie finds. -/
def found (e : Embedding) : List FaceSearchResult :=
  s.searchFaces distance (searchFor maxDistance eventId e) (choice e)

/-- Fewer faces are near the selfie than a search may find. -/
def Roomy (e : Embedding) : Prop :=
  (hitsFor distance maxDistance s eventId e).countP (fun hit => hit.distance ≤ maxDistance) <
    MATCH_NUM_RESULTS

variable {distance maxDistance s eventId choice} {e : Embedding} {hit : FaceSearchResult}
  {assetId : AssetId}

theorem mem_hitsFor : hit ∈ hitsFor distance maxDistance s eventId e ↔
    ∃ f v, Shows s eventId hit.assetId f v ∧ hit = hitOn distance f v e := by
  constructor
  · intro hhit
    obtain ⟨f, hf, hcandidate⟩ := List.mem_filterMap.mp hhit
    obtain ⟨a, v, ha, hv, ⟨hevent, hlive, hface, -⟩, rfl⟩ := candidate_eq_some hcandidate
    exact ⟨f, v, ⟨hf, hface, rfl, ⟨a, ha, hevent, hlive⟩, hv⟩, rfl⟩
  · rintro ⟨f, v, ⟨hf, hface, hphoto, ⟨a, ha, hevent, hlive⟩, hv⟩, rfl⟩
    refine List.mem_filterMap.mpr ⟨f, hf, ?_⟩
    rw [← hphoto] at ha
    simp [FaceStore.candidate, searchFor, hitOn, ha, hv, hevent, hlive, hface]

/-- With room to spare a search finds exactly the faces that are near. -/
theorem mem_found (hroom : Roomy distance maxDistance s eventId e) :
    hit ∈ found distance maxDistance s eventId choice e ↔
      hit ∈ hitsFor distance maxDistance s eventId e ∧ hit.distance ≤ maxDistance := by
  have hnear : ∀ a b : FaceSearchResult,
      toLex (a.distance, (choice e).idxOf a) ≤ toLex (b.distance, (choice e).idxOf b) →
      decide (b.distance ≤ maxDistance) = true → decide (a.distance ≤ maxDistance) = true := by
    intro a b hle hb
    have hdistance : a.distance ≤ b.distance := Prod.Lex.monotone_fst _ _ hle
    exact decide_eq_true (hdistance.trans (of_decide_eq_true hb))
  constructor
  · intro hfound
    obtain ⟨hmem, hclose⟩ := Nearest.mem_of_window hfound
    exact ⟨hmem, of_decide_eq_true hclose⟩
  · rintro ⟨hmem, hclose⟩
    refine Nearest.mem_window hnear ?_ hmem (decide_eq_true hclose)
    exact not_le.mp fun hfull =>
      absurd ((Nearest.le_length_window hnear).mp hfull) (not_le.mpr hroom)

theorem mem_found_iff (hroom : Roomy distance maxDistance s eventId e) :
    hit ∈ found distance maxDistance s eventId choice e ↔
      ∃ f v, Shows s eventId hit.assetId f v ∧ distance v e ≤ maxDistance ∧
      hit = hitOn distance f v e := by
  rw [mem_found hroom, mem_hitsFor]
  constructor
  · rintro ⟨⟨f, v, hshows, heq⟩, hclose⟩
    refine ⟨f, v, hshows, ?_, heq⟩
    rw [heq] at hclose
    exact hclose
  · rintro ⟨f, v, hshows, hclose, heq⟩
    refine ⟨⟨f, v, hshows, heq⟩, ?_⟩
    rw [heq]
    exact hclose

/-- The face of a photo that a search finds first is a nearest one. -/
theorem found_first_le {other : FaceSearchResult}
    (hfirst : (found distance maxDistance s eventId choice e).find?
    (fun hit => hit.assetId = assetId) =
      some hit) (hother : other ∈ found distance maxDistance s eventId choice e) (hasset :
      other.assetId = assetId) :
    hit.distance ≤ other.distance :=
  Prod.Lex.monotone_fst _ _ (Nearest.find?_window_le hfirst hother (decide_eq_true hasset))

/-- A nearest face comes first where the database chooses it among equals. -/
theorem found_first_eq (hchoice : choice e = [hit])
    (hmem : hit ∈ found distance maxDistance s eventId choice e)
    (hleast : ∀ other ∈ found distance maxDistance s eventId choice e, other.assetId = hit.assetId →
      hit.distance ≤ other.distance) :
    (found distance maxDistance s eventId choice e).find?
    (fun other => other.assetId = hit.assetId) =
      some hit := by
  refine Nearest.find?_window_eq hmem (decide_eq_true rfl) fun other hother hasset hne => ?_
  have hle := hleast other hother (of_decide_eq_true hasset)
  rw [Prod.Lex.toLex_lt_toLex, hchoice]
  rcases hle.lt_or_eq with hlt | heq
  · exact .inl hlt
  · refine .inr ⟨heq, ?_⟩
    simp [Ne.symm hne]

theorem found_shows (hfound : hit ∈ found distance maxDistance s eventId choice e) :
    ∃ f v, Shows s eventId hit.assetId f v ∧ hit = hitOn distance f v e :=
  mem_hitsFor.mp (Nearest.mem_of_window hfound).1

end Searches

/-! The matching. -/

/-- Nothing fails from outside, the settings are these, and each search has its own order
among equal distances. -/
structure Answering (config : FacialRecognitionConfig) (choice : Embedding → List FaceSearchResult)
    (ω : FaceOracle) : Prop where
  answers : ∀ n o, ∃ answer, ω n o = .ok answer
  settings : ∀ n eventId, ω n (.getConfig eventId) = .ok config
  choices : ∀ n options, ω n (.searchFaces options) = .ok (choice options.embedding)

section Matching

variable (distance : Embedding → Embedding → ℚ) (config : FacialRecognitionConfig)
  (choice : Embedding → List FaceSearchResult) (s : FaceStore) (participant : Participant)

/-- The embeddings that are searched for, in their order; none before a first one is taken. -/
def embeddingsOf : List Embedding :=
  match participant.selfieEmbedding with
  | none => []
  | some selfieEmbedding =>
    let own := (s.getSelfies participant.id).filterMap ParticipantSelfie.embedding
    if own = [] then [selfieEmbedding] else own

/-- Everything that is found, selfie after selfie. -/
def hits (es : List Embedding) : List FaceSearchResult :=
  es.flatMap (found distance config.maxDistance s participant.eventId choice)

/-- The best distance for each face found. -/
def best (es : List Embedding) : List FaceSearchResult :=
  (hits distance config choice s participant es).foldl noteBest []

def rowFor (hit : FaceSearchResult) : ParticipantMatch where
  participantId := participant.id
  assetId := hit.assetId
  viaFaceId := some hit.id
  distance := hit.distance

/-- The rows that are offered. -/
def offered (es : List Embedding) : List ParticipantMatch :=
  (best distance config choice s participant es).map (rowFor participant)

/-- The matches afterwards. -/
def matchedRows (es : List Embedding) : List ParticipantMatch :=
  (offered distance config choice s participant es).foldl FaceStore.addMatch s.matchRows

variable {distance config choice s participant} {ω : FaceOracle} {es : List Embedding}

theorem Answering.later (h : Answering config choice ω) :
    Answering config choice (fun n => ω (n + 1)) :=
  ⟨fun n => h.answers (n + 1), fun n => h.settings (n + 1), fun n => h.choices (n + 1)⟩

theorem answering_call {α : Type} {o : FaceOp} {f : FaceAnswer o → Attempt α}
    {answer : FaceAnswer o}
    {s' : FaceStore} {r : Except FaceError α × FaceStore} (hω : Answering config choice ω)
    (h : ∀ proposed, statement distance o proposed s = some (answer, s'))
    (hrest : ∀ ω', Answering config choice ω' → outcome distance (f answer) ω' s' = r) :
    outcome distance (call o >>= f) ω s = r := by
  obtain ⟨proposed, hanswer⟩ := hω.answers 0 o
  exact (outcome_step hanswer (h proposed)).trans (hrest _ hω.later)

theorem answering_search {α : Type} {f : List FaceSearchResult → Attempt α} {eventId : EventId}
    {e : Embedding}
    {r : Except FaceError α × FaceStore} (hω : Answering config choice ω)
    (hrest : ∀ ω', Answering config choice ω' →
      outcome distance (f (found distance config.maxDistance s eventId choice e)) ω' s = r) :
    outcome distance (searchFaces (searchFor config.maxDistance eventId e) >>= f) ω s = r := by
  have hsearch : searchFaces (searchFor config.maxDistance eventId e) =
      call (.searchFaces (searchFor config.maxDistance eventId e)) := by
    simp [searchFaces, searchFor, MATCH_NUM_RESULTS]
  have hfound :
    statement distance (.searchFaces (searchFor config.maxDistance eventId e)) (choice e) s =
      some (found distance config.maxDistance s eventId choice e, s) := rfl
  rw [hsearch]
  exact (outcome_step (hω.choices 0 (searchFor config.maxDistance eventId e)) hfound).trans
    (hrest _ hω.later)

theorem answering_searchAll {α : Type} {f : List FaceSearchResult → Attempt α} {eventId : EventId}
    {r : Except FaceError α × FaceStore} (hω : Answering config choice ω) (es : List Embedding)
    (best : List FaceSearchResult)
    (hrest : ∀ ω', Answering config choice ω' → outcome distance
      (f ((es.flatMap (found distance config.maxDistance s eventId choice)).foldl noteBest best)) ω'
      s = r) :
    outcome distance (searchAll eventId config.maxDistance es best >>= f) ω s = r := by
  induction es generalizing best ω with
  | nil => exact hrest ω hω
  | cons e es ih =>
    rw [searchAll, bind_assoc]
    refine answering_search hω fun ω' hω' => ih hω' _ fun ω'' hω'' => ?_
    rw [← List.foldl_append, ← List.flatMap_cons]
    exact hrest ω'' hω''

theorem mem_hits {hit : FaceSearchResult} (h : hit ∈ hits distance config choice s participant es) :
    ∃ e ∈ es, ∃ f v, Shows s participant.eventId hit.assetId f v ∧
      hit = hitOn distance f v e := by
  obtain ⟨e, he, hfound⟩ := List.mem_flatMap.mp h
  obtain ⟨f, v, hshows, heq⟩ := found_shows hfound
  exact ⟨e, he, f, v, hshows, heq⟩

theorem hits_oneAsset (hfaces : (s.faces.map AssetFace.id).Nodup) :
    OneAsset (hits distance config choice s participant es) := by
  intro a ha b hb hid
  obtain ⟨e, -, f, v, hf, ha⟩ := mem_hits ha
  obtain ⟨e', -, g, w, hg, hb⟩ := mem_hits hb
  have hids : f.id = g.id := by
    rw [ha, hb] at hid
    exact hid
  have hsame : f = g := eq_of_id hfaces hf.stored hg.stored hids
  rw [← hf.photo, ← hg.photo, hsame]

theorem hits_bestOf (hfaces : (s.faces.map AssetFace.id).Nodup) :
    BestOf (hits distance config choice s participant es)
    (best distance config choice s participant es) :=
  bestOf_foldl (hits_oneAsset hfaces)

/-- The offered rows name rows that are there. -/
theorem offered_there (hfaces : (s.faces.map AssetFace.id).Nodup) {m : ParticipantMatch}
    (hm : m ∈ offered distance config choice s participant es) :
    m.participantId = participant.id ∧ (s.asset m.assetId).isSome = true ∧
      m.viaFaceId.all (fun f => (s.face f).isSome) = true := by
  obtain ⟨b, hb, rfl⟩ := List.mem_map.mp hm
  obtain ⟨hit, hhit, hid, hasset, -⟩ := (hits_bestOf hfaces).from_hits b hb
  obtain ⟨e, -, f, v, hshows, heq⟩ := mem_hits hhit
  obtain ⟨a, ha, -⟩ := hshows.asset
  refine ⟨rfl, ?_, ?_⟩
  · rw [rowFor, ← hasset, ha]
    rfl
  · have hface : f.id = b.id := by
      rw [← hid, heq]
      rfl
    simp only [rowFor, Option.all_some, FaceStore.face, List.find?_isSome]
    exact ⟨f, hshows.stored, decide_eq_true hface⟩

theorem insertMatches_done (hfaces : (s.faces.map AssetFace.id).Nodup)
    (hthere : s.participants.any (fun p => p.id = participant.id) = true) :
    s.insertMatches (offered distance config choice s participant es) =
      some ((matchedRows distance config choice s participant es).length - s.matchRows.length,
        { s with matchRows := matchedRows distance config choice s participant es }) := by
  unfold FaceStore.insertMatches
  rw [if_pos]
  · rfl
  · refine List.all_eq_true.mpr fun m hm => ?_
    obtain ⟨hparticipant, hasset, hface⟩ := offered_there hfaces hm
    rw [hparticipant]
    exact decide_eq_true ⟨hthere, hasset, hface⟩

theorem answering_insertMatches {α : Type} {f : ℕ → Attempt α} {r : Except FaceError α × FaceStore}
    (hω : Answering config choice ω) (hfaces : (s.faces.map AssetFace.id).Nodup)
    (hthere : s.participants.any (fun p => p.id = participant.id) = true)
    (hrest : ∀ ω', Answering config choice ω' → outcome distance
      (f ((matchedRows distance config choice s participant es).length - s.matchRows.length)) ω'
      { s with matchRows := matchedRows distance config choice s participant es } = r) :
    outcome distance (insertMatches (offered distance config choice s participant es) >>= f) ω
    s = r := by
  unfold insertMatches
  split
  · rename_i hnone
    have hsame : matchedRows distance config choice s participant es = s.matchRows := by
      rw [matchedRows, hnone]
      rfl
    have hnext := hrest ω hω
    rw [hsame, Nat.sub_self] at hnext
    exact hnext
  · exact answering_call hω (fun _ => insertMatches_done hfaces hthere) hrest

variable (distance) in
/-- The photos that are found are matched, and nothing else changes but the
standing of the participant. -/
theorem matchParticipant_outcome (hω : Answering config choice ω)
    (hfaces : (s.faces.map AssetFace.id).Nodup)
    (hthere : s.participants.any (fun p => p.id = participant.id) = true) :
    ∃ participants, participants.any (fun p => p.id = participant.id) = true ∧
      outcome distance (matchParticipant participant) ω s =
        (.ok ((matchedRows distance config choice s participant
        (embeddingsOf s participant)).length -
            s.matchRows.length),
          { s with
            matchRows :=
            matchedRows distance config choice s participant (embeddingsOf s participant)
            participants := participants }) := by
  unfold matchParticipant
  cases hselfie : participant.selfieEmbedding with
  | none =>
    have hsame : matchedRows distance config choice s participant (embeddingsOf s participant) =
        s.matchRows := by
      simp [matchedRows, offered, best, hits, embeddingsOf, hselfie]
    refine ⟨s.participants, hthere, ?_⟩
    rw [hsame, Nat.sub_self]
    rfl
  | some selfieEmbedding =>
    have hall : embeddingsOf s participant =
        if (s.getSelfies participant.id).filterMap ParticipantSelfie.embedding =
          [] then [selfieEmbedding]
        else (s.getSelfies participant.id).filterMap ParticipantSelfie.embedding := by
      rw [embeddingsOf, hselfie]
    let s' : FaceStore := { s with
      matchRows := matchedRows distance config choice s participant (embeddingsOf s participant) }
    refine ⟨(s'.setMatched participant.id (0 < s'.countMatches participant.id)).participants, ?_,
      ?_⟩
    · obtain ⟨p, hp, hid⟩ := List.any_eq_true.mp hthere
      refine List.any_eq_true.mpr ⟨_, List.mem_map_of_mem hp, ?_⟩
      have hid' := of_decide_eq_true hid
      simp [hid']
    · refine (outcome_step (hω.settings 0 participant.eventId) rfl).trans ?_
      refine answering_call hω.later (fun _ => rfl) fun ω₁ hω₁ => ?_
      simp only [← hall]
      refine answering_searchAll hω₁ _ _ fun ω₂ hω₂ => ?_
      refine answering_insertMatches hω₂ hfaces hthere fun ω₃ hω₃ => ?_
      refine answering_call hω₃ (fun _ => rfl) fun ω₄ hω₄ => ?_
      exact answering_call hω₄ (fun _ => rfl) fun _ _ => rfl

end Matching

/-! The nearest faces. -/

section Nearness

variable (distance : Embedding → Embedding → ℚ) (config : FacialRecognitionConfig)
  (choice : Embedding → List FaceSearchResult) (s : FaceStore) (participant : Participant)

/-- A face of the photo that is nearest the selfie, and near enough. -/
structure NearestFace (assetId : AssetId) (e : Embedding) (f : AssetFace) (v : Embedding) :
    Prop where
  shown : Shows s participant.eventId assetId f v
  near : distance v e ≤ config.maxDistance
  least : ∀ g w, Shows s participant.eventId assetId g w → distance v e ≤ distance w e

/-- A photo that is not matched yet has one nearest face for all the selfies that find it. -/
def OneNearest (es : List Embedding) : Prop :=
  ∀ assetId, ¬ MatchedIn s.matchRows participant.id assetId → ∀ e ∈ es, ∀ e' ∈ es, e ≠ e' →
    ∀ f v g w,
    NearestFace distance config s participant assetId e f v →
    NearestFace distance config s participant assetId e' g w → f = g

/-- The photos are the matched ones and those with a near face, each with the least distance
and a face that has it. -/
structure MatchesNearest (es : List Embedding) (rows : List ParticipantMatch) : Prop where
  kept : ∀ m ∈ s.matchRows, m ∈ rows
  photos : ∀ assetId, MatchedIn rows participant.id assetId ↔
    MatchedIn s.matchRows participant.id assetId ∨
    ∃ e ∈ es, ∃ f v, Shows s participant.eventId assetId f v ∧ distance v e ≤ config.maxDistance
  nearest : ∀ m ∈ rows, m ∉ s.matchRows → m.participantId = participant.id ∧
    (∃ e ∈ es, ∃ f v, Shows s participant.eventId m.assetId f v ∧ m.viaFaceId = some f.id ∧
      m.distance = distance v e) ∧
    ∀ e ∈ es, ∀ f v, Shows s participant.eventId m.assetId f v → m.distance ≤ distance v e

variable {distance config choice s participant} {es es' : List Embedding} {e : Embedding}
  {assetId : AssetId}
  {hit b : FaceSearchResult} {m : ParticipantMatch}

/-- The first hit on a photo in a search is on a nearest face. -/
theorem nearestFace_of_first (hroom : Roomy distance config.maxDistance s participant.eventId e)
    (hfirst : (found distance config.maxDistance s participant.eventId choice e).find?
      (fun hit => hit.assetId = assetId) = some hit) :
    ∃ f v, NearestFace distance config s participant assetId e f v ∧
    hit = hitOn distance f v e := by
  have hasset : hit.assetId = assetId := find?_asset hfirst
  obtain ⟨f, v, hshows, hnear, heq⟩ := (mem_found_iff hroom).mp (List.mem_of_find?_eq_some hfirst)
  rw [hasset] at hshows
  refine ⟨f, v, ⟨hshows, hnear, fun g w hg => ?_⟩, heq⟩
  by_cases hclose : distance w e ≤ config.maxDistance
  · have hmem :
      hitOn distance g w e ∈ found distance config.maxDistance s participant.eventId choice e := by
      refine (mem_found_iff hroom).mpr ⟨g, w, ?_, hclose, rfl⟩
      rw [← hg.photo] at hg
      exact hg
    have hle := found_first_le hfirst hmem hg.photo
    rw [heq] at hle
    exact hle
  · exact hnear.trans (not_le.mp hclose).le

variable (choice) in
/-- A search that finds a photo has a first hit on it. -/
theorem exists_first (hroom : Roomy distance config.maxDistance s participant.eventId e)
    {f : AssetFace}
    {v : Embedding} (hshows : Shows s participant.eventId assetId f v)
    (hnear : distance v e ≤ config.maxDistance) :
    ∃ hit, (found distance config.maxDistance s participant.eventId choice e).find?
      (fun hit => hit.assetId = assetId) = some hit := by
  refine Option.isSome_iff_exists.mp
    (List.find?_isSome.mpr ⟨hitOn distance f v e, ?_, decide_eq_true hshows.photo⟩)
  refine (mem_found_iff hroom).mpr ⟨f, v, ?_, hnear, rfl⟩
  have hphoto := hshows
  rw [← hshows.photo] at hphoto
  exact hphoto

/-- The row for a new photo is for the face found first. -/
theorem mem_matchedRows :
    m ∈ matchedRows distance config choice s participant es ↔ m ∈ s.matchRows ∨
    (¬ MatchedIn s.matchRows participant.id m.assetId ∧
      ∃ b, (best distance config choice s participant es).find?
        (fun b => b.assetId = m.assetId) = some b ∧ rowFor participant b = m) := by
  have hown :
    ∀ r ∈ offered distance config choice s participant es, r.participantId = participant.id := by
    intro r hr
    obtain ⟨b, -, rfl⟩ := List.mem_map.mp hr
    rfl
  rw [matchedRows, mem_insertRows hown, offered, List.find?_map, Option.map_eq_some_iff]
  rfl

variable (distance config choice participant es) in
/-- The first of the best distances for a photo is for the face found first. -/
theorem find?_best (hfaces : (s.faces.map AssetFace.id).Nodup) (assetId : AssetId) :
    ((best distance config choice s participant es).find? (fun b => b.assetId = assetId)).map
    FaceSearchResult.id =
      (es.findSome?
      fun e => (found distance config.maxDistance s participant.eventId choice e).find?
        (fun hit => hit.assetId = assetId)).map FaceSearchResult.id := by
  rw [(hits_bestOf hfaces).first assetId, hits, List.find?_flatMap]

theorem first_of_best (hfaces : (s.faces.map AssetFace.id).Nodup)
    (hbest : (best distance config choice s participant es).find? (fun b => b.assetId = assetId) =
    some b) :
    ∃ e ∈ es, ∃ hit, (found distance config.maxDistance s participant.eventId choice e).find?
      (fun hit => hit.assetId = assetId) = some hit ∧ hit.id = b.id := by
  have hfirst := find?_best distance config choice participant es hfaces assetId
  rw [hbest, eq_comm, Option.map_some, Option.map_eq_some_iff] at hfirst
  obtain ⟨hit, hsome, hid⟩ := hfirst
  obtain ⟨e, he, hfind⟩ := List.exists_of_findSome?_eq_some hsome
  exact ⟨e, he, hit, hfind, hid⟩

variable (choice) in
theorem best_of_shows (hfaces : (s.faces.map AssetFace.id).Nodup)
    (hroom : Roomy distance config.maxDistance s participant.eventId e) (he : e ∈ es)
    {f : AssetFace}
    {v : Embedding} (hshows : Shows s participant.eventId assetId f v)
    (hnear : distance v e ≤ config.maxDistance) :
    ∃ b, (best distance config choice s participant es).find? (fun b => b.assetId = assetId) =
    some b := by
  obtain ⟨hit, hfirst⟩ := exists_first choice hroom hshows hnear
  have hsome :
    (es.findSome? fun e => (found distance config.maxDistance s participant.eventId choice e).find?
      (fun hit => hit.assetId = assetId)).isSome = true :=
    List.findSome?_isSome_iff.mpr ⟨e, he, by rw [hfirst]; rfl⟩
  have hbest := find?_best distance config choice participant es hfaces assetId
  rw [← Option.isSome_map, ← hbest, Option.isSome_map] at hsome
  exact Option.isSome_iff_exists.mp hsome

/-- A best distance is that of a face found, and no selfie finds the face nearer. -/
theorem best_attained (hfaces : (s.faces.map AssetFace.id).Nodup)
    (hbest : (best distance config choice s participant es).find? (fun b => b.assetId = assetId) =
    some b) :
    ∃ e ∈ es, ∃ f v, Shows s participant.eventId assetId f v ∧ f.id = b.id ∧
    b.distance = distance v e := by
  have hasset : b.assetId = assetId := find?_asset hbest
  obtain ⟨hit, hhit, hid, hphoto, hdistance⟩ :=
    (hits_bestOf hfaces).from_hits b (List.mem_of_find?_eq_some hbest)
  obtain ⟨e, he, f, v, hshows, heq⟩ := mem_hits hhit
  rw [hphoto, hasset] at hshows
  refine ⟨e, he, f, v, hshows, ?_, ?_⟩
  · rw [← hid, heq]
    rfl
  · rw [← hdistance, heq]
    rfl

theorem best_le (hfaces : (s.faces.map AssetFace.id).Nodup)
    (hroom : Roomy distance config.maxDistance s participant.eventId e) (he : e ∈ es)
    (hbest : (best distance config choice s participant es).find?
    (fun b => b.assetId = assetId) = some b)
    {f : AssetFace} {v : Embedding} (hshows : Shows s participant.eventId assetId f v)
    (hid : f.id = b.id)
    (hnear : distance v e ≤ config.maxDistance) : b.distance ≤ distance v e := by
  have hphoto := hshows
  rw [← hshows.photo] at hphoto
  have hfound :
    hitOn distance f v e ∈ found distance config.maxDistance s participant.eventId choice e :=
    (mem_found_iff hroom).mpr ⟨f, v, hphoto, hnear, rfl⟩
  exact (hits_bestOf hfaces).least b (List.mem_of_find?_eq_some hbest) _
    (List.mem_flatMap.mpr ⟨e, he, hfound⟩) hid

/-- Where one face is nearest for all selfies, the one found first has the least distance of all. -/
theorem best_least (hfaces : (s.faces.map AssetFace.id).Nodup)
    (hroom : ∀ e ∈ es, Roomy distance config.maxDistance s participant.eventId e)
    (hone : OneNearest distance config s participant es)
    (hnew : ¬ MatchedIn s.matchRows participant.id assetId)
    (hbest : (best distance config choice s participant es).find?
    (fun b => b.assetId = assetId) = some b)
    (he : e ∈ es) {f : AssetFace} {v : Embedding}
    (hshows : Shows s participant.eventId assetId f v) :
    b.distance ≤ distance v e := by
  obtain ⟨e₀, he₀, first, hfirst, hid⟩ := first_of_best hfaces hbest
  obtain ⟨g, w, hg, rfl⟩ := nearestFace_of_first (hroom e₀ he₀) hfirst
  have hclosest : b.distance ≤ distance w e₀ :=
    best_le hfaces (hroom e₀ he₀) he₀ hbest hg.shown hid hg.near
  by_cases hnear : distance v e ≤ config.maxDistance
  · by_cases hsame : e = e₀
    · rw [hsame]
      exact hclosest.trans (hg.least f v hshows)
    · obtain ⟨hit, hhit⟩ := exists_first choice (hroom e he) hshows hnear
      obtain ⟨g', w', hg', -⟩ := nearestFace_of_first (hroom e he) hhit
      have hface : g' = g := hone assetId hnew e he e₀ he₀ hsame g' w' g w hg' hg
      have hid' : g'.id = b.id := by
        rw [hface]
        exact hid
      exact (best_le hfaces (hroom e he) he hbest hg'.shown hid' hg'.near).trans
        (hg'.least f v hshows)
  · exact hclosest.trans (hg.near.trans (not_le.mp hnear).le)

/-- The photos matched are those matched before and those with a near face. -/
theorem matchedIn_matchedRows (hfaces : (s.faces.map AssetFace.id).Nodup)
    (hroom : ∀ e ∈ es, Roomy distance config.maxDistance s participant.eventId e) :
    MatchedIn (matchedRows distance config choice s participant es) participant.id assetId ↔
      MatchedIn s.matchRows participant.id assetId ∨
        ∃ e ∈ es, ∃ f v, Shows s participant.eventId assetId f v ∧
        distance v e ≤ config.maxDistance := by
  constructor
  · rintro ⟨m, hm, hparticipant, rfl⟩
    rcases mem_matchedRows.mp hm with hold | ⟨-, b, hbest, -⟩
    · exact .inl ⟨m, hold, hparticipant, rfl⟩
    · obtain ⟨e, he, hit, hfirst, -⟩ := first_of_best hfaces hbest
      obtain ⟨f, v, hf, -⟩ := nearestFace_of_first (hroom e he) hfirst
      exact .inr ⟨e, he, f, v, hf.shown, hf.near⟩
  · intro h
    by_cases hold : MatchedIn s.matchRows participant.id assetId
    · obtain ⟨m, hm, hfacts⟩ := hold
      exact ⟨m, mem_matchedRows.mpr (.inl hm), hfacts⟩
    · obtain ⟨e, he, f, v, hshows, hnear⟩ := h.resolve_left hold
      obtain ⟨b, hbest⟩ := best_of_shows choice hfaces (hroom e he) he hshows hnear
      have hasset : b.assetId = assetId := find?_asset hbest
      have hrow : (rowFor participant b).assetId = assetId := hasset
      refine ⟨rowFor participant b, mem_matchedRows.mpr (.inr ?_), rfl, hasset⟩
      rw [hrow]
      exact ⟨hold, b, hbest, rfl⟩

variable (choice) in
theorem matchesNearest (hfaces : (s.faces.map AssetFace.id).Nodup)
    (hroom : ∀ e ∈ es, Roomy distance config.maxDistance s participant.eventId e)
    (hone : OneNearest distance config s participant es) :
    MatchesNearest distance config s participant es
    (matchedRows distance config choice s participant es) where
  kept m hm := mem_matchedRows.mpr (.inl hm)
  photos _ := matchedIn_matchedRows hfaces hroom
  nearest m hm hnew := by
    obtain ⟨hunmatched, b, hbest, rfl⟩ := (mem_matchedRows.mp hm).resolve_left hnew
    refine ⟨rfl, ?_, fun e he f v hshows => best_least hfaces hroom hone hunmatched hbest he hshows⟩
    obtain ⟨e, he, f, v, hshows, hid, hdistance⟩ := best_attained hfaces hbest
    refine ⟨e, he, f, v, hshows, ?_, hdistance⟩
    rw [hid]
    rfl

/-- Another order of the selfies makes the same rows. -/
theorem matchedRows_perm (hfaces : (s.faces.map AssetFace.id).Nodup)
    (hroom : ∀ e ∈ es, Roomy distance config.maxDistance s participant.eventId e)
    (hone : OneNearest distance config s participant es) (hperm : es'.Perm es)
    (hm : m ∈ matchedRows distance config choice s participant es) :
    m ∈ matchedRows distance config choice s participant es' := by
  refine mem_matchedRows.mpr ((mem_matchedRows.mp hm).imp_right ?_)
  rintro ⟨hnew, b, hbest, rfl⟩
  have hroom' : ∀ e ∈ es', Roomy distance config.maxDistance s participant.eventId e :=
    fun e he => hroom e (hperm.subset he)
  have hone' : OneNearest distance config s participant es' := fun assetId hnew e he e' he' =>
    hone assetId hnew e (hperm.subset he) e' (hperm.subset he')
  obtain ⟨e, he, first, hfirst, hid⟩ := first_of_best hfaces hbest
  obtain ⟨f, v, hf, rfl⟩ := nearestFace_of_first (hroom e he) hfirst
  obtain ⟨b', hbest'⟩ :=
    best_of_shows choice hfaces (hroom e he) (hperm.mem_iff.mpr he) hf.shown hf.near
  obtain ⟨e', he', first', hfirst', hid'⟩ := first_of_best hfaces hbest'
  obtain ⟨g, w, hg, rfl⟩ := nearestFace_of_first (hroom' e' he') hfirst'
  have hface : g.id = f.id := by
    by_cases hsame : e' = e
    · subst hsame
      rw [hfirst] at hfirst'
      exact (congrArg FaceSearchResult.id (Option.some.inj hfirst')).symm
    · exact congrArg AssetFace.id (hone _ hnew e' (hperm.subset he') e he hsame g w f v hg hf)
  have hids : b'.id = b.id := hid'.symm.trans (hface.trans hid)
  have hdistance : b'.distance = b.distance := by
    obtain ⟨e₁, he₁, f₁, v₁, hshows₁, -, hattained⟩ := best_attained hfaces hbest
    obtain ⟨e₂, he₂, f₂, v₂, hshows₂, -, hattained'⟩ := best_attained hfaces hbest'
    refine le_antisymm ?_ ?_
    · rw [hattained]
      exact best_least hfaces hroom' hone' hnew hbest' (hperm.mem_iff.mpr he₁) hshows₁
    · rw [hattained']
      exact best_least hfaces hroom hone hnew hbest (hperm.subset he₂) hshows₂
  have hasset : b'.assetId = b.assetId := find?_asset hbest'
  refine ⟨hnew, b', hbest', ?_⟩
  simp only [rowFor, hids, hdistance, hasset]

/-- Where all that is found is matched already, nothing is inserted. -/
theorem matchedRows_again (hfaces : (s.faces.map AssetFace.id).Nodup)
    (hroom : ∀ e ∈ es, Roomy distance config.maxDistance s participant.eventId e)
    (hall : ∀ assetId, ∀ e ∈ es, ∀ f v, Shows s participant.eventId assetId f v →
      distance v e ≤ config.maxDistance → MatchedIn s.matchRows participant.id assetId) :
    matchedRows distance config choice s participant es = s.matchRows := by
  unfold matchedRows
  have hoffered : ∀ m ∈ offered distance config choice s participant es,
      s.matchRows.any (fun r => r.participantId = m.participantId ∧ r.assetId = m.assetId) =
        true := by
    intro m hm
    obtain ⟨b, hb, rfl⟩ := List.mem_map.mp hm
    obtain ⟨hit, hhit, -, hasset, -⟩ := (hits_bestOf hfaces).from_hits b hb
    obtain ⟨e, he, hfound⟩ := List.mem_flatMap.mp hhit
    obtain ⟨f, v, hshows, hnear, -⟩ := (mem_found_iff (hroom e he)).mp hfound
    obtain ⟨r, hr, hparticipant, hphoto⟩ := hall _ e he f v hshows hnear
    refine List.any_eq_true.mpr ⟨r, hr, decide_eq_true ⟨hparticipant, hphoto.trans hasset⟩⟩
  generalize offered distance config choice s participant es = inserts at hoffered ⊢
  induction inserts with
  | nil => rfl
  | cons m inserts ih =>
    have hsame : FaceStore.addMatch s.matchRows m = s.matchRows :=
      if_pos (hoffered m List.mem_cons_self)
    rw [List.foldl_cons, hsame]
    exact ih fun m hm => hoffered m (List.mem_cons_of_mem _ hm)

end Nearness

/-! Every order of the selfies. -/

/-- For every order of the selfies and of equal distances, the matching records the nearest
faces, the same ones as in the order given, and finds nothing new when it runs again. -/
def MatchesRight (distance : Embedding → Embedding → ℚ) (config : FacialRecognitionConfig)
    (s : FaceStore)
    (participant : Participant) : Prop :=
  ∀ choice selfies ω ω', Answering config choice ω → Answering config choice ω' →
    (embeddingsOf { s with selfies := selfies } participant).Perm (embeddingsOf s participant) →
    ∃ n s', outcome distance (matchParticipant participant) ω { s with selfies :=
      selfies } = (.ok n, s') ∧
      MatchesNearest distance config s participant (embeddingsOf s participant) s'.matchRows ∧
      (∀ m, m ∈ s'.matchRows ↔
        m ∈ (outcome distance (matchParticipant participant) ω' s).2.matchRows) ∧
      ∀ choice' ω'', Answering config choice' ω'' →
        (outcome distance (matchParticipant participant) ω'' s').1 = .ok 0 ∧
          (outcome distance (matchParticipant participant) ω'' s').2.matchRows = s'.matchRows

section Orders

variable {distance : Embedding → Embedding → ℚ} {config : FacialRecognitionConfig} {s : FaceStore}
  {participant : Participant}

/-- A matching that finds only photos that are matched inserts nothing. -/
theorem matchParticipant_again {choice : Embedding → List FaceSearchResult} {ω : FaceOracle}
    (hω : Answering config choice ω) (hfaces : (s.faces.map AssetFace.id).Nodup)
    (hthere : s.participants.any (fun p => p.id = participant.id) = true)
    (hroom : ∀ e ∈ embeddingsOf s participant,
    Roomy distance config.maxDistance s participant.eventId e)
    (hall : ∀ assetId, ∀ e ∈ embeddingsOf s participant, ∀ f v,
    Shows s participant.eventId assetId f v →
      distance v e ≤ config.maxDistance → MatchedIn s.matchRows participant.id assetId) :
    (outcome distance (matchParticipant participant) ω s).1 = .ok 0 ∧
      (outcome distance (matchParticipant participant) ω s).2.matchRows = s.matchRows := by
  obtain ⟨ps, -, hrun⟩ := matchParticipant_outcome distance hω hfaces hthere
  rw [hrun, matchedRows_again hfaces hroom hall, Nat.sub_self]
  exact ⟨rfl, rfl⟩

theorem matchesRight (hfaces : (s.faces.map AssetFace.id).Nodup)
    (hthere : s.participants.any (fun p => p.id = participant.id) = true)
    (hroom : ∀ e ∈ embeddingsOf s participant,
    Roomy distance config.maxDistance s participant.eventId e)
    (hone : OneNearest distance config s participant (embeddingsOf s participant)) :
    MatchesRight distance config s participant := by
  intro choice selfies ω ω' hω hω' hperm
  obtain ⟨ps, hps, hrun⟩ :=
    matchParticipant_outcome distance (s := { s with selfies := selfies }) hω hfaces hthere
  obtain ⟨ps', -, hgiven⟩ := matchParticipant_outcome distance hω' hfaces hthere
  have hroom' : ∀ e ∈ embeddingsOf { s with selfies := selfies } participant,
      Roomy distance config.maxDistance s participant.eventId e :=
        fun e he => hroom e (hperm.subset he)
  have hone' : OneNearest distance config s participant
      (embeddingsOf { s with selfies := selfies } participant) :=
    fun assetId hnew e he e' he' => hone assetId hnew e (hperm.subset he) e' (hperm.subset he')
  have hrows : matchedRows distance config choice { s with selfies := selfies } participant
      (embeddingsOf { s with selfies := selfies } participant) =
    matchedRows distance config choice s participant
      (embeddingsOf { s with selfies := selfies } participant) := rfl
  rw [hrows] at hrun
  have hnearest := matchesNearest choice hfaces hroom' hone'
  refine ⟨_, _, hrun, ⟨hnearest.kept, ?_, ?_⟩, ?_, ?_⟩
  · intro assetId
    simp only [← hperm.mem_iff]
    exact hnearest.photos assetId
  · intro m hm hnew
    simp only [← hperm.mem_iff]
    exact hnearest.nearest m hm hnew
  · intro m
    rw [hgiven]
    exact ⟨matchedRows_perm hfaces hroom' hone' hperm.symm,
      matchedRows_perm hfaces hroom hone hperm⟩
  · intro choice' ω'' hω''
    refine matchParticipant_again (s := { s with
      selfies := selfies
      matchRows := matchedRows distance config choice s participant
        (embeddingsOf { s with selfies := selfies } participant)
      participants := ps }) hω'' hfaces hps hroom' fun assetId e he f v hshows hnear => ?_
    exact (hnearest.photos assetId).mpr (.inr ⟨e, he, f, v,
      ⟨hshows.stored, hshows.live, hshows.photo, hshows.asset, hshows.embedded⟩, hnear⟩)

/-- The selfies of a participant, in this order. -/
def tableFor (participantId : ParticipantId) (es : List Embedding) : List ParticipantSelfie :=
  es.zipIdx.map fun p => { participantId := participantId, ordinal := p.2, embedding := some p.1 }

theorem embeddingsOf_tableFor {es : List Embedding} (hprimary : participant.selfieEmbedding ≠ none)
    (hes : es ≠ []) :
    embeddingsOf { s with selfies := tableFor participant.id es } participant = es := by
  have hall : (tableFor participant.id es).filter (fun row => row.participantId = participant.id) =
      tableFor participant.id es := by
    refine List.filter_eq_self.mpr fun row hrow => ?_
    obtain ⟨p, -, rfl⟩ := List.mem_map.mp hrow
    exact decide_eq_true rfl
  have hsorted : (tableFor participant.id es).Pairwise (fun a b => a.ordinal ≤ b.ordinal) := by
    refine List.pairwise_map.mpr (List.pairwise_iff_getElem.mpr fun i j hi hj hij => ?_)
    simp only [List.getElem_zipIdx]
    omega
  have hown :
    ({ s with selfies := tableFor participant.id es } : FaceStore).getSelfies participant.id =
      tableFor participant.id es := by
    unfold FaceStore.getSelfies
    rw [hall, hsorted.insertionSort_eq]
  have hes' : (tableFor participant.id es).filterMap ParticipantSelfie.embedding = es := by
    simp [tableFor, List.filterMap_map]
  obtain ⟨primary, hprimary⟩ := Option.ne_none_iff_exists'.mp hprimary
  rw [embeddingsOf, hprimary, hown, hes']
  simp [hes]

/-- The first selfie decides the face of a photo that it finds. -/
theorem best_first {choice : Embedding → List FaceSearchResult} {e : Embedding} {assetId : AssetId}
    {f : AssetFace} {v : Embedding} (rest : List Embedding)
    (hfaces : (s.faces.map AssetFace.id).Nodup)
    (hroom : Roomy distance config.maxDistance s participant.eventId e)
    (hf : NearestFace distance config s participant assetId e f v)
    (hchoice : choice e = [hitOn distance f v e]) :
    ∃ b, (best distance config choice s participant (e :: rest)).find?
    (fun b => b.assetId = assetId) =
      some b ∧ b.id = f.id := by
  have hmem :
    hitOn distance f v e ∈ found distance config.maxDistance s participant.eventId choice e := by
    have hphoto := hf.shown
    rw [← hf.shown.photo] at hphoto
    exact (mem_found_iff hroom).mpr ⟨f, v, hphoto, hf.near, rfl⟩
  have hfirst := found_first_eq hchoice hmem fun other hother hasset => by
    obtain ⟨g, w, hg, -, rfl⟩ := (mem_found_iff hroom).mp hother
    have hphoto : (hitOn distance g w e).assetId = assetId := hasset.trans hf.shown.photo
    rw [hphoto] at hg
    exact hf.least g w hg
  have hphoto : (hitOn distance f v e).assetId = assetId := hf.shown.photo
  rw [hphoto] at hfirst
  have hbest := find?_best distance config choice participant (e :: rest) hfaces assetId
  rw [List.findSome?_cons, hfirst, Option.map_some, Option.map_eq_some_iff] at hbest
  exact hbest

/-- A database that answers each search in its own order. -/
def searching (config : FacialRecognitionConfig) (choice : Embedding → List FaceSearchResult) :
    FaceOracle
  | _, .searchFaces options => .ok (choice options.embedding)
  | _, o => succeeding config ⟨0, 0, []⟩ o

theorem searching_answering (config : FacialRecognitionConfig)
    (choice : Embedding → List FaceSearchResult) :
    Answering config choice (searching config choice) where
  answers _ o := by cases o <;> exact ⟨_, rfl⟩
  settings _ _ := rfl
  choices _ _ := rfl

/-- With the same rows in every order, each selfie that finds a photo decides its face. -/
theorem best_of_right {choice : Embedding → List FaceSearchResult} {e : Embedding}
    {assetId : AssetId}
    {f : AssetFace} {v : Embedding} (hfaces : (s.faces.map AssetFace.id).Nodup)
    (hthere : s.participants.any (fun p => p.id = participant.id) = true)
    (hroom : Roomy distance config.maxDistance s participant.eventId e)
    (h : MatchesRight distance config s participant)
    (hnew : ¬ MatchedIn s.matchRows participant.id assetId)
    (he : e ∈ embeddingsOf s participant)
    (hf : NearestFace distance config s participant assetId e f v)
    (hchoice : choice e = [hitOn distance f v e]) :
    ∃ b, (best distance config choice s participant (embeddingsOf s participant)).find?
      (fun b => b.assetId = assetId) = some b ∧ b.id = f.id := by
  have hprimary : participant.selfieEmbedding ≠ none := by
    intro hnone
    simp [embeddingsOf, hnone] at he
  have horder :=
    embeddingsOf_tableFor (s :=
      s) hprimary (List.cons_ne_nil e ((embeddingsOf s participant).erase e))
  have hω := searching_answering config choice
  obtain ⟨n, s', hrun, -, hsame, -⟩ := h choice
    (tableFor participant.id (e :: (embeddingsOf s participant).erase e)) _ _ hω hω
    (by rw [horder]; exact (List.perm_cons_erase he).symm)
  obtain ⟨ps, -, hgiven⟩ := matchParticipant_outcome distance hω hfaces hthere
  obtain ⟨ps', -, hfirst⟩ := matchParticipant_outcome distance (s := { s with
    selfies :=
      tableFor participant.id (e :: (embeddingsOf s participant).erase e) }) hω hfaces hthere
  rw [horder] at hfirst
  have hs' : s' = _ := congrArg Prod.snd (hrun.symm.trans hfirst)
  obtain ⟨b, hbest, hid⟩ :=
    best_first ((embeddingsOf s participant).erase e) hfaces hroom hf hchoice
  have hasset : (rowFor participant b).assetId = assetId := find?_asset hbest
  have hrow : rowFor participant b ∈ s'.matchRows := by
    rw [hs']
    refine mem_matchedRows.mpr (.inr ?_)
    rw [hasset]
    exact ⟨hnew, b, hbest, rfl⟩
  have hmem := (hsame _).mp hrow
  rw [hgiven] at hmem
  rcases mem_matchedRows.mp hmem with hold | ⟨-, c, hc, heq⟩
  · exact absurd ⟨_, hold, rfl, hasset⟩ hnew
  · rw [hasset] at hc
    have hids : c.id = b.id := Option.some.inj (congrArg ParticipantMatch.viaFaceId heq)
    exact ⟨c, hc, hids.trans hid⟩

theorem oneNearest_of_right (hfaces : (s.faces.map AssetFace.id).Nodup)
    (hthere : s.participants.any (fun p => p.id = participant.id) = true)
    (hroom : ∀ e ∈ embeddingsOf s participant,
    Roomy distance config.maxDistance s participant.eventId e)
    (h : MatchesRight distance config s participant) :
    OneNearest distance config s participant (embeddingsOf s participant) := by
  intro assetId hnew e he e' he' hne f v g w hf hg
  let choice : Embedding → List FaceSearchResult := fun x =>
    if x = e then [hitOn distance f v e] else [hitOn distance g w e']
  have hchoice : choice e = [hitOn distance f v e] := if_pos rfl
  have hchoice' : choice e' = [hitOn distance g w e'] := if_neg (Ne.symm hne)
  obtain ⟨b, hb, hid⟩ := best_of_right hfaces hthere (hroom e he) h hnew he hf hchoice
  obtain ⟨b', hb', hid'⟩ := best_of_right hfaces hthere (hroom e' he') h hnew he' hg hchoice'
  rw [hb] at hb'
  have hids : f.id = g.id := by rw [← hid, ← hid', Option.some.inj hb']
  exact eq_of_id hfaces hf.shown.stored hg.shown.stored hids

/-- The matching records the nearest faces, in every order of the selfies, exactly where all
the selfies that find a new photo have one nearest face in it. -/
theorem matchesRight_iff (hfaces : (s.faces.map AssetFace.id).Nodup)
    (hthere : s.participants.any (fun p => p.id = participant.id) = true)
    (hroom : ∀ e ∈ embeddingsOf s participant,
    Roomy distance config.maxDistance s participant.eventId e) :
    MatchesRight distance config s participant ↔
      OneNearest distance config s participant (embeddingsOf s participant) :=
  ⟨oneNearest_of_right hfaces hthere hroom, matchesRight hfaces hthere hroom⟩

end Orders

/-! A photo with two faces, and a participant with two selfies. -/

def twoFaces : FaceStore where
  assets := [{ id := 0, eventId := 7, orgId := 3 }]
  faces := [{ id := 0, assetId := 0, imageHeight := 100, imageWidth := 100, boundingBox :=
    ⟨0, 0, 10, 10⟩ },
    { id := 1, assetId := 0, imageHeight := 100, imageWidth := 100, boundingBox :=
      ⟨50, 0, 60, 10⟩ }]
  searches := [{ faceId := 0, embedding := "a" }, { faceId := 1, embedding := "b" }]
  participants := [{ id := 5, eventId := 7, selfieEmbedding := some "x" }]
  selfies := [{ participantId := 5, ordinal := 0, embedding := some "x" },
    { participantId := 5, ordinal := 1, embedding := some "y" }]
  nextFace := 2

def guest : Participant where
  id := 5
  eventId := 7
  selfieEmbedding := some "x"

/-- The first selfie is near the first face, the second nearer to the other one. -/
def nearerLater (v e : Embedding) : ℚ :=
  if v = "a" ∧ e = "x" then 2 / 5 else if v = "b" ∧ e = "y" then 1 / 10 else 1

/-- Both selfies are near the first face only. -/
def bothNear (v _ : Embedding) : ℚ := if v = "a" then 2 / 5 else 1

theorem twoFaces_roomy (distance : Embedding → Embedding → ℚ) : ∀ e ∈ embeddingsOf twoFaces guest,
    Roomy distance (1 / 2) twoFaces guest.eventId e := by
  intro e _
  have hle : (hitsFor distance (1 / 2) twoFaces guest.eventId e).length ≤ twoFaces.faces.length :=
    List.length_filterMap_le _ _
  have hcount := List.countP_le_length (p := fun hit : FaceSearchResult => hit.distance ≤ 1 / 2)
    (l := hitsFor distance (1 / 2) twoFaces guest.eventId e)
  have htwo : twoFaces.faces.length = 2 := rfl
  have hmany : MATCH_NUM_RESULTS = 200 := rfl
  unfold Roomy
  omega

theorem twoFaces_keys : (twoFaces.faces.map AssetFace.id).Nodup := by decide

theorem matchesRight_bothNear : MatchesRight bothNear ⟨1 / 2, 1⟩ twoFaces guest := by
  have hfirst :
    ∀ assetId e f v, NearestFace bothNear ⟨1 / 2, 1⟩ twoFaces guest assetId e f v → f.id = 0 := by
    intro assetId e f v hf
    have hnear := hf.near
    have hembedded := hf.shown.embedded
    have hstored := hf.shown.stored
    simp only [twoFaces, List.mem_cons, List.not_mem_nil, or_false] at hstored
    rcases hstored with rfl | rfl
    · rfl
    · have hother : twoFaces.embedding 1 = some "b" := by decide
      have hv : v = "b" := Option.some.inj (hembedded.symm.trans hother)
      have hfar : bothNear v e = 1 := by
        rw [hv]
        exact if_neg (by decide)
      rw [hfar] at hnear
      norm_num at hnear
  have hone : OneNearest bothNear ⟨1 / 2, 1⟩ twoFaces guest (embeddingsOf twoFaces guest) := by
    intro assetId _ e _ e' _ _ f v g w hf hg
    exact eq_of_id twoFaces_keys hf.shown.stored hg.shown.stored
      ((hfirst _ _ _ _ hf).trans (hfirst _ _ _ _ hg).symm)
  have hthere : twoFaces.participants.any (fun p => p.id = guest.id) = true := by decide
  have hroom := twoFaces_roomy bothNear
  have hiff : MatchesRight bothNear ⟨1 / 2, 1⟩ twoFaces guest ↔
      OneNearest bothNear ⟨1 / 2, 1⟩ twoFaces guest (embeddingsOf twoFaces guest) :=
    matchesRight_iff twoFaces_keys hthere hroom
  exact hiff.mpr hone

/-- The first face is recorded, with its distance from the first selfie. -/
theorem not_matchesRight : ¬ ∀ distance config s participant, (s.faces.map AssetFace.id).Nodup →
    s.participants.any (fun p => p.id = participant.id) = true →
    (∀ e ∈ embeddingsOf s participant, Roomy distance config.maxDistance s participant.eventId e) →
    MatchesRight distance config s participant := by
  intro h
  have hright :=
    h nearerLater ⟨1 / 2, 1⟩ twoFaces guest twoFaces_keys (by decide) (twoFaces_roomy _)
  have hω := searching_answering ⟨1 / 2, 1⟩ fun _ => []
  obtain ⟨n, s', hrun, hnearest, -⟩ :=
    hright (fun _ => []) twoFaces.selfies _ _ hω hω (List.Perm.refl _)
  have hrows :
    (outcome nearerLater (matchParticipant guest)
      (searching ⟨1 / 2, 1⟩ fun _ => []) twoFaces).2.matchRows =
      [{ participantId := 5, assetId := 0, viaFaceId := some 0, distance := 2 / 5 }] := by
        decide +kernel
  have hs' : s' = _ := (congrArg Prod.snd hrun).symm
  have hrow :
    { participantId := 5, assetId := 0, viaFaceId := some 0, distance :=
    2 / 5 } ∈ s'.matchRows := by
    rw [hs']
    exact hrows ▸ List.mem_singleton_self _
  have hother : Shows twoFaces 7 0
      { id := 1, assetId := 0, imageHeight := 100, imageWidth := 100, boundingBox :=
        ⟨50, 0, 60, 10⟩ } "b" :=
    ⟨by decide, rfl, rfl, ⟨_, rfl, rfl, rfl⟩, by decide⟩
  obtain ⟨-, -, hleast⟩ := hnearest.nearest _ hrow (by decide)
  have hle := hleast "y" (by decide) _ _ hother
  have hnearer : nearerLater "b" "y" = 1 / 10 := by
    rw [nearerLater, if_neg (by decide), if_pos (by decide)]
  rw [hnearer] at hle
  norm_num at hle

end EventLens.Faces
