import EventLens.NamesFollow

/-!
One step after the other keeps the record of names: renames, submissions,
matching and clustering, each under its condition. When no submission waits for
its job any more, the record holds every act, and the latest is the one the
person carries.
-/

namespace EventLens.Names

open LastWrite

section Joining

variable {usable : String → Bool} {search : String → List ℕ} {s : NameStore} {n personId : ℕ}
  {face : AssetFace}

theorem faces_reassign {f' : AssetFace} (h : f' ∈ (s.reassignFaces face.id personId).faces) :
    ∃ f ∈ s.faces, f'.id = f.id ∧ f'.eventId = f.eventId ∧
      (f.id = face.id ∧ f'.personId = some personId ∨ f' = f) := by
  obtain ⟨f, hf, rfl⟩ := List.mem_map.mp h
  refine ⟨f, hf, ?_⟩
  split
  · rename_i hid
    exact ⟨rfl, rfl, .inl ⟨hid, rfl⟩⟩
  · exact ⟨rfl, rfl, .inr rfl⟩

theorem rows_reassign {m : ParticipantMatch} {k : ℕ}
    (h : m ∈ (s.reassignFaces face.id personId).rowsOn k) :
    m ∈ s.rowsOn k ∨ k = personId ∧ m ∈ s.rowsVia face.id := by
  obtain ⟨hm, f', hf', hvia, hperson⟩ := mem_rowsOn.mp h
  obtain ⟨f, hf, hid, -, ⟨hface, hnew⟩ | rfl⟩ := faces_reassign hf'
  · rw [hnew] at hperson
    cases hperson
    exact .inr ⟨rfl, List.mem_filter.mpr ⟨hm, decide_eq_true (hvia.symm.trans (hid.trans hface))⟩⟩
  · exact .inl (mem_rowsOn.mpr ⟨hm, f', hf, hvia, hperson⟩)

theorem tables_reassign (h : Tables usable search n s) (hface : face ∈ s.faces)
    (hperson : ∃ p ∈ s.persons, p.id = personId ∧ p.eventId = face.eventId) :
    Tables usable search n (s.reassignFaces face.id personId) := by
  refine { h with
    faces := nodup_reassign h.faces face.id personId
    clustered := fun f' hf' k hk => ?_
    claimed := fun m hm => ?_ }
  · obtain ⟨f, hf, -, hevent, ⟨hid, hnew⟩ | rfl⟩ := faces_reassign hf'
    · rw [hnew] at hk
      cases hk
      rw [hevent, List.inj_on_of_nodup_map h.faces hf hface hid]
      exact hperson
    · exact h.clustered f' hf k hk
  · obtain ⟨eventId, selfies, hact, f, hf, hvia, hevent, hhit⟩ := h.claimed m hm
    refine ⟨eventId, selfies, hact, _, List.mem_map_of_mem hf, ?_⟩
    split <;> exact ⟨hvia, hevent, hhit⟩

/-- A face joins a person, who is named then. -/
theorem carried_join (h : Tables usable search n s) (hs : Carried s) (hface : face ∈ s.faces)
    (hnone : face.personId = none)
    (hperson : ∃ p ∈ s.persons, p.id = personId ∧ p.eventId = face.eventId)
    (hjoins : s.JoinsInOrder face personId) :
    Carried ((s.reassignFaces face.id personId).nameFromParticipants face.eventId personId) := by
  obtain ⟨joined, hjoined, rfl, hevent⟩ := hperson
  obtain ⟨hcurrent, hordered⟩ := hjoins
  -- the one person whose rows change is the one the face joins
  have hperson : ∀ p ∈ s.persons, p.id = joined.id → p = joined := fun p hp hid =>
    List.inj_on_of_nodup_map h.persons hp hjoined hid
  have hentries :
    ∀ p ∈ s.persons, ∀ e ∈ (s.reassignFaces face.id joined.id).entriesOn p.eventId p.id,
      e ∈ s.entriesOn p.eventId p.id ∨ p = joined ∧
        e ∈ (s.rowsVia face.id).map ParticipantMatch.entry := by
    intro p hp e he
    rcases mem_entriesOn.mp he with hrename | ⟨m, hm, rfl⟩
    · exact .inl (mem_entriesOn.mpr (.inl hrename))
    · rcases rows_reassign hm with hm | ⟨hid, hm⟩
      · exact .inl (mem_entriesOn.mpr (.inr ⟨m, hm, rfl⟩))
      · exact .inr ⟨hperson p hp hid, List.mem_map_of_mem hm⟩
  have hnaming : Naming (s.reassignFaces face.id joined.id) := by
    refine ⟨fun p hp => ?_, fun p hp => ?_, hs.renamed, fun p hp m hm => ?_⟩
    · by_cases hsame : p = joined
      · subst hsame
        rw [← hevent] at hordered
        refine hordered.mono fun e he => List.mem_append.mpr ?_
        exact (hentries p hp e he).imp_right And.right
      · exact (hs.ordered p hp).mono fun e he =>
          (hentries p hp e he).resolve_right fun hother => hsame hother.1
    · refine (hs.held p hp).mono fun a ha => ?_
      obtain ⟨e, he, rfl⟩ := List.mem_map.mp ha
      refine List.mem_map_of_mem ?_
      rcases mem_entriesOn.mp he with hrename | ⟨m, hm, rfl⟩
      · exact mem_entriesOn.mpr (.inl hrename)
      · obtain ⟨hm, f, hf, hvia, hid⟩ := mem_rowsOn.mp hm
        refine mem_entriesOn.mpr (.inr ⟨m, mem_rowsOn.mpr ⟨hm, f, ?_, hvia, hid⟩, rfl⟩)
        refine List.mem_map.mpr ⟨f, hf, if_neg fun hsame => ?_⟩
        rw [List.inj_on_of_nodup_map h.faces hf hface hsame, hnone] at hid
        cases hid
    · rcases rows_reassign hm with hm | ⟨-, hm⟩
      · exact .inr (covers_rows h hs hp hm)
      · refine .inl fun q hq hid => ?_
        obtain ⟨-, q', hq', hid', hname⟩ := h.rows m (List.mem_filter.mp hm).1
        obtain rfl := List.inj_on_of_nodup_map h.participants hq hq' (hid.trans hid'.symm)
        exact hname (hcurrent m hm q hq hid).symm
  change Carried (NameStore.nameAll _ [(face.eventId, joined.id)])
  refine carried_nameAll hnaming fun p hp => ?_
  by_cases hid : p.id = joined.id
  · rw [hperson p hp hid, hevent]
    exact .inl (List.mem_singleton_self _)
  · refine .inr fun b hb => ?_
    obtain ⟨m, hm, q, hq, hkey, rfl⟩ := mem_claims_rows.mp hb
    rcases rows_reassign hm with hm | ⟨hsame, -⟩
    · exact hs.covered p hp _ (mem_claims_rows.mpr ⟨m, hm, q, hq, hkey, rfl⟩)
    · exact absurd hsame hid

theorem tables_createPerson (h : Tables usable search n s) (eventId : ℕ) :
    Tables usable search n (s.createPerson eventId) := by
  refine { h with persons := ?_, nextPerson := fun p hp => ?_, known :=
    fun e id name time hact => ?_,
                  clustered := fun f hf id hid => ?_ }
  · rw [NameStore.createPerson, List.map_append]
    refine List.nodup_append.mpr ⟨h.persons, List.nodup_singleton _, fun a ha b hb hab => ?_⟩
    obtain ⟨p, hp, rfl⟩ := List.mem_map.mp ha
    rw [List.mem_singleton.mp hb] at hab
    exact absurd hab (h.nextPerson p hp).ne
  · rcases List.mem_append.mp hp with hp | hp
    · exact Nat.lt_succ_of_lt (h.nextPerson p hp)
    · rw [List.mem_singleton.mp hp]
      exact Nat.lt_succ_self _
  · exact Nat.lt_succ_of_lt (h.known e id name time hact)
  · obtain ⟨p, hp, hkey⟩ := h.clustered f hf id hid
    exact ⟨p, List.mem_append_left _ hp, hkey⟩

/-- Nothing is on record for a new person. -/
theorem carried_createPerson (h : Tables usable search n s) (hs : Carried s) (eventId : ℕ) :
    Carried (s.createPerson eventId) := by
  have hrenames : s.renamesOn eventId s.nextPerson = [] := by
    refine List.eq_nil_iff_forall_not_mem.mpr fun a ha => ?_
    exact absurd (h.known _ _ _ _ (renames_past h.past ha).1) (Nat.lt_irrefl _)
  have hrows : s.rowsOn s.nextPerson = [] := by
    refine List.eq_nil_iff_forall_not_mem.mpr fun m hm => ?_
    obtain ⟨-, f, hf, -, hid⟩ := mem_rowsOn.mp hm
    obtain ⟨p, hp, hsame, -⟩ := h.clustered f hf _ hid
    exact absurd (h.nextPerson p hp) (hsame ▸ Nat.lt_irrefl _)
  have hentries : s.entriesOn eventId s.nextPerson = [] := by
    rw [NameStore.entriesOn, hrenames, hrows]
    rfl
  have hclaims : s.claimsOn s.nextPerson = [] := by
    refine List.eq_nil_iff_forall_not_mem.mpr fun c hc => ?_
    obtain ⟨m, hm, -⟩ := mem_claims_rows.mp hc
    rw [hrows] at hm
    cases hm
  refine ⟨fun p hp => ?_, fun p hp => ?_, fun p hp => ?_, fun p hp => ?_⟩
  · rcases List.mem_append.mp hp with hp | hp
    · exact hs.ordered p hp
    · rw [List.mem_singleton.mp hp]
      change InOrder (s.entriesOn eventId s.nextPerson)
      rw [hentries]
      exact fun a ha => absurd ha List.not_mem_nil
  · rcases List.mem_append.mp hp with hp | hp
    · exact hs.held p hp
    · rw [List.mem_singleton.mp hp]
      intro a ha
      cases ha
  · rcases List.mem_append.mp hp with hp | hp
    · exact hs.renamed p hp
    · rw [List.mem_singleton.mp hp]
      change Covers (s.renamesOn eventId s.nextPerson) _
      rw [hrenames]
      exact fun b hb => absurd hb List.not_mem_nil
  · rcases List.mem_append.mp hp with hp | hp
    · exact hs.covered p hp
    · rw [List.mem_singleton.mp hp]
      change Covers (s.claimsOn s.nextPerson) _
      rw [hclaims]
      exact fun b hb => absurd hb List.not_mem_nil

end Joining

section Matching

variable {usable : String → Bool} {search : String → List ℕ} {s : NameStore} {n : ℕ}
  {p : Participant}

theorem mem_hits {f : AssetFace} (h : f ∈ s.hits usable search p) :
    f ∈ s.faces ∧ f.eventId = p.eventId ∧ f.id ∈ NameStore.hitIds usable search p.selfies := by
  obtain ⟨id, hid, hfind⟩ := List.mem_filterMap.mp h
  have hkey := List.find?_some hfind
  obtain ⟨rfl, hevent⟩ := of_decide_eq_true hkey
  exact ⟨List.mem_of_find?_eq_some hfind, hevent, hid⟩

theorem hits_of_mem (hnodup : (s.faces.map AssetFace.id).Nodup) {f : AssetFace} (hf : f ∈ s.faces)
    (hevent : f.eventId = p.eventId) (hhit : f.id ∈ NameStore.hitIds usable search p.selfies) :
    f ∈ s.hits usable search p := by
  refine List.mem_filterMap.mpr ⟨f.id, hhit, ?_⟩
  cases hfind : s.faceIn p.eventId f.id with
  | none => exact absurd ⟨rfl, hevent⟩ (of_decide_eq_false (Bool.eq_false_of_not_eq_true
      (List.find?_eq_none.mp hfind f hf)))
  | some g =>
    have hkey := List.find?_some hfind
    rw [List.inj_on_of_nodup_map hnodup (List.mem_of_find?_eq_some hfind) hf
      (of_decide_eq_true hkey).1]

/-- A row after an insertion was there, or is new on a photo that had none. -/
theorem mem_insertMatches {inserts rows : List ParticipantMatch} {row : ParticipantMatch}
    (h : row ∈ inserts.foldl NameStore.insertMatch rows) :
    row ∈ rows ∨ row ∈ inserts ∧
      ∀ r ∈ rows, ¬ (r.participantId = row.participantId ∧ r.assetId = row.assetId) := by
  induction inserts generalizing rows with
  | nil => exact .inl h
  | cons m rest ih =>
    rcases ih h with hrow | ⟨hrest, hnone⟩
    · rw [NameStore.insertMatch] at hrow
      split at hrow
      · exact .inl hrow
      · rename_i hany
        rcases List.mem_append.mp hrow with hrow | hrow
        · exact .inl hrow
        · obtain rfl := List.mem_singleton.mp hrow
          exact .inr ⟨List.mem_cons_self, fun r hr hkey =>
            hany (List.any_eq_true.mpr ⟨r, hr, decide_eq_true hkey⟩)⟩
    · exact .inr ⟨List.mem_cons_of_mem _ hrest, fun r hr => hnone r (insertMatch_keeps rows m hr)⟩

theorem insertMatches_has {inserts rows : List ParticipantMatch} {m : ParticipantMatch}
    (h : m ∈ inserts) :
    ∃ row ∈ inserts.foldl NameStore.insertMatch rows,
      row.participantId = m.participantId ∧ row.assetId = m.assetId := by
  induction inserts generalizing rows with
  | nil => cases h
  | cons first rest ih =>
    rcases List.mem_cons.mp h with rfl | hrest
    · have hthere : ∃ row ∈ NameStore.insertMatch rows m,
          row.participantId = m.participantId ∧ row.assetId = m.assetId := by
        rw [NameStore.insertMatch]
        split
        · rename_i hany
          obtain ⟨row, hrow, hkey⟩ := List.any_eq_true.mp hany
          exact ⟨row, hrow, of_decide_eq_true hkey⟩
        · exact ⟨m, List.mem_append_right _ (List.mem_singleton_self _), rfl, rfl⟩
      obtain ⟨row, hrow, hkey⟩ := hthere
      exact ⟨row, insertMatches_keeps rest hrow, hkey⟩
    · exact ih hrest

/-- The match rows of a guest after its matches were inserted. -/
def NameStore.matched (usable : String → Bool) (search : String → List ℕ) (s : NameStore)
    (p : Participant) :
    NameStore :=
  s.insertMatches ((s.hits usable search p).map (NameStore.matchOf p s.clock))

theorem mem_matched {m : ParticipantMatch} (h : m ∈ (s.matched usable search p).matchRows) :
    m ∈ s.matchRows ∨ ∃ f ∈ s.hits usable search p, m = NameStore.matchOf p s.clock f ∧
      ∀ r ∈ s.matchRows, ¬ (r.participantId = p.id ∧ r.assetId = f.assetId) := by
  rcases mem_insertMatches h with hold | ⟨hnew, hnone⟩
  · exact .inl hold
  · obtain ⟨f, hf, rfl⟩ := List.mem_map.mp hnew
    exact .inr ⟨f, hf, rfl, hnone⟩

theorem tables_matched (h : Tables usable search n s) (hn : n < s.clock) (hp : p ∈ s.participants) :
    Tables usable search s.clock (s.matched usable search p) := by
  refine { h.mono hn.le with rows := fun m hm => ?_, claimed := fun m hm => ?_ }
  · rcases mem_matched hm with hm | ⟨f, hf, rfl, -⟩
    · exact (h.mono hn.le).rows m hm
    · exact ⟨le_rfl, p, hp, rfl, fun _ => rfl⟩
  · rcases mem_matched hm with hm | ⟨f, hf, rfl, -⟩
    · exact h.claimed m hm
    · obtain ⟨hface, hevent, hhit⟩ := mem_hits hf
      exact ⟨p.eventId, p.selfies, h.given p hp, f, hface, rfl, hevent, hhit⟩

/-- The new rows of a person are on faces that are near. -/
theorem rows_matched (h : Tables usable search n s) {m : ParticipantMatch} {k : ℕ}
    (hm : m ∈ (s.matched usable search p).rowsOn k) :
    m ∈ s.rowsOn k ∨ ∃ f ∈ s.hits usable search p, m = NameStore.matchOf p s.clock f ∧
    f.personId = some k ∧
      ∀ r ∈ s.matchRows, ¬ (r.participantId = p.id ∧ r.assetId = f.assetId) := by
  obtain ⟨hm, g, hg, hvia, hperson⟩ := mem_rowsOn.mp hm
  rcases mem_matched hm with hm | ⟨f, hf, rfl, hnone⟩
  · exact .inl (mem_rowsOn.mpr ⟨hm, g, hg, hvia, hperson⟩)
  · obtain rfl := List.inj_on_of_nodup_map h.faces hg (mem_hits hf).1 hvia
    exact .inr ⟨g, hf, rfl, hperson, hnone⟩

theorem naming_matched (h : Tables usable search n s) (hs : Carried s) (hn : n < s.clock)
    (hp : p ∈ s.participants) (htime : s.InTime usable search p) :
    Naming (s.matched usable search p) := by
  refine ⟨fun q hq => ?_, fun q hq => ?_, hs.renamed, fun q hq m hm => ?_⟩
  · have hentries : ∀ e ∈ (s.matched usable search p).entriesOn q.eventId q.id,
        e ∈ s.entriesOn q.eventId q.id ∨ e.actedAt = p.submittedAt ∧ e.recordedAt = s.clock := by
      intro e he
      rcases mem_entriesOn.mp he with hrename | ⟨m, hm, rfl⟩
      · exact .inl (mem_entriesOn.mpr (.inl hrename))
      · rcases rows_matched h hm with hm | ⟨f, -, rfl, -, -⟩
        · exact .inl (mem_entriesOn.mpr (.inr ⟨m, hm, rfl⟩))
        · exact .inr ⟨rfl, rfl⟩
    by_cases hnew : ∃ m ∈ (s.matched usable search p).rowsOn q.id, m ∉ s.rowsOn q.id
    · obtain ⟨m, hm, hnot⟩ := hnew
      obtain ⟨f, hf, -, hperson, hnone⟩ := (rows_matched h hm).resolve_left hnot
      obtain ⟨q', hq', hid, hevent⟩ := h.clustered f (mem_hits hf).1 q.id hperson
      obtain rfl := List.inj_on_of_nodup_map h.persons hq' hq hid
      refine (hs.ordered q' hq).extend (fun e he => ⟨?_, ?_⟩) hentries
      · refine htime f hf hnone q'.id hperson e ?_
        rw [← (mem_hits hf).2.1, ← hevent]
        exact he
      · exact Nat.lt_of_le_of_lt (entries_past h he).2 hn
    · have hkept : ∀ m ∈ (s.matched usable search p).rowsOn q.id, m ∈ s.rowsOn q.id :=
        fun m hm => by_contra fun hnot => hnew ⟨m, hm, hnot⟩
      exact (hs.ordered q hq).mono fun e he => entries_kept hkept rfl he
  · refine (hs.held q hq).mono fun a ha => ?_
    obtain ⟨e, he, rfl⟩ := List.mem_map.mp ha
    refine List.mem_map_of_mem ?_
    rcases mem_entriesOn.mp he with hrename | ⟨m, hm, rfl⟩
    · exact mem_entriesOn.mpr (.inl hrename)
    · obtain ⟨hm, hrest⟩ := mem_rowsOn.mp hm
      exact mem_entriesOn.mpr (.inr ⟨m, mem_rowsOn.mpr ⟨insertMatches_keeps _ hm, hrest⟩, rfl⟩)
  · rcases rows_matched h hm with hm | ⟨f, -, rfl, -, -⟩
    · exact .inr (covers_rows h hs hq hm)
    · refine .inl fun p' hp' hid => ?_
      rw [List.inj_on_of_nodup_map h.participants hp' hp hid]
      rfl

/-- Every face near a selfie is matched for the submission. -/
theorem handled_matched (h : Tables usable search n s) (hp : p ∈ s.participants)
    (hphotos : s.NewPhotos usable search p) :
    Handled usable search (s.matched usable search p) p.submission := by
  intro f hf hhit hevent
  have hfound := hits_of_mem h.faces hf hevent hhit
  obtain ⟨hown, hunmatched⟩ := hphotos
  obtain ⟨m, hm, hid, hasset⟩ :=
    insertMatches_has (List.mem_map_of_mem hfound)
  refine ⟨m, hm, hid, ?_⟩
  rcases mem_matched hm with hold | ⟨g, hg, rfl, -⟩
  · obtain ⟨hvia, htime⟩ := hunmatched f hfound m hold hid hasset
    obtain ⟨-, q, hq, hq', hname⟩ := h.rows m hold
    obtain rfl := List.inj_on_of_nodup_map h.participants hq hp (hq'.trans hid)
    exact ⟨hvia, htime, hname htime⟩
  · rw [hown f hfound g hg hasset.symm]
    exact ⟨rfl, rfl, rfl⟩

theorem matchParticipant_eq (hembedded : p.embedded = true) :
    s.matchParticipant usable search p =
      (s.matched usable search p).nameMatchedPerson p ((s.hits usable search p).map AssetFace.id) :=
  if_pos hembedded

/-- A matching names whoever it has new rows for. -/
theorem carried_match (h : Tables usable search n s) (hs : Carried s) (hn : n < s.clock)
    (hp : p ∈ s.participants) (hembedded : p.embedded = true) (htime : s.InTime usable search p) :
    Carried (s.matchParticipant usable search p) := by
  have hnaming := naming_matched h hs hn hp htime
  rw [matchParticipant_eq hembedded, NameStore.nameMatchedPerson]
  have hcovered : ∀ q ∈ s.persons, (∀ f ∈ s.hits usable search p, f.personId ≠ some q.id) →
      Covers ((s.matched usable search p).claimsOn q.id) q.cell := by
    intro q hq hnear b hb
    obtain ⟨m, hm, p', hp', hkey, rfl⟩ := mem_claims_rows.mp hb
    rcases rows_matched h hm with hm | ⟨f, hf, -, hperson, -⟩
    · exact hs.covered q hq _ (mem_claims_rows.mpr ⟨m, hm, p', hp', hkey, rfl⟩)
    · exact absurd hperson (hnear f hf)
  split
  · rename_i hnothing
    have hnone : s.hits usable search p = [] :=
      List.map_eq_nil_iff.mp (hnothing.resolve_left (h.named p hp).2)
    change Carried (NameStore.nameAll _ [])
    refine carried_nameAll hnaming fun q hq => .inr (hcovered q hq fun f hf => ?_)
    rw [hnone] at hf
    cases hf
  · refine carried_nameAll hnaming fun q hq => ?_
    by_cases hnear : ∃ f ∈ s.hits usable search p, f.personId = some q.id
    · obtain ⟨f, hf, hperson⟩ := hnear
      obtain ⟨hface, hevent, -⟩ := mem_hits hf
      obtain ⟨q', hq', hid, hsame⟩ := h.clustered f hface q.id hperson
      obtain rfl := List.inj_on_of_nodup_map h.persons hq' hq hid
      refine .inl (List.mem_map.mpr ⟨q', List.mem_filter.mpr ⟨hq, ?_⟩, ?_⟩)
      · exact List.any_eq_true.mpr ⟨f, hface, decide_eq_true ⟨List.mem_map_of_mem hf, hperson⟩⟩
      · rw [hsame, hevent]
    · exact .inr (hcovered q hq fun f hf hperson => hnear ⟨f, hf, hperson⟩)

/-- A matching changes match rows and persons only. -/
theorem match_same (usable : String → Bool) (search : String → List ℕ) (s : NameStore)
    (hembedded : p.embedded = true) :
    ∃ persons, s.matchParticipant usable search p = { s.matched usable search p with persons :=
    persons } := by
  rw [matchParticipant_eq hembedded, NameStore.nameMatchedPerson]
  split
  · exact ⟨_, rfl⟩
  · exact nameAll_same _ _

theorem tables_match (h : Tables usable search n s) (hn : n < s.clock) (hp : p ∈ s.participants)
    (hembedded : p.embedded = true) :
    Tables usable search s.clock (s.matchParticipant usable search p) := by
  rw [matchParticipant_eq hembedded, NameStore.nameMatchedPerson]
  split
  · exact tables_matched h hn hp
  · exact tables_nameAll (tables_matched h hn hp) _

end Matching

end EventLens.Names
