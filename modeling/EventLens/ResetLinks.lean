import EventLens.PasswordEviction

/-!
Reset links. A link is redeemed by a conditional update, so that it works once;
whoever changes a password, or sends a new link, first voids the links there
are. Two requests for a new link that overlap both void before either of them
issues, and leave two links that work.
-/

namespace EventLens.Auth

open Programs Contract

/-- Unused and not run out. -/
def ResetToken.live (now : ℕ) (t : ResetToken) : Bool := t.usedAt = none ∧ now < t.expiresAt

namespace PasswordStore

variable (s : PasswordStore)

def liveLinks (userId : String) : ℕ := s.tokens.countP (fun t => t.userId = userId ∧ t.live s.clock)

/-- A link works once, and those that were there when a password was changed or
a new link asked for do not work any more. -/
structure LinksSpent : Prop where
  once : s.redeemed.Nodup
  voided : ∀ change ∈ s.changed, ∀ v, change.voiding = some v →
    ∀ t ∈ s.tokens.take v.issued, t.userId = v.userId → ∀ now, (s.redeem t.token now).1 = none

/-- Besides, a user has one link at most. -/
structure SingleLink : Prop extends s.LinksSpent where
  single : ∀ userId, s.liveLinks userId ≤ 1

/-- Hashes of links are unique, a user has one link at most, and nothing is on
record. -/
structure FreshLinks : Prop where
  unique : (s.tokens.map ResetToken.token).Nodup
  single : ∀ userId, s.liveLinks userId ≤ 1
  redeemed : s.redeemed = []
  voidings : s.voidings = []
  changed : s.changed = []

end PasswordStore

/-- Since the call that issues a link voided the links of the user, no other
link of the user has been issued. -/
def NoneIssuedSince (p : PasswordPool) (t : PasswordThread) (e : PasswordEvent) : Prop :=
  match e.1 with
  | .createToken row =>
    ∀ v ∈ (t.notes recording fun _ => (none, none)).2,
      ∀ link ∈ p.state.tokens.drop v.issued, link.userId ≠ row.userId
  | _ => True

instance (p : PasswordPool) (t : PasswordThread) (e : PasswordEvent) :
    Decidable (NoneIssuedSince p t e) := by
  dsimp only [NoneIssuedSince]
  generalize e.1 = o
  cases o <;> dsimp only <;> infer_instance

/-! Statements on the links. -/

section Statements

variable {s : PasswordStore} {tokens : List ResetToken} {f : ResetToken → ResetToken}

/-- An update leaves a link what it is, and a used one used. -/
structure Ages (f : ResetToken → ResetToken) : Prop where
  token : ∀ t, (f t).token = t.token
  userId : ∀ t, (f t).userId = t.userId
  expiresAt : ∀ t, (f t).expiresAt = t.expiresAt
  usedAt : ∀ t, t.usedAt ≠ none → (f t).usedAt ≠ none

theorem ages_mark (p : ResetToken → Prop) [DecidablePred p] (now : ℕ) :
    Ages (fun t => if p t then { t with usedAt := some now } else t) := by
  refine ⟨fun t => ?_, fun t => ?_, fun t => ?_, fun t ht => ?_⟩
  · split <;> rfl
  · split <;> rfl
  · split <;> rfl
  · split
    · exact Option.some_ne_none now
    · exact ht

theorem live_aged (hf : Ages f) {now later : ℕ} (hlater : now ≤ later) {t : ResetToken}
    (h : (f t).live later = true) : t.live now = true := by
  obtain ⟨hunused, hlate⟩ := of_decide_eq_true h
  refine decide_eq_true ⟨by_contra fun hused => hf.usedAt t hused hunused, ?_⟩
  rw [hf.expiresAt] at hlate
  exact Nat.lt_of_le_of_lt hlater hlate

theorem liveLinks_aged (hf : Ages f) {s' : PasswordStore} (htokens : s'.tokens = s.tokens.map f)
    (hclock : s.clock ≤ s'.clock) (userId : String) : s'.liveLinks userId ≤ s.liveLinks userId := by
  rw [PasswordStore.liveLinks, PasswordStore.liveLinks, htokens, List.countP_map]
  refine List.countP_mono_left fun t _ ht => ?_
  obtain ⟨huser, hlive⟩ := of_decide_eq_true ht
  exact decide_eq_true ⟨hf.userId t ▸ huser, live_aged hf hclock hlive⟩

/-- A used link does not work, whatever the time. -/
theorem redeem_used (hunique : (s.tokens.map ResetToken.token).Nodup) {t : ResetToken}
    (ht : t ∈ s.tokens)
    (hused : t.usedAt ≠ none) (now : ℕ) : (s.redeem t.token now).1 = none := by
  have hnone : s.tokens.find? (PasswordStore.redeemable t.token now) = none := by
    refine List.find?_eq_none.mpr fun row hrow hredeem => hused ?_
    obtain ⟨htoken, hunused, -⟩ := of_decide_eq_true hredeem
    rw [← List.inj_on_of_nodup_map hunique hrow ht htoken]
    exact hunused
  rw [PasswordStore.redeem, hnone]

end Statements

/-! The invariant. -/

/-- A hash on record as redeemed is that of a used link; so is a link that was
there when the links of its user were voided. -/
structure Linked (S : Multiset Record) (s : PasswordStore) : Prop where
  unique : (s.tokens.map ResetToken.token).Nodup
  once : s.redeemed.Nodup
  known : ∀ hash ∈ s.redeemed, ∃ t ∈ s.tokens, t.token = hash ∧ t.usedAt ≠ none
  bounded : ∀ v ∈ s.voidings, v.issued ≤ s.tokens.length
  voided : ∀ v ∈ s.voidings, ∀ t ∈ s.tokens.take v.issued, t.userId = v.userId → t.usedAt ≠ none
  recorded : ∀ g ∈ S, ∀ v, g.2 = some v → v ∈ s.voidings
  changed : ∀ change ∈ s.changed, ∀ v, change.voiding = some v → v ∈ s.voidings

section Steps

variable {g : Record} {N S : Multiset Record} {s s' : PasswordStore} {f : ResetToken → ResetToken}

/-- An update of links that redeems none and voids none. -/
theorem Linked.aged (h : Linked S s) (hf : Ages f) (htokens : s'.tokens = s.tokens.map f)
    (hredeemed : s'.redeemed = s.redeemed) (hvoidings : s'.voidings = s.voidings)
    (hchanged : s'.changed = s.changed) : Linked S s' := by
  refine ⟨?_, ?_, fun hash hhash => ?_, fun v hv => ?_, fun v hv t ht huser => ?_, ?_, ?_⟩
  · have hsame : (s.tokens.map f).map ResetToken.token = s.tokens.map ResetToken.token := by
      rw [List.map_map]
      exact List.map_congr_left fun t _ => hf.token t
    rw [htokens, hsame]
    exact h.unique
  · rw [hredeemed]
    exact h.once
  · rw [hredeemed] at hhash
    obtain ⟨t, ht, htoken, hused⟩ := h.known hash hhash
    rw [htokens]
    exact ⟨f t, List.mem_map_of_mem ht, (hf.token t).trans htoken, hf.usedAt t hused⟩
  · rw [htokens, List.length_map]
    exact h.bounded v (hvoidings ▸ hv)
  · rw [htokens, ← List.map_take] at ht
    obtain ⟨t₀, ht₀, rfl⟩ := List.mem_map.mp ht
    exact hf.usedAt t₀ (h.voided v (hvoidings ▸ hv) t₀ ht₀ (hf.userId t₀ ▸ huser))
  · rw [hvoidings]
    exact h.recorded
  · rw [hchanged, hvoidings]
    exact h.changed

theorem Linked.redeem (h : Linked S s) (tokenHash : Digest) (now : ℕ) :
    Linked S (s.redeem tokenHash now).2 := by
  rw [PasswordStore.redeem]
  split
  · exact h
  · rename_i row hrow
    have hredeem : PasswordStore.redeemable tokenHash now row = true := List.find?_some hrow
    obtain ⟨htoken, hunused, -⟩ := of_decide_eq_true hredeem
    have hmem := List.mem_of_find?_eq_some hrow
    have hnew : tokenHash ∉ s.redeemed := by
      intro hin
      obtain ⟨t, ht, hhash, hused⟩ := h.known tokenHash hin
      exact hused (List.inj_on_of_nodup_map h.unique ht hmem (hhash.trans htoken.symm) ▸ hunused)
    let marked := s.tokens.map (fun t =>
      if PasswordStore.redeemable tokenHash now t then { t with usedAt := some now } else t)
    have haged : Linked S { s with tokens := marked } :=
      h.aged (ages_mark (fun t => PasswordStore.redeemable tokenHash now t = true) now) rfl
        rfl rfl rfl
    refine ⟨haged.unique, ?_, fun hash hhash => ?_, haged.bounded, haged.voided, haged.recorded,
      haged.changed⟩
    · exact List.nodup_append.mpr ⟨h.once, List.nodup_singleton _, fun a ha b hb hab =>
        hnew (List.mem_singleton.mp hb ▸ hab ▸ ha)⟩
    · rcases List.mem_append.mp hhash with hhash | hhash
      · exact haged.known hash hhash
      · obtain rfl := List.mem_singleton.mp hhash
        refine ⟨_, List.mem_map_of_mem hmem, ?_, ?_⟩
        · rw [if_pos hredeem]
          exact htoken
        · rw [if_pos hredeem]
          exact Option.some_ne_none now

/-- After a voiding all links of the user are used. -/
theorem Linked.invalidateForUser (h : Linked (g ::ₘ N) s) (userId : String) (now : ℕ) :
    Linked (g.note ⟨.invalidateForUser userId now, s.tokens.length⟩ ::ₘ N)
    (s.invalidateForUser userId now) := by
  let mark : ResetToken → ResetToken := fun t =>
    if t.userId = userId ∧ t.usedAt = none then { t with usedAt := some now } else t
  have haged : Linked (g ::ₘ N) { s with tokens := s.tokens.map mark } :=
    h.aged (ages_mark _ now) rfl rfl rfl rfl
  refine ⟨haged.unique, haged.once, haged.known, fun v hv => ?_, fun v hv t ht huser => ?_,
    fun g' hg' v hv => ?_, fun change hchange v hv => ?_⟩
  · rcases List.mem_append.mp hv with hv | hv
    · exact haged.bounded v hv
    · obtain rfl := List.mem_singleton.mp hv
      exact (List.length_map mark).ge
  · rcases List.mem_append.mp hv with hv | hv
    · exact haged.voided v hv t ht huser
    · obtain rfl := List.mem_singleton.mp hv
      obtain ⟨t₀, -, rfl⟩ := List.mem_map.mp (List.mem_of_mem_take ht)
      intro hunused
      by_cases hmark : t₀.userId = userId ∧ t₀.usedAt = none
      · rw [if_pos hmark] at hunused
        exact Option.some_ne_none now hunused
      · rw [if_neg hmark] at huser hunused
        exact hmark ⟨huser, hunused⟩
  · rcases Multiset.mem_cons.mp hg' with rfl | hg'
    · cases hv
      exact List.mem_append_right _ (List.mem_singleton_self _)
    · exact List.mem_append_left _ (h.recorded g' (Multiset.mem_cons_of_mem hg') v hv)
  · exact List.mem_append_left _ (h.changed change hchange v hv)

theorem Linked.createToken (h : Linked S s) (row : ResetToken) :
    Linked S (s.createToken row).2 := by
  rw [PasswordStore.createToken]
  split
  · exact h
  · rename_i hfresh
    have hnew : row.token ∉ s.tokens.map ResetToken.token := by
      intro hin
      obtain ⟨t, ht, htoken⟩ := List.mem_map.mp hin
      exact hfresh (List.any_eq_true.mpr ⟨t, ht, decide_eq_true htoken⟩)
    refine ⟨?_, h.once, fun hash hhash => ?_, fun v hv => ?_, fun v hv t ht => ?_, h.recorded,
      h.changed⟩
    · rw [List.map_append]
      exact List.nodup_append.mpr ⟨h.unique, List.nodup_singleton _, fun a ha b hb hab =>
        hnew (List.mem_singleton.mp hb ▸ hab ▸ ha)⟩
    · obtain ⟨t, ht, hrest⟩ := h.known hash hhash
      exact ⟨t, List.mem_append_left _ ht, hrest⟩
    · rw [List.length_append]
      exact Nat.le_add_right_of_le (h.bounded v hv)
    · rw [List.take_append_of_le_length (h.bounded v hv)] at ht
      exact h.voided v hv t ht

/-- Statements on other tables. -/
def PasswordOp.links : PasswordOp → Bool
  | .redeem _ _ | .invalidateForUser _ _ | .createToken _ => true
  | _ => false

theorem links_same {o : PasswordOp} (r : PasswordRes o) (ho : o.links = false) :
    (passwordHandler o r s).2.tokens = s.tokens ∧ s.clock ≤ (passwordHandler o r s).2.clock ∧
      (passwordHandler o r s).2.redeemed = s.redeemed ∧
      (passwordHandler o r s).2.voidings = s.voidings ∧
      (passwordHandler o r s).2.changed = s.changed := by
  cases o with
  | now => exact ⟨rfl, le_max_left _ _, rfl, rfl, rfl⟩
  | redeem tokenHash now => cases ho
  | invalidateForUser userId now => cases ho
  | createToken row => cases ho
  | _ => exact ⟨rfl, le_rfl, rfl, rfl, rfl⟩

theorem voiding_same {o : PasswordOp} {r : PasswordRes o}
    (ho : ∀ userId now, o ≠ .invalidateForUser userId now) :
    (g.note ⟨o, r⟩).2 = g.2 := by
  cases o with
  | invalidateForUser userId now => exact absurd rfl (ho userId now)
  | _ => rfl

/-- What a call has noted of the sessions does not matter here. -/
theorem Linked.noted {g' : Record} (h : Linked (g ::ₘ N) s) (hg : g'.2 = g.2) :
    Linked (g' ::ₘ N) s := by
  refine ⟨h.unique, h.once, h.known, h.bounded, h.voided, fun g₁ hg₁ v hv => ?_, h.changed⟩
  rcases Multiset.mem_cons.mp hg₁ with rfl | hg₁
  · exact h.recorded g (Multiset.mem_cons_self ..) v (hg ▸ hv)
  · exact h.recorded g₁ (Multiset.mem_cons_of_mem hg₁) v hv

theorem linked_perform (h : Linked (g ::ₘ N) s) (o : PasswordOp) (r : PasswordRes o) :
    Linked (g.note ⟨o, (passwordHandler o r s).1⟩ ::ₘ N) (passwordHandler o r s).2 := by
  cases ho : o.links with
  | false =>
    obtain ⟨htokens, -, hredeemed, hvoidings, hchanged⟩ := links_same (s := s) r ho
    have hkept : Linked (g ::ₘ N) (passwordHandler o r s).2 :=
      h.aged ⟨fun _ => rfl, fun _ => rfl, fun _ => rfl, fun _ hused => hused⟩
        (htokens.trans (List.map_id _).symm) hredeemed hvoidings hchanged
    refine hkept.noted (voiding_same fun userId now hop => ?_)
    subst hop
    cases ho
  | true =>
    cases o with
    | redeem tokenHash now => exact (h.redeem tokenHash now).noted rfl
    | invalidateForUser userId now => exact h.invalidateForUser userId now
    | createToken row => exact (h.createToken row).noted rfl
    | _ => cases ho

variable {compareBcrypt : String → String → Bool} {hashSha256 : String → Digest}
  {sessionTtlDays : ℕ}

theorem preserves_linked :
    Preserves (passwordServer compareBcrypt hashSha256 sessionTtlDays) (fun _ _ _ => True) recording
      (fun _ => (none, none)) (fun _ => Done) Linked where
  accept c N s s' h hs := by
    obtain rfl := accept_same hs
    refine ⟨h.unique, h.once, h.known, h.bounded, h.voided, fun g hg v hv => ?_, h.changed⟩
    rcases Multiset.mem_cons.mp hg with rfl | hg
    · cases hv
    · exact h.recorded g hg v hv
  perform p t N o r _ h _ _ := ⟨trivial, linked_perform h o r⟩
  release c value g again N s s' h hpost hs := by
    have hrecorded : ∀ g ∈ N, ∀ v, g.2 = some v → v ∈ s.voidings :=
      fun g hg v hv => h.recorded g (Multiset.mem_cons_of_mem hg) v hv
    obtain rfl | ⟨change, rfl, rfl⟩ := release_cases hs
    · exact ⟨h.unique, h.once, h.known, h.bounded, h.voided, hrecorded, h.changed⟩
    · refine ⟨h.unique, h.once, h.known, h.bounded, h.voided, hrecorded,
        fun change' hchange v hv => ?_⟩
      rcases List.mem_append.mp hchange with hchange | hchange
      · exact h.changed change' hchange v hv
      · cases List.mem_singleton.mp hchange
        exact h.recorded g (Multiset.mem_cons_self ..) v ((hpost change rfl).2 v hv)

/-! One link at most. -/

theorem single_createToken (h : ∀ userId, s.liveLinks userId ≤ 1) {row : ResetToken}
    (hnone : s.liveLinks row.userId = 0) (userId : String) :
    (s.createToken row).2.liveLinks userId ≤ 1 := by
  rw [PasswordStore.createToken]
  split
  · exact h userId
  · rw [PasswordStore.liveLinks, List.countP_append]
    change s.liveLinks userId + _ ≤ 1
    by_cases huser : row.userId = userId
    · rw [← huser, hnone]
      exact (Nat.zero_add _).le.trans List.countP_le_length
    · have hother : [row].countP (fun t => t.userId = userId ∧ t.live s.clock) = 0 :=
        List.countP_eq_zero.mpr fun t ht hlive =>
          huser (List.mem_singleton.mp ht ▸ (of_decide_eq_true hlive).1)
      exact (Nat.add_le_add_left hother.le _).trans (h userId)

/-- A link that was there when the links of the user were voided is used, so
that none works where none has been issued since. -/
theorem Linked.liveLinks_eq_zero (h : Linked S s) {v : Voiding} (hv : v ∈ s.voidings)
    (hnone : ∀ link ∈ s.tokens.drop v.issued, link.userId ≠ v.userId) :
    s.liveLinks v.userId = 0 := by
  refine List.countP_eq_zero.mpr fun t ht hlive => ?_
  obtain ⟨huser, hlive⟩ := of_decide_eq_true hlive
  rw [← List.take_append_drop v.issued s.tokens] at ht
  rcases List.mem_append.mp ht with hbefore | hsince
  · exact h.voided v hv t hbefore huser (of_decide_eq_true hlive).1
  · exact hnone t hsince huser

/-- The links are in order, and no user has two that work. -/
structure Single (S : Multiset Record) (s : PasswordStore) : Prop extends Linked S s where
  single : ∀ userId, s.liveLinks userId ≤ 1

theorem Single.perform {p : PasswordPool} {t : PasswordThread}
    (hnotes : g = t.notes recording fun _ => (none, none)) (h : Single (g ::ₘ N) p.state)
    (o : PasswordOp) (r : PasswordRes o) (ho : g.Issues o)
    (hnone : NoneIssuedSince p t ⟨o, (passwordHandler o r p.state).1⟩) (userId : String) :
    (passwordHandler o r p.state).2.liveLinks userId ≤ 1 := by
  cases hlinks : o.links with
  | false =>
    obtain ⟨htokens, hclock, -⟩ := links_same (s := p.state) r hlinks
    exact (liveLinks_aged ⟨fun _ => rfl, fun _ => rfl, fun _ => rfl, fun _ hused => hused⟩
      (htokens.trans (List.map_id _).symm) hclock userId).trans (h.single userId)
  | true =>
    cases o with
    | redeem tokenHash now =>
      simp only [passwordHandler, PasswordStore.redeem]
      split
      · exact h.single userId
      · have hages := ages_mark (fun t => PasswordStore.redeemable tokenHash now t = true) now
        refine (liveLinks_aged (s := p.state) hages ?_ ?_ userId).trans (h.single userId)
        · rfl
        · exact le_rfl
    | invalidateForUser user now =>
      have hages := ages_mark (fun t => t.userId = user ∧ t.usedAt = none) now
      refine (liveLinks_aged (s := p.state) hages ?_ ?_ userId).trans (h.single userId)
      · rfl
      · exact le_rfl
    | createToken row =>
      obtain ⟨v, hv, huser⟩ := ho
      have hvoided := h.recorded g (Multiset.mem_cons_self ..) v hv
      have hsince := hnone v (hnotes ▸ hv)
      rw [← huser] at hsince
      have hzero := h.liveLinks_eq_zero hvoided hsince
      exact single_createToken h.single (huser ▸ hzero) userId
    | _ => cases hlinks

theorem preserves_single :
    Preserves (passwordServer compareBcrypt hashSha256 sessionTtlDays) NoneIssuedSince recording
      (fun _ => (none, none)) (fun _ => Done) Single where
  accept c N s s' h hs :=
    ⟨preserves_linked.accept c N s s' h.toLinked hs, accept_same hs ▸ h.single⟩
  perform p t N o r hN h ho hnone :=
    ⟨trivial, linked_perform h.toLinked o r, h.perform rfl o r ho hnone⟩
  release c value g again N s s' h hpost hs := by
    refine ⟨preserves_linked.release c value g again N s s' h.toLinked hpost hs, ?_⟩
    obtain rfl | ⟨change, rfl, rfl⟩ := release_cases hs
    · exact h.single
    · exact h.single

theorem PasswordStore.FreshLinks.linked (h : s.FreshLinks) : Linked 0 s := by
  refine ⟨h.unique, ?_, fun hash hhash => ?_, fun v hv => ?_, fun v hv => ?_,
    fun g hg => absurd hg (Multiset.notMem_zero _), fun change hchange => ?_⟩
  · rw [h.redeemed]
    exact List.nodup_nil
  · exact absurd (h.redeemed ▸ hhash) List.not_mem_nil
  · exact absurd (h.voidings ▸ hv) List.not_mem_nil
  · exact absurd (h.voidings ▸ hv) List.not_mem_nil
  · exact absurd (h.changed ▸ hchange) List.not_mem_nil

theorem Linked.linksSpent (h : Linked S s) : s.LinksSpent := by
  refine ⟨h.once, fun change hchange v hv t ht huser now => ?_⟩
  have hvoided := h.changed change hchange v hv
  exact redeem_used h.unique (List.mem_of_mem_take ht) (h.voided v hvoided t ht huser) now

/-- In every run a link works once, and none that was there when a password was
changed or a new link asked for works after that. As long as no other call
issues a link between the voiding of a call and its own link, a user has one
at most. -/
theorem singleLink_noneIssuedSince {s : PasswordStore} (hfresh : s.FreshLinks) {p : PasswordPool}
    (h : (passwordServer compareBcrypt hashSha256 sessionTtlDays).Reaches (fun _ _ _ => True)
      ⟨[], s⟩ p) :
    p.state.LinksSpent ∧
      ((passwordServer compareBcrypt hashSha256 sessionTtlDays).Reaches NoneIssuedSince ⟨[], s⟩ p →
        p.state.SingleLink) := by
  obtain ⟨-, hlinked⟩ := h.invariant password_follows preserves_linked rfl hfresh.linked
  refine ⟨hlinked.linksSpent, fun halone => ?_⟩
  obtain ⟨-, hsingle⟩ :=
    halone.invariant password_follows preserves_single rfl ⟨hfresh.linked, hfresh.single⟩
  exact ⟨hlinked.linksSpent, hsingle.single⟩

end Steps

/-! Two new links asked for at once. -/

def owners : PasswordStore :=
  { accounts := [{ id := "ann", email := "ann@atelier", password := "old" }]
    members := [⟨"atelier", "ann", .admin⟩]
    tokens := [{ userId := "ann", token := "zero", expiresAt := 1 }] }

def annsLink (actorId : String) : Move PasswordCall PasswordOp PasswordRes :=
  .start (.resetMemberPassword "atelier" "ann" actorId)

def typing (token : String) : (o : PasswordOp) → PasswordRes o
  | .randomBytesAsText _ => token
  | o => willing o

/-- Both void the old link, then each issues its own. -/
def twoLinks : List (Move PasswordCall PasswordOp PasswordRes) :=
  annsLink "eve" :: annsLink "rob" :: moves 0 8 ++ moves 1 8 ++
    [.perform 0 (typing "one"), .perform 1 (typing "two")] ++ moves 0 3 ++ moves 1 3 ++
    [.leave 0 false, .leave 0 false]

theorem not_singleLink :
    ¬ ∀ compareBcrypt hashSha256 sessionTtlDays (s : PasswordStore) (p : PasswordPool),
    s.FreshLinks →
      (passwordServer compareBcrypt hashSha256 sessionTtlDays).Reaches (fun _ _ _ => True)
      ⟨[], s⟩ p →
      p.threads = [] → p.state.SingleLink := by
  intro h
  let p := (plainServer.play (fun _ _ _ => True) twoLinks ⟨[], owners⟩).get (by decide)
  have hreached : plainServer.Reaches (fun _ _ _ => True) ⟨[], owners⟩ p :=
    Server.Reaches.start.play twoLinks (Option.some_get _).symm
  have hempty : p.threads.length = 0 := by decide
  have hfresh : owners.FreshLinks :=
    ⟨by decide, fun userId => List.countP_le_length, rfl, rfl, rfl⟩
  have hlinks :=
    (h _ id 30 owners p hfresh hreached (List.length_eq_zero_iff.mp hempty)).single "ann"
  have hcount : p.state.liveLinks "ann" = 2 := by decide
  rw [hcount] at hlinks
  exact absurd hlinks (by decide)

/-- The second link is issued when the first has been redeemed. -/
def inTurnLinks : List (Move PasswordCall PasswordOp PasswordRes) :=
  annsLink "eve" :: moves 0 8 ++ .perform 0 (typing "one") :: moves 0 3 ++ .leave 0 false ::
    .start (.resetPassword ⟨"one", "new"⟩) :: moves 0 6 ++ .leave 0 false ::
    annsLink "rob" :: moves 0 8 ++ .perform 0 (typing "two") :: moves 0 3 ++ [.leave 0 false]

theorem singleLink_noneIssuedSince_ann :
    ∃ p, plainServer.play NoneIssuedSince inTurnLinks ⟨[], owners⟩ = some p ∧
      p.state.redeemed = ["one"] ∧ p.state.liveLinks "ann" = 1 ∧ p.state.SingleLink := by
  let p := (plainServer.play NoneIssuedSince inTurnLinks ⟨[], owners⟩).get (by decide)
  have hplay : plainServer.play NoneIssuedSince inTurnLinks ⟨[], owners⟩ = some p :=
    (Option.some_get _).symm
  have hreached := Server.Reaches.start.play inTurnLinks hplay
  have hfresh : owners.FreshLinks :=
    ⟨by decide, fun userId => List.countP_le_length, rfl, rfl, rfl⟩
  obtain ⟨-, hsingle⟩ :=
    singleLink_noneIssuedSince hfresh (hreached.mono fun _ _ _ _ => trivial)
  exact ⟨p, hplay, by decide, by decide, hsingle hreached⟩

end EventLens.Auth
