import EventLens.Interference
import EventLens.Keyset
import Mathlib.Data.Finset.Card

/-!
A walk over rows by pages, each of the first that are eligible behind the last
id of the page before. The rows and their eligibility may change from one page
to the next. Whatever they do, the walk goes up through the ids, so that it
takes none twice and ends where there are only so many; it takes what is
eligible at every page and nothing that is eligible at none.
-/

namespace KeysetWalks

variable {ι α : Type} [LinearOrder ι]

abbrev Behind : Option ι → ι → Prop := Keyset.BehindCursor id

/-- The page holds the first of what is eligible behind the cursor: what is not
on it comes later. -/
structure Serves (eligible : Set ι) (cursor : Option ι) (page : List ι) : Prop where
  ascending : page.Pairwise (· < ·)
  selected : ∀ i ∈ page, i ∈ eligible ∧ Behind cursor i
  first : ∀ i ∈ eligible, Behind cursor i → i ∈ page ∨ ∃ last ∈ page.getLast?, last < i

/-- The pages from a cursor on, with what was eligible at each fetch. -/
structure Exact (cursor : Option ι) (tables : List (Set ι)) (taken : List ι) (finished : Prop) :
    Prop where
  ascending : taken.Pairwise (· < ·)
  behind : ∀ i ∈ taken, Behind cursor i
  sound : ∀ i ∈ taken, ∃ eligible ∈ tables, i ∈ eligible
  complete : finished → ∀ i, Behind cursor i → (∀ eligible ∈ tables, i ∈ eligible) → i ∈ taken

/-- A whole walk: nothing is taken twice, nor at all if it is eligible at no
page, and in the end everything is taken that is eligible at each of them. -/
structure TakesEach (tables : List (Set ι)) (taken : List ι) (finished : Prop) : Prop where
  once : taken.Nodup
  every : finished → ∀ i, (∀ eligible ∈ tables, i ∈ eligible) → i ∈ taken
  no_other : ∀ i, (∀ eligible ∈ tables, i ∉ eligible) → i ∉ taken

/-- How many ids of a finite set are behind the cursor. -/
def remaining (ids : Finset ι) (cursor : Option ι) : ℕ :=
    (ids.filter (fun i => Behind cursor i)).card

variable {eligible : Set ι} {cursor : Option ι} {page taken : List ι} {tables : List (Set ι)}
  {finished : Prop}

theorem le_last_of_mem (h : page.Pairwise (· < ·)) {i last : ι} (hi : i ∈ page)
    (hlast : last ∈ page.getLast?) :
    i ≤ last := by
  obtain ⟨pre, rfl⟩ := List.getLast?_eq_some_iff.mp hlast
  rcases List.mem_append.mp hi with hi | hi
  · exact ((List.pairwise_append.mp h).2.2 i hi last (List.mem_singleton_self last)).le
  · exact (List.mem_singleton.mp hi).le

/-- A query by key, in the order of the keys, as it is cut into a page. -/
theorem serves_take {limit : ℕ} (hlimit : 1 ≤ limit) {rows : List α} {key : α → ι} {p : α → Bool}
    {q : α → Prop}
    (hkeys : (rows.map key).Nodup) (hp : ∀ r ∈ rows, p r = true ↔ q r ∧ Behind cursor (key r)) :
    Serves {i | ∃ r ∈ rows, key r = i ∧ q r} cursor
      ((((rows.filter p).map key).insertionSort (· ≤ ·)).take limit) := by
  have hmem : ∀ i, i ∈ ((rows.filter p).map key).insertionSort (· ≤ ·) ↔
      (∃ r ∈ rows, key r = i ∧ q r) ∧ Behind cursor i := by
    intro i
    rw [List.mem_insertionSort, List.mem_map]
    constructor
    · rintro ⟨r, hr, rfl⟩
      obtain ⟨hr, hok⟩ := List.mem_filter.mp hr
      obtain ⟨hq, hbehind⟩ := (hp r hr).mp hok
      exact ⟨⟨r, hr, rfl, hq⟩, hbehind⟩
    · rintro ⟨⟨r, hr, rfl, hq⟩, hbehind⟩
      exact ⟨r, List.mem_filter.mpr ⟨hr, (hp r hr).mpr ⟨hq, hbehind⟩⟩, rfl⟩
  have hsorted : (((rows.filter p).map key).insertionSort (· ≤ ·)).Pairwise (· < ·) := by
    have hle := List.pairwise_insertionSort (· ≤ ·) ((rows.filter p).map key)
    have hdistinct : (((rows.filter p).map key).insertionSort (· ≤ ·)).Nodup :=
      (List.perm_insertionSort _ _).nodup_iff.mpr (hkeys.sublist (List.filter_sublist.map _))
    exact (hle.and hdistinct).imp fun hij => lt_of_le_of_ne hij.1 hij.2
  generalize ((rows.filter p).map key).insertionSort (· ≤ ·) = sorted at hmem hsorted
  refine ⟨hsorted.sublist (List.take_sublist _ _),
    fun i hi => (hmem i).mp (List.mem_of_mem_take hi), ?_⟩
  intro i hi hbehind
  have hthere := (hmem i).mpr ⟨hi, hbehind⟩
  have hne : sorted.take limit ≠ [] := by
    intro hnil
    rcases List.take_eq_nil_iff.mp hnil with hzero | hnil
    · omega
    · exact List.ne_nil_of_mem hthere hnil
  rw [← List.take_append_drop limit sorted] at hthere hsorted
  rcases List.mem_append.mp hthere with hi | hi
  · exact .inl hi
  · refine .inr ⟨_, List.getLast?_eq_some_getLast hne, ?_⟩
    exact (List.pairwise_append.mp hsorted).2.2 _ (List.getLast_mem hne) i hi

theorem Exact.takesEach (h : Exact none tables taken finished) :
    TakesEach tables taken finished where
  once := h.ascending.imp fun hij => hij.ne
  every hfinished i hi := h.complete hfinished i (fun _ hlast => by cases hlast) hi
  no_other i hi htaken := by
    obtain ⟨eligible, htable, hin⟩ := h.sound i htaken
    exact hi eligible htable hin

theorem Exact.mono {finished' : Prop} (h : Exact cursor tables taken finished)
    (hfinished : finished' → finished) :
    Exact cursor tables taken finished' :=
  ⟨h.ascending, h.behind, h.sound, fun hends => h.complete (hfinished hends)⟩

/-- A walk that is cut off takes nothing more. -/
theorem exact_cut (cursor : Option ι) (tables : List (Set ι)) : Exact cursor tables [] False :=
  ⟨.nil, fun _ hi => absurd hi List.not_mem_nil, fun _ hi => absurd hi List.not_mem_nil, False.elim⟩

/-- The walk ends at a page without rows. -/
theorem exact_last (h : Serves eligible cursor []) : Exact cursor [eligible] [] True where
  ascending := .nil
  behind _ hi := absurd hi List.not_mem_nil
  sound _ hi := absurd hi List.not_mem_nil
  complete _ i hbehind hi := by
    rcases h.first i (hi _ List.mem_cons_self) hbehind with hmem | ⟨_, hlast, _⟩
    · exact hmem
    · cases hlast

/-- A page, and the walk from its last id on. -/
theorem Exact.next (h : Exact page.getLast? tables taken finished)
    (hserves : Serves eligible cursor page)
    (hpage : page ≠ []) : Exact cursor (eligible :: tables) (page ++ taken) finished := by
  obtain ⟨last, hlast⟩ : ∃ last, page.getLast? = some last :=
    ⟨_, List.getLast?_eq_some_getLast hpage⟩
  have hmem : last ∈ page := List.mem_of_getLast? hlast
  have habove : ∀ i ∈ page, ∀ j ∈ taken, i < j := fun i hi j hj =>
    (le_last_of_mem hserves.ascending hi hlast).trans_lt (h.behind j hj last hlast)
  refine ⟨List.pairwise_append.mpr ⟨hserves.ascending, h.ascending, habove⟩, fun i hi => ?_,
    fun i hi => ?_,
    fun hfinished i hbehind hi => ?_⟩
  · rcases List.mem_append.mp hi with hi | hi
    · exact (hserves.selected i hi).2
    · intro k hk
      exact ((hserves.selected last hmem).2 k hk).trans (habove last hmem i hi)
  · rcases List.mem_append.mp hi with hi | hi
    · exact ⟨eligible, List.mem_cons_self, (hserves.selected i hi).1⟩
    · obtain ⟨table, htable, hin⟩ := h.sound i hi
      exact ⟨table, List.mem_cons_of_mem _ htable, hin⟩
  · rcases hserves.first i (hi _ List.mem_cons_self) hbehind with hin | ⟨k, hk, hlater⟩
    · exact List.mem_append_left _ hin
    · refine List.mem_append_right _ (h.complete hfinished i (fun k' hk' => ?_)
        fun table htable => hi table (List.mem_cons_of_mem _ htable))
      rw [hk] at hk'
      cases hk'
      exact hlater

/-- Each page leaves fewer ids behind it. -/
theorem remaining_lt {ids : Finset ι} (hids : ∀ i ∈ eligible, i ∈ ids)
    (hserves : Serves eligible cursor page)
    (hpage : page ≠ []) : remaining ids page.getLast? < remaining ids cursor := by
  obtain ⟨last, hlast⟩ : ∃ last, page.getLast? = some last :=
    ⟨_, List.getLast?_eq_some_getLast hpage⟩
  have hmem := hserves.selected last (List.mem_of_getLast? hlast)
  refine Finset.card_lt_card ⟨fun i hi => ?_, fun hback => ?_⟩
  · obtain ⟨hin, hbehind⟩ := Finset.mem_filter.mp hi
    refine Finset.mem_filter.mpr ⟨hin, fun k hk => (hmem.2 k hk).trans (hbehind last hlast)⟩
  · have hself :=
      (Finset.mem_filter.mp (hback (Finset.mem_filter.mpr ⟨hids last hmem.1, hmem.2⟩))).2
    exact lt_irrefl last (hself last hlast)

theorem remaining_le (ids : Finset ι) (cursor : Option ι) : remaining ids cursor ≤ ids.card :=
  Finset.card_filter_le _ _

/-! The loop that walks. -/

section Loop

open Programs

variable {Op σ ε : Type} {Ans : Op → Type}

/-- A page is fetched and taken until one is empty; an error where the pages
allowed do not suffice. -/
def walkPages (fetch : Option ι → ExceptT ε (Prog Op (fun o => Except ε (Ans o))) (List ι))
    (take : List ι → ExceptT ε (Prog Op (fun o => Except ε (Ans o))) Unit) (unended : ε) :
    ℕ → Option ι → ExceptT ε (Prog Op (fun o => Except ε (Ans o))) Unit
  | 0, _ => throw unended
  | pages + 1, cursor => do
    let page ← fetch cursor
    if page = [] then pure ()
    else do
      take page
      walkPages fetch take unended pages page.getLast?

/-- What an operation on a state counts for: the rows eligible when a page was
fetched, and the ids taken. -/
structure Notes (ι σ Op : Type) (Res : Op → Type) where
  fetched : σ × Event Op Res → Option (Set ι)
  taken : σ × Event Op Res → List ι

variable {h : Handler Op (fun o => Except ε (Ans o)) σ}
  {N : Notes ι σ Op (fun o => Except ε (Ans o))} {valid : σ → Prop} {ids : Finset ι}
  {fetch : Option ι → ExceptT ε (Prog Op (fun o => Except ε (Ans o))) (List ι)}
  {take : List ι → ExceptT ε (Prog Op (fun o => Except ε (Ans o))) Unit} {unended : ε}

/-- A fetch returns a page of what is eligible, or fails. -/
structure Fetches (h : Handler Op (fun o => Except ε (Ans o)) σ)
    (N : Notes ι σ Op (fun o => Except ε (Ans o)))
    (valid : σ → Prop) (ids : Finset ι)
    (fetch : Option ι → ExceptT ε (Prog Op (fun o => Except ε (Ans o))) (List ι)) : Prop where
  page : ∀ {cursor seen page}, Amid h (fetch cursor).run seen (.ok page) →
    (∀ entry ∈ seen, valid entry.1) →
    ∃ eligible, seen.filterMap N.fetched = [eligible] ∧ seen.flatMap N.taken = [] ∧
      Serves eligible cursor page ∧ ∀ i ∈ eligible, i ∈ ids
  failed : ∀ {cursor seen e}, Amid h (fetch cursor).run seen (.error e) →
    seen.filterMap N.fetched = [] ∧ seen.flatMap N.taken = []
  returns : ∀ cursor, Returns h (fetch cursor)

structure Takes (h : Handler Op (fun o => Except ε (Ans o)) σ)
    (N : Notes ι σ Op (fun o => Except ε (Ans o)))
    (take : List ι → ExceptT ε (Prog Op (fun o => Except ε (Ans o))) Unit) : Prop where
  taken : ∀ {page seen value}, Amid h (take page).run seen value →
    seen.filterMap N.fetched = [] ∧ seen.flatMap N.taken = page
  returns : ∀ page, Returns h (take page)

/-- The walk is exact, and it ends by itself where the ids behind its cursor are
fewer than the pages allowed. -/
theorem walkPages_exact (hfetch : Fetches h N valid ids fetch) (htake : Takes h N take) (pages : ℕ)
    {cursor : Option ι} {seen : List (σ × Event Op (fun o => Except ε (Ans o)))}
    {value : Except ε Unit}
    (he : Amid h (walkPages fetch take unended pages cursor).run seen value)
    (hvalid : ∀ entry ∈ seen, valid entry.1) :
    Exact cursor (seen.filterMap N.fetched) (seen.flatMap N.taken) (value = .ok ()) ∧
      (remaining ids cursor < pages → (∀ entry ∈ seen, ∀ e, entry.2.2 ≠ .error e) →
      value = .ok ()) := by
  induction pages generalizing cursor seen with
  | zero =>
    obtain ⟨rfl, rfl⟩ := amid_done.mp he
    exact ⟨(exact_cut _ _).mono (fun hvalue => by
      cases hvalue), fun hpages => absurd hpages (Nat.not_lt_zero _)⟩
  | succ pages ih =>
    rcases amid_attempt he with ⟨first, page, rest, rfl, hfirst, hrest⟩ | ⟨e, rfl, hfirst⟩
    · obtain ⟨eligible, htable, hnothing, hserves, hids⟩ := hfetch.page hfirst
        fun entry hentry => hvalid entry (List.mem_append_left _ hentry)
      rw [List.filterMap_append, List.flatMap_append, htable, hnothing]
      split at hrest
      · rename_i hempty
        obtain ⟨rfl, rfl⟩ := amid_done.mp hrest
        exact ⟨(exact_last (hempty ▸ hserves)).mono fun _ => trivial, fun _ _ => rfl⟩
      · rename_i hpage
        rcases amid_attempt hrest with ⟨second, _, last, rfl, hsecond, hlast⟩ | ⟨e, rfl, hsecond⟩
        · obtain ⟨hnone, hall⟩ := htake.taken hsecond
          rw [List.filterMap_append, List.flatMap_append, hnone, hall]
          obtain ⟨hexact, hends⟩ := ih hlast fun entry hentry =>
            hvalid entry (List.mem_append_right _ (List.mem_append_right _ hentry))
          refine ⟨hexact.next hserves hpage, fun hpages hok => ?_⟩
          have hfewer := remaining_lt hids hserves hpage
          exact hends (by omega) fun entry hentry =>
            hok entry (List.mem_append_right _ (List.mem_append_right _ hentry))
        · obtain ⟨hnone, hall⟩ := htake.taken hsecond
          rw [hnone, hall, ← List.append_nil page]
          refine ⟨((exact_cut _ _).next hserves hpage).mono (fun hvalue => by
            cases hvalue), fun _ hok => ?_⟩
          obtain ⟨_, hvalue⟩ := htake.returns page _ _ hsecond fun entry hentry =>
            hok entry (List.mem_append_right _ hentry)
          cases hvalue
    · obtain ⟨hnone, hnothing⟩ := hfetch.failed hfirst
      rw [hnone, hnothing]
      refine ⟨(exact_cut _ _).mono (fun hvalue => by cases hvalue), fun _ hok => ?_⟩
      obtain ⟨_, hvalue⟩ := hfetch.returns cursor _ _ hfirst hok
      cases hvalue

/-- A part of a program that neither fetches nor takes. -/
structure Aside {α : Type} (h : Handler Op (fun o => Except ε (Ans o)) σ)
    (N : Notes ι σ Op (fun o => Except ε (Ans o)))
    (p : ExceptT ε (Prog Op (fun o => Except ε (Ans o))) α) : Prop where
  unnoted : ∀ {seen value}, Amid h p.run seen value →
    seen.filterMap N.fetched = [] ∧ seen.flatMap N.taken = []
  returns : Returns h p

omit [LinearOrder ι] in
theorem aside_pure {α : Type} (a : α) : Aside h N (pure a) := by
  refine ⟨fun he => ?_, returns_pure a⟩
  obtain ⟨rfl, -⟩ := amid_done.mp he
  exact ⟨rfl, rfl⟩

omit [LinearOrder ι] in
theorem Aside.bind {α β : Type} {p : ExceptT ε (Prog Op (fun o => Except ε (Ans o))) α}
    {f : α → ExceptT ε (Prog Op (fun o => Except ε (Ans o))) β} (hp : Aside h N p)
    (hf : ∀ a, Aside h N (f a)) :
    Aside h N (p >>= f) := by
  refine ⟨fun he => ?_, hp.returns.bind fun a => (hf a).returns⟩
  rcases amid_attempt he with ⟨first, a, rest, rfl, hfirst, hrest⟩ | ⟨e, rfl, hfirst⟩
  · obtain ⟨hnone, hnothing⟩ := hp.unnoted hfirst
    obtain ⟨hnone', hnothing'⟩ := (hf a).unnoted hrest
    rw [List.filterMap_append, List.flatMap_append, hnone, hnothing, hnone', hnothing']
    exact ⟨rfl, rfl⟩
  · exact hp.unnoted hfirst

omit [LinearOrder ι] in
theorem aside_call {o : Op} (hfetched : ∀ s r, N.fetched (s, ⟨o, r⟩) = none)
    (htaken : ∀ s r, N.taken (s, ⟨o, r⟩) = []) :
    Aside h N (ExceptT.mk (.perform o .done) : ExceptT ε (Prog Op (fun o => Except ε (Ans o)))
    (Ans o)) := by
  refine ⟨fun {seen value} he => ?_, returns_call o⟩
  obtain ⟨s, r, rfl, -⟩ := amid_call he
  rw [List.filterMap_cons_none (hfetched s value), List.flatMap_singleton, htaken]
  exact ⟨rfl, rfl⟩

/-- The program walks once, and it returns as long as no operation fails. -/
def WalksOnce {α : Type} (h : Handler Op (fun o => Except ε (Ans o)) σ)
    (N : Notes ι σ Op (fun o => Except ε (Ans o))) (valid : σ → Prop)
    (p : ExceptT ε (Prog Op (fun o => Except ε (Ans o))) α) : Prop :=
  ∀ seen value, Amid h p.run seen value → (∀ entry ∈ seen, valid entry.1) →
    TakesEach (seen.filterMap N.fetched) (seen.flatMap N.taken) (∃ a, value = .ok a) ∧
      ((∀ entry ∈ seen, ∀ e, entry.2.2 ≠ .error e) → ∃ a, value = .ok a)

theorem walksOnce_walkPages (hfetch : Fetches h N valid ids fetch) (htake : Takes h N take)
    {pages : ℕ}
    (hpages : ids.card < pages) :
    WalksOnce h N valid (walkPages fetch take unended pages none) := by
  intro seen value he hvalid
  obtain ⟨hexact, hends⟩ := walkPages_exact hfetch htake pages he hvalid
  refine ⟨(hexact.mono fun ⟨_, hvalue⟩ => hvalue).takesEach, fun hok => ⟨(), ?_⟩⟩
  exact hends (lt_of_le_of_lt (remaining_le ids none) hpages) hok

/-- What comes before the walk. -/
theorem WalksOnce.after {α β : Type} {p : ExceptT ε (Prog Op (fun o => Except ε (Ans o))) α}
    {f : α → ExceptT ε (Prog Op (fun o => Except ε (Ans o))) β} (hp : Aside h N p)
    (hf : ∀ a, WalksOnce h N valid (f a)) : WalksOnce h N valid (p >>= f) := by
  intro seen value he hvalid
  rcases amid_attempt he with ⟨first, a, rest, rfl, hfirst, hrest⟩ | ⟨e, rfl, hfirst⟩
  · obtain ⟨hnone, hnothing⟩ := hp.unnoted hfirst
    obtain ⟨htakes, hends⟩ :=
      hf a rest value hrest fun entry hentry => hvalid entry (List.mem_append_right _ hentry)
    rw [List.filterMap_append, List.flatMap_append, hnone, hnothing]
    exact ⟨htakes, fun hok => hends fun entry hentry => hok entry (List.mem_append_right _ hentry)⟩
  · obtain ⟨hnone, hnothing⟩ := hp.unnoted hfirst
    have hcut : ¬ ∃ b, (.error e : Except ε β) = .ok b := fun ⟨_, hvalue⟩ => by cases hvalue
    rw [hnone, hnothing]
    refine ⟨((exact_cut none []).mono hcut).takesEach, fun hok => ?_⟩
    obtain ⟨_, hvalue⟩ := hp.returns seen _ hfirst hok
    cases hvalue

omit [LinearOrder ι] in
/-- What comes after the walk. -/
theorem WalksOnce.before {α β : Type} {p : ExceptT ε (Prog Op (fun o => Except ε (Ans o))) α}
    {f : α → ExceptT ε (Prog Op (fun o => Except ε (Ans o))) β} (hp : WalksOnce h N valid p)
    (hf : ∀ a, Aside h N (f a)) : WalksOnce h N valid (p >>= f) := by
  intro seen value he hvalid
  rcases amid_attempt he with ⟨first, a, rest, rfl, hfirst, hrest⟩ | ⟨e, rfl, hfirst⟩
  · obtain ⟨htakes, -⟩ :=
      hp first _ hfirst fun entry hentry => hvalid entry (List.mem_append_left _ hentry)
    obtain ⟨hnone, hnothing⟩ := (hf a).unnoted hrest
    rw [List.filterMap_append, List.flatMap_append, hnone, hnothing, List.append_nil,
      List.append_nil]
    refine ⟨⟨htakes.once, fun _ => htakes.every ⟨a, rfl⟩, htakes.no_other⟩, fun hok => ?_⟩
    exact (hf a).returns rest value hrest fun entry hentry =>
      hok entry (List.mem_append_right _ hentry)
  · obtain ⟨htakes, hends⟩ := hp seen _ hfirst hvalid
    have hcut : ∀ {γ : Type}, ¬ ∃ c : γ, (.error e : Except ε γ) = .ok c := fun ⟨_, hvalue⟩ => by
      cases hvalue
    exact ⟨⟨htakes.once, fun hends => absurd hends hcut, htakes.no_other⟩,
      fun hok => absurd (hends hok) hcut⟩

end Loop

end KeysetWalks
