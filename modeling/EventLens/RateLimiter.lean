import Mathlib.Data.List.AList
import Mathlib.Algebra.Order.Group.Int
import EventLens.SlidingWindow

/-!
The in-memory rate limiter of the public selfie intake. The map holds, for each
key, the times of its accepted calls, pruned when the key is seen again; once
it has many keys, the ones with no recent time are dropped. What the map holds
for a key and what was accepted agree on every window that ends later, and so
the limiter decides as the sliding window does.
-/

namespace EventLens.Limits

open SlidingWindow

/-- Limit and window length of a limiter, and the accepted times of each key. -/
structure RateLimiter (κ : Type) where
  limit : ℕ
  windowMs : ℤ
  hits : AList (fun _ : κ => List ℤ)

section Source

variable {κ : Type} [DecidableEq κ]

def newLimiter (limit : ℕ) (windowMs : ℤ) : RateLimiter κ := { limit, windowMs, hits := ∅ }

/-- `this.hits.get(key) ?? []`. -/
def RateLimiter.timesOf (r : RateLimiter κ) (key : κ) : List ℤ := (r.hits.lookup key).getD []

/-- One turn of the clean-up loop, on one entry of the map. -/
def dropStale (cutoff : ℤ) (left : AList (fun _ : κ => List ℤ))
    (entry : Sigma (fun _ : κ => List ℤ)) :
    AList (fun _ : κ => List ℤ) :=
  if entry.2.all (· ≤ cutoff) then left.erase entry.1 else left

/-- The loop over the map that deletes the keys without a time after the cutoff. -/
def cleanUp (cutoff : ℤ) (hits : AList (fun _ : κ => List ℤ)) : AList (fun _ : κ => List ℤ) :=
  hits.entries.foldl (dropStale cutoff) hits

/-- `consume` at the time `now`, with the sizes of the map it is cleaned up at. -/
def RateLimiter.consumeWhen (tidy : ℕ → Bool) (r : RateLimiter κ) (key : κ) (now : ℤ) :
    Bool × RateLimiter κ :=
  let cutoff := now - r.windowMs
  let timestamps := (r.timesOf key).filter (cutoff < ·)
  if r.limit ≤ timestamps.length then
    (false, { r with hits := r.hits.insert key timestamps })
  else
    let hits := r.hits.insert key (timestamps ++ [now])
    (true, { r with hits := if tidy hits.entries.length then cleanUp cutoff hits else hits })

def RateLimiter.consume (r : RateLimiter κ) (key : κ) (now : ℤ) : Bool × RateLimiter κ :=
  r.consumeWhen (fun size => 10000 < size) key now

/-- A limiter and the calls it has accepted. -/
structure Served (κ : Type) where
  limiter : RateLimiter κ
  accepted : List (Call κ ℤ)

def Served.serve (tidy : ℕ → Bool) (s : Served κ) (c : Call κ ℤ) : Served κ :=
  let answer := s.limiter.consumeWhen tidy c.key c.time
  { limiter := answer.2, accepted := if answer.1 then s.accepted ++ [c] else s.accepted }

/-- A fresh limiter after some calls. -/
def servedWhen (tidy : ℕ → Bool) (limit : ℕ) (windowMs : ℤ) (calls : List (Call κ ℤ)) : Served κ :=
  calls.foldl (Served.serve tidy) { limiter := newLimiter limit windowMs, accepted := [] }

def served (limit : ℕ) (windowMs : ℤ) (calls : List (Call κ ℤ)) : Served κ :=
  servedWhen (fun size => 10000 < size) limit windowMs calls

/-- Whether a call is accepted after some others. -/
def accepts (limit : ℕ) (windowMs : ℤ) (calls : List (Call κ ℤ)) (c : Call κ ℤ) : Bool :=
  ((served limit windowMs calls).limiter.consume c.key c.time).1

end Source

section CleanUp

variable {κ : Type} [DecidableEq κ] {cutoff later : ℤ} {key : κ}

/-- The part of some times after a point. -/
def since (t : ℤ) (times : List ℤ) : List ℤ := times.filter (t < ·)

omit [DecidableEq κ] in
theorem since_since (h : cutoff ≤ later) (times : List ℤ) :
    since later (since cutoff times) = since later times := by
  rw [since, since, List.filter_filter]
  apply List.filter_congr
  intro t _
  rw [Bool.eq_iff_iff]
  simp only [Bool.and_eq_true, decide_eq_true_eq]
  omega

theorem since_of_all_le {times : List ℤ} (hall : times.all (· ≤ cutoff) = true)
    (h : cutoff ≤ later) :
    since later times = [] := by
  apply List.filter_eq_nil_iff.mpr
  intro t ht
  have := List.all_eq_true.mp hall t ht
  simp only [decide_eq_true_eq] at this ⊢
  omega

/-- A key dropped with the given times has none after the cutoff. -/
theorem dropStale_since (h : cutoff ≤ later) (left : AList (fun _ : κ => List ℤ))
    (entry : Sigma (fun _ : κ => List ℤ)) {times : List ℤ}
    (hentry : entry.1 = key → since later entry.2 = times)
    (hleft : since later ((left.lookup key).getD []) = times) :
    since later (((dropStale cutoff left entry).lookup key).getD []) = times := by
  unfold dropStale
  by_cases hold : entry.2.all (· ≤ cutoff) = true
  · rw [if_pos hold]
    by_cases hkey : key = entry.1
    · have hnone := since_of_all_le hold h
      rw [hentry hkey.symm] at hnone
      rw [hkey, AList.lookup_erase, hnone]
      rfl
    · rw [AList.lookup_erase_ne hkey]
      exact hleft
  · rw [if_neg hold]
    exact hleft

/-- Deleting keys without a recent time leaves every key's recent times as they are. -/
theorem cleanUp_since (h : cutoff ≤ later) (hits : AList (fun _ : κ => List ℤ)) (key : κ) :
    since later (((cleanUp cutoff hits).lookup key).getD []) =
    since later ((hits.lookup key).getD []) := by
  have hfold :
    ∀ (entries : List (Sigma (fun _ : κ => List ℤ))) (left : AList (fun _ : κ => List ℤ)),
      (∀ e ∈ entries, e ∈ hits.entries) →
      since later ((left.lookup key).getD []) = since later ((hits.lookup key).getD []) →
      since later (((entries.foldl (dropStale cutoff) left).lookup key).getD []) =
        since later ((hits.lookup key).getD []) := by
    intro entries
    induction entries with
    | nil => exact fun left _ hleft => hleft
    | cons e rest ih =>
      intro left hentries hleft
      refine ih _ (fun e' he' => hentries e' (List.mem_cons_of_mem e he'))
        (dropStale_since h left e ?_ hleft)
      rintro rfl
      have hlookup : hits.lookup e.1 = some e.2 :=
        AList.mem_lookup_iff.mpr (hentries e List.mem_cons_self)
      rw [hlookup]
      rfl
  exact hfold hits.entries hits (fun e he => he) rfl

end CleanUp

section Refinement

variable {κ : Type} [DecidableEq κ] {tidy : ℕ → Bool} {limit : ℕ} {windowMs : ℤ} {s : Served κ}
  {calls : List (Call κ ℤ)} {c : Call κ ℤ}

/-- The times of a key's calls that come after a point. -/
def callTimes (t : ℤ) (k : κ) (calls : List (Call κ ℤ)) : List ℤ :=
  since t ((calls.filter (fun c => c.key = k)).map Call.time)

theorem callTimes_snoc (t : ℤ) (k : κ) :
    callTimes t k (calls ++ [c]) = callTimes t k calls ++
    (if c.key = k then since t [c.time] else []) := by
  by_cases hkey : c.key = k <;> simp [callTimes, since, hkey]

/-- Among calls that are not later than `t`, the ones after the cutoff are those in its window. -/
theorem callTimes_length {t : ℤ} (hpast : ∀ a ∈ calls, a.time ≤ t) (k : κ) :
    (callTimes (t - windowMs) k calls).length = calls.countP (inWindow windowMs k t) := by
  rw [callTimes, since, ← List.countP_eq_length_filter, List.countP_map, List.countP_filter]
  apply List.countP_congr
  intro a ha
  have := hpast a ha
  simp only [Function.comp_apply, Bool.and_eq_true, decide_eq_true_eq, inWindow_iff]
  tauto

/-- The limiter has accepted what the window admits, and for every window that
starts no earlier than the last pruning the map holds just those calls. -/
structure Agrees (limit : ℕ) (windowMs : ℤ) (calls : List (Call κ ℤ)) (s : Served κ) : Prop where
  limit_eq : s.limiter.limit = limit
  window_eq : s.limiter.windowMs = windowMs
  accepted_eq : s.accepted = admitted limit windowMs calls
  times_eq : ∀ k t, (∀ a ∈ calls, a.time - windowMs ≤ t) →
    since t (s.limiter.timesOf k) = callTimes t k s.accepted

theorem newLimiter_agrees : Agrees limit windowMs []
    ({ limiter := newLimiter limit windowMs, accepted := [] } : Served κ) where
  limit_eq := rfl
  window_eq := rfl
  accepted_eq := rfl
  times_eq := fun _ _ _ => rfl

theorem Agrees.recent (h : Agrees limit windowMs calls s) (hlast : ∀ a ∈ calls, a.time ≤ c.time) :
    since (c.time - windowMs)
    (s.limiter.timesOf c.key) = callTimes (c.time - windowMs) c.key s.accepted := by
  apply h.times_eq
  intro a ha
  have := hlast a ha
  omega

/-- The limiter's recent times of the call's key are as many as the window counts. -/
theorem Agrees.count (h : Agrees limit windowMs calls s) (hlast : ∀ a ∈ calls, a.time ≤ c.time) :
    (since (c.time - windowMs) (s.limiter.timesOf c.key)).length =
      (admitted limit windowMs calls).countP (inWindow windowMs c.key c.time) := by
  have hpast : ∀ a ∈ admitted limit windowMs calls, a.time ≤ c.time :=
    fun a ha => hlast a ((admitted_sublist calls).subset ha)
  rw [h.recent hlast, h.accepted_eq, callTimes_length hpast]

theorem consumeWhen_full {r : RateLimiter κ} {key : κ} {now : ℤ}
    (hfull : r.limit ≤ (since (now - r.windowMs) (r.timesOf key)).length) :
    r.consumeWhen tidy key now =
      (false, { r with hits := r.hits.insert key (since (now - r.windowMs) (r.timesOf key)) }) :=
  if_pos hfull

theorem consumeWhen_free (tidy : ℕ → Bool) {r : RateLimiter κ} {key : κ} {now : ℤ}
    (hfree : ¬ r.limit ≤ (since (now - r.windowMs) (r.timesOf key)).length) :
    ∃ r', r.consumeWhen tidy key now = (true, r') ∧ r'.limit = r.limit ∧ r'.windowMs = r.windowMs ∧
      ∀ k t, now - r.windowMs ≤ t → since t (r'.timesOf k) = since t
        (((r.hits.insert key (since (now - r.windowMs) (r.timesOf key) ++ [now])).lookup k).getD
        []) := by
  refine ⟨_, if_neg hfree, rfl, rfl, ?_⟩
  intro k t ht
  unfold RateLimiter.timesOf
  by_cases htidy :
      tidy (r.hits.insert key
        ((r.timesOf key).filter (now - r.windowMs < ·) ++ [now])).entries.length
  · simp only [RateLimiter.timesOf] at htidy
    simp only [htidy, if_true]
    exact cleanUp_since ht _ k
  · simp only [RateLimiter.timesOf] at htidy
    simp only [htidy]
    rfl

/-- The limiter answers as the window does. -/
theorem Agrees.answer (h : Agrees limit windowMs calls s) (tidy : ℕ → Bool)
    (hlast : ∀ a ∈ calls, a.time ≤ c.time) :
    (s.limiter.consumeWhen tidy c.key c.time).1 =
      admits limit windowMs (admitted limit windowMs calls) c := by
  rw [admits, ← h.count hlast]
  by_cases hfull :
    s.limiter.limit ≤ (since (c.time - s.limiter.windowMs) (s.limiter.timesOf c.key)).length
  · rw [consumeWhen_full hfull]
    rw [h.limit_eq, h.window_eq] at hfull
    simp [hfull]
  · obtain ⟨r', hanswer, -⟩ := consumeWhen_free tidy hfull
    rw [hanswer]
    rw [h.limit_eq, h.window_eq] at hfull
    simpa using hfull

/-- One call keeps the map in agreement with the window. -/
theorem Agrees.serve (h : Agrees limit windowMs calls s) (hlast : ∀ a ∈ calls, a.time ≤ c.time) :
    Agrees limit windowMs (calls ++ [c]) (s.serve tidy c) := by
  have hanswer := h.answer tidy hlast
  have hlater : ∀ t, (∀ a ∈ calls ++ [c], a.time - windowMs ≤ t) →
      c.time - windowMs ≤ t ∧ ∀ a ∈ calls, a.time - windowMs ≤ t := by
    intro t ht
    exact ⟨ht c (by simp), fun a ha => ht a (List.mem_append_left [c] ha)⟩
  have hw := h.window_eq
  subst hw
  by_cases hfull :
    s.limiter.limit ≤ (since (c.time - s.limiter.windowMs) (s.limiter.timesOf c.key)).length
  · rw [consumeWhen_full hfull] at hanswer
    have hserve : s.serve tidy c = { s with limiter := { s.limiter with
        hits := s.limiter.hits.insert c.key
          (since (c.time - s.limiter.windowMs) (s.limiter.timesOf c.key)) } } := by
      simp only [Served.serve, consumeWhen_full hfull, Bool.false_eq_true, if_false]
    rw [hserve]
    refine ⟨h.limit_eq, rfl, ?_, ?_⟩
    · rw [admitted_snoc, received, ← hanswer]
      exact h.accepted_eq
    · intro k t ht
      obtain ⟨hc, hcalls⟩ := hlater t ht
      rw [← h.times_eq k t hcalls]
      by_cases hkey : k = c.key
      · subst hkey
        simp only [RateLimiter.timesOf, AList.lookup_insert, Option.getD_some]
        exact since_since hc _
      · simp only [RateLimiter.timesOf, AList.lookup_insert_ne hkey]
  · obtain ⟨r', hr', hlimit, hwindow, htimes⟩ := consumeWhen_free tidy hfull
    rw [hr'] at hanswer
    have hserve : s.serve tidy c = { limiter := r', accepted := s.accepted ++ [c] } := by
      simp only [Served.serve, hr', if_true]
    rw [hserve]
    refine ⟨hlimit.trans h.limit_eq, hwindow, ?_, ?_⟩
    · rw [admitted_snoc, received, ← hanswer, h.accepted_eq]
      rfl
    · intro k t ht
      obtain ⟨hc, hcalls⟩ := hlater t ht
      rw [htimes k t hc, callTimes_snoc, ← h.times_eq k t hcalls]
      by_cases hkey : k = c.key
      · subst hkey
        rw [AList.lookup_insert, Option.getD_some, if_pos rfl, since, List.filter_append]
        exact congrArg (· ++ _) (since_since hc _)
      · rw [AList.lookup_insert_ne hkey, if_neg (Ne.symm hkey), List.append_nil]
        rfl

theorem servedWhen_snoc :
    servedWhen tidy limit windowMs (calls ++ [c]) =
    (servedWhen tidy limit windowMs calls).serve tidy c := by
  simp only [servedWhen, List.foldl_append, List.foldl_cons, List.foldl_nil]

/-- Whatever the clean-up, the limiter accepts what the window admits. -/
theorem servedWhen_agrees (htimed : Timed calls) :
    Agrees limit windowMs calls (servedWhen tidy limit windowMs calls) := by
  induction calls using List.reverseRecOn with
  | nil => exact newLimiter_agrees
  | append_singleton calls c ih =>
    obtain ⟨htimed, hlast⟩ := timed_snoc.mp htimed
    rw [servedWhen_snoc]
    exact (ih htimed).serve hlast

theorem accepts_eq (htimed : Timed (calls ++ [c])) :
    accepts limit windowMs calls c = admits limit windowMs (admitted limit windowMs calls) c := by
  obtain ⟨htimed, hlast⟩ := timed_snoc.mp htimed
  exact (servedWhen_agrees htimed).answer _ hlast

end Refinement

section Exactness

variable {κ : Type} [DecidableEq κ]

theorem countP_inWindow (windowMs : ℤ) (k : κ) (t : ℤ) (calls : List (Call κ ℤ)) :
    calls.countP (fun a => a.key = k ∧ t - windowMs < a.time ∧ a.time ≤ t) =
      calls.countP (inWindow windowMs k t) := by
  apply List.countP_congr
  intro a _
  rw [inWindow_iff, decide_eq_true_iff]

/-- A call is accepted when fewer than the limit were in the window before it.
So no window holds more, and neither the refused calls nor other keys nor the
clean-up of the map have any influence. -/
theorem rate_limiter_exact (limit : ℕ) (windowMs : ℤ) (calls : List (Call κ ℤ)) (c : Call κ ℤ)
    (htimed : Timed (calls ++ [c])) :
    (accepts limit windowMs calls c = true ↔
        (served limit windowMs calls).accepted.countP
          (fun a => a.key = c.key ∧ c.time - windowMs < a.time ∧ a.time ≤ c.time) < limit) ∧
      (∀ k t, (served limit windowMs (calls ++ [c])).accepted.countP
          (fun a => a.key = k ∧ t - windowMs < a.time ∧ a.time ≤ t) ≤ limit) ∧
      accepts limit windowMs (served limit windowMs calls).accepted c =
      accepts limit windowMs calls c ∧
      accepts limit windowMs (calls.filter (fun a => a.key = c.key)) c =
      accepts limit windowMs calls c ∧
      ∀ tidy, ((servedWhen tidy limit windowMs calls).limiter.consumeWhen tidy c.key c.time).1 =
        accepts limit windowMs calls c := by
  obtain ⟨hcalls, hlast⟩ := timed_snoc.mp htimed
  have haccepted : (served limit windowMs calls).accepted = admitted limit windowMs calls :=
    (servedWhen_agrees hcalls).accepted_eq
  rw [haccepted, accepts_eq htimed]
  refine ⟨?_, ?_, ?_, ?_, ?_⟩
  · rw [countP_inWindow, admits, decide_eq_true_iff]
  · intro k t
    rw [countP_inWindow, show (served limit windowMs (calls ++ [c])).accepted = _ from
      (servedWhen_agrees htimed).accepted_eq]
    exact countP_admitted_le htimed k t
  · have hsub : Timed (admitted limit windowMs calls ++ [c]) :=
      htimed.sublist ((admitted_sublist calls).append_right [c])
    rw [accepts_eq hsub, admitted_admitted]
  · have hsub : Timed (calls.filter (fun a => a.key = c.key) ++ [c]) :=
      htimed.sublist (List.filter_sublist.append_right [c])
    rw [accepts_eq hsub, ← admitted_filter, admits_filter]
  · intro tidy
    exact (servedWhen_agrees hcalls).answer tidy hlast

/-- Five selfies in an hour and a sixth one a minute later. -/
theorem rate_limiter_exact_sixth :
    let calls : List (Call String ℤ) :=
      [⟨"ip:a", 0⟩, ⟨"ip:a", 1⟩, ⟨"ip:a", 2⟩, ⟨"ip:b", 2⟩, ⟨"ip:a", 3⟩, ⟨"ip:a", 4⟩]
    let c : Call String ℤ := ⟨"ip:a", 60000⟩
    (accepts 5 3600000 calls c = true ↔
        (served 5 3600000 calls).accepted.countP
          (fun a => a.key = c.key ∧ c.time - 3600000 < a.time ∧ a.time ≤ c.time) < 5) ∧
      (∀ k t, (served 5 3600000 (calls ++ [c])).accepted.countP
          (fun a => a.key = k ∧ t - 3600000 < a.time ∧ a.time ≤ t) ≤ 5) ∧
      accepts 5 3600000 (served 5 3600000 calls).accepted c = accepts 5 3600000 calls c ∧
      accepts 5 3600000 (calls.filter (fun a => a.key = c.key)) c = accepts 5 3600000 calls c ∧
      ∀ tidy, ((servedWhen tidy 5 3600000 calls).limiter.consumeWhen tidy c.key c.time).1 =
        accepts 5 3600000 calls c := by
  intro calls c
  apply rate_limiter_exact
  simp [Timed, calls, c]

end Exactness

end EventLens.Limits
