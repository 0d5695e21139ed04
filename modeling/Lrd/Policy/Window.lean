import Lrd.Foundation.SlidingWindow
import Lrd.Policy.ItemLog
import Mathlib.Tactic.FieldSimp
import Mathlib.Tactic.Ring

/-!
# The frequency limit

The store's window counters are a two-counter sliding window
(`Foundation.SlidingWindow`). When an item's reservations visit the windows in
order, an aligned window holds at most `frequency_limit` shows, however the
estimate is rounded (`ItemLog.aligned`). In exact arithmetic both counters are right
about the item's log (`ItemLog.counts`), so an interval as long as the window holds
at most `L + L * (W - 2) / W` shows.
-/

namespace Lrd.Policy

open Foundation Common Rank SlidingWindow

/-- The window counters of an entry, without their bounds. -/
def Entry.counters (entry : Entry) : Counters :=
  ⟨entry.windowIndex.toNat, entry.current.toNat, entry.previous.toNat⟩

/-- The reservation does not fall in an earlier window than the entry stands in. -/
def InOrder (config : PolicyConfig) (entry : Entry) (nowMs : UInt64) : Prop :=
  entry.windowIndex.toNat ≤ nowMs.toNat / config.windowMs.toNat

instance (config : PolicyConfig) (entry : Entry) (nowMs : UInt64) :
    Decidable (InOrder config entry nowMs) :=
  inferInstanceAs (Decidable (_ ≤ _))

/-- The lifetime cap refuses the item, and the window is not looked at. -/
def Capped (config : PolicyConfig) (entry : Entry) : Prop :=
  0 < config.exposureCap ∧ config.exposureCap ≤ entry.lifetimeShows

instance (config : PolicyConfig) (entry : Entry) : Decidable (Capped config entry) :=
  inferInstanceAs (Decidable (_ ∧ _))

/-- The next window of a later call is no matter of the counters' width. -/
theorem eq_succ_iff {earlier later : UInt64} (ordered : earlier.toNat ≤ later.toNat) :
    later = earlier + 1 ↔ later.toNat = earlier.toNat + 1 := by
  rw [← UInt64.toNat_inj, UInt64.toNat_add]
  have bound := later.toNat_lt
  change later.toNat = (earlier.toNat + 1) % 2 ^ 64 ↔ _
  omega

variable {entry : Entry} {log : List (UInt64 × Decision)} {condition : Entry → UInt64 → Prop}
  {nowMs : UInt64} {state : Option Entry}

/-- An entry that moves forward does what the abstract counters do. -/
theorem advance_counters {index : UInt64} (later : entry.windowIndex.toNat ≤ index.toNat) :
    (entry.advance index).counters = entry.counters.advance index.toNat := by
  have next := eq_succ_iff later
  have standing : entry.counters.index = entry.windowIndex.toNat := rfl
  rw [Entry.advance, Counters.advance, standing]
  by_cases following : index = entry.windowIndex + 1
  · rw [if_pos following, if_pos (next.mp following)]
    rfl
  · rw [if_neg following, if_neg (fun same => following (next.mpr same))]
    by_cases same : index = entry.windowIndex
    · rw [if_neg (fun different => different same),
        if_neg (fun different => different (congrArg UInt64.toNat same))]
    · rw [if_pos same, if_pos (fun equal => same (UInt64.toNat.inj equal))]
      rfl

/-- A signed integer and its cast to unsigned differ by a multiple of `2 ^ 64`. -/
theorem toInt_eq (x : Int64) :
    x.toInt = if 2 * x.toUInt64.toNat < 2 ^ 64 then (x.toUInt64.toNat : Int)
      else x.toUInt64.toNat - 2 ^ 64 :=
  BitVec.toInt_eq_toNat_cond x.toBitVec

/-- The length of a window is positive. -/
theorem windowMs_pos {config : PolicyConfig} (windowed : 0 < config.frequencyWindow) :
    0 < config.windowMs.toNat := by
  have positive := Int64.lt_iff_toInt_lt.mp windowed
  rw [toInt_eq config.frequencyWindow] at positive
  change (0 : Int) < _ at positive
  change 0 < config.frequencyWindow.toUInt64.toNat
  have bound := config.frequencyWindow.toUInt64.toNat_lt
  omega

section Judge

variable (D : Type) [Scalar D] {config : PolicyConfig}

/-- The estimate a show is judged by, over counters of the right window. -/
def decayed (config : PolicyConfig) (entry : Entry) (nowMs : UInt64) : D :=
  Scalar.ofNat entry.previous.toNat * (Scalar.ofNat 1 -
    Scalar.ofNat (nowMs % config.windowMs).toNat / Scalar.ofNat config.windowMs.toNat) +
      Scalar.ofNat entry.current.toNat

/-- A window has a length. -/
theorem windowMs_ne_zero (windowed : 0 < config.frequencyWindow) : config.windowMs ≠ 0 := by
  intro zero
  have positive := windowMs_pos windowed
  rw [zero] at positive
  exact absurd positive (Nat.lt_irrefl 0)

/-- Below the lifetime cap the decayed count decides. -/
theorem judge_decayed (limited : 0 < config.frequencyLimit)
    (windowed : 0 < config.frequencyWindow) (entry : Entry) (nowMs : UInt64)
    (below : ¬ (0 < config.exposureCap ∧ config.exposureCap ≤ entry.lifetimeShows)) :
    let rolled := entry.advance (nowMs / config.windowMs)
    (Scalar.lt (Scalar.ofNat config.frequencyLimit.toNat)
        (decayed D config rolled nowMs + Scalar.ofNat 1) = false ∧
      judge D config entry nowMs = (.allowed, { rolled with
        current := rolled.current + 1, lifetimeShows := entry.lifetimeShows + 1 })) ∨
    (Scalar.lt (Scalar.ofNat config.frequencyLimit.toNat)
        (decayed D config rolled nowMs + Scalar.ofNat 1) = true ∧
      judge D config entry nowMs = (.frequencyLimited, rolled)) := by
  intro rolled
  have estimated : advanceAndEstimate D config entry nowMs =
      (decayed D config rolled nowMs, rolled) := by
    rw [advanceAndEstimate, if_neg (windowMs_ne_zero windowed)]
    rfl
  rcases judge_cases D config entry nowMs with
    ⟨_, capped⟩ | ⟨_, _, exceeds, same⟩ | ⟨_, _, exceeds, same⟩ | ⟨_, unlimited, _⟩
  · exact absurd capped below
  · rw [estimated] at exceeds same
    exact Or.inr ⟨exceeds, same⟩
  · rw [estimated] at exceeds same
    exact Or.inl ⟨exceeds, same⟩
  · rw [unlimited] at limited
    exact absurd limited (by decide)

end Judge

/-- The admissions an item's log records. -/
def shows (log : List (UInt64 × Decision)) : List Nat :=
  log.filterMap fun event => if event.2 = .allowed then some event.1.toNat else none

/-- The shows after one more reservation. -/
theorem shows_snoc (log : List (UInt64 × Decision)) (nowMs : UInt64) (decision : Decision) :
    shows (log ++ [(nowMs, decision)]) =
      shows log ++ if decision = .allowed then [nowMs.toNat] else [] := by
  rw [shows, List.filterMap_append]
  by_cases allowed : decision = .allowed
  · simp [shows, allowed]
  · simp [shows, allowed]

/-- Where nothing was allowed nothing was shown. -/
theorem shows_eq_nil (none : allowedIn log = 0) :
    shows log = [] := by
  rw [allowedIn, List.countP_eq_zero] at none
  rw [shows, List.filterMap_eq_nil_iff]
  intro event member
  have refused := none event member
  rw [decide_eq_true_eq] at refused
  exact if_neg refused

/-! ## Aligned windows -/

section Aligned

variable {D : Type} [FloatScalar D] {config : PolicyConfig}

/-- What a judgement does to the counters when the windows are visited in order. -/
theorem judge_counters (limited : 0 < config.frequencyLimit) (windowed : 0 < config.frequencyWindow)
    (inOrder : InOrder config entry nowMs) :
    let advanced := entry.counters.advance (nowMs.toNat / config.windowMs.toNat)
    ((judge D config entry nowMs).1 = .allowed ∧
      advanced.current + 1 ≤ config.frequencyLimit.toNat ∧
      (judge D config entry nowMs).2.counters =
        { advanced with current := advanced.current + 1 }) ∨
    ((judge D config entry nowMs).1 ≠ .allowed ∧
      ((judge D config entry nowMs).2.counters = advanced ∨
        (judge D config entry nowMs).2.counters = entry.counters)) := by
  intro advanced
  have quotient : (nowMs / config.windowMs).toNat = nowMs.toNat / config.windowMs.toNat :=
    UInt64.toNat_div ..
  have rolled : (entry.advance (nowMs / config.windowMs)).counters = advanced := by
    rw [advance_counters, quotient]
    rw [quotient]
    exact inOrder
  by_cases capped : 0 < config.exposureCap ∧ config.exposureCap ≤ entry.lifetimeShows
  · have same : judge D config entry nowMs = (.exposureCapReached, entry) := if_pos capped
    rw [same]
    exact Or.inr ⟨by simp, Or.inr rfl⟩
  · rcases judge_decayed D limited windowed entry nowMs capped with ⟨within, same⟩ | ⟨_, same⟩
    · rw [same, ← rolled]
      have below : (entry.advance (nowMs / config.windowMs)).current.toNat + 1 ≤
          config.frequencyLimit.toNat := by
        by_contra reached
        have small := (entry.advance (nowMs / config.windowMs)).current.toNat_lt
        have earlier := (entry.advance (nowMs / config.windowMs)).previous.toNat_lt
        have exceeds : Scalar.lt (Scalar.ofNat config.frequencyLimit.toNat)
            (decayed D config (entry.advance (nowMs / config.windowMs)) nowMs +
              Scalar.ofNat 1) = true :=
          FloatScalar.lt_decayed (remainder_lt (windowMs_ne_zero windowed))
            config.windowMs.toNat_lt (by omega) (by omega) (by omega)
        rw [within] at exceeds
        cases exceeds
      have counted : ((entry.advance (nowMs / config.windowMs)).current + 1).toNat =
          (entry.advance (nowMs / config.windowMs)).current.toNat + 1 := by
        have bound := config.frequencyLimit.toNat_lt
        rw [UInt32.toNat_add]
        change (_ + 1) % 2 ^ 32 = _
        omega
      refine Or.inl ⟨rfl, below, ?_⟩
      simp only [Entry.counters, counted]
    · rw [same]
      exact Or.inr ⟨by simp, Or.inl rolled⟩

/-- The counters stand in the window they were moved to. -/
theorem advance_index (counters : Counters) (index : Nat) :
    (counters.advance index).index = index := by
  unfold Counters.advance
  split
  · rfl
  · split
    · rfl
    · rename_i same
      exact (not_not.mp same).symm

/-- One judgement keeps the current counter right and the log within the limit. -/
theorem judge_aligned (limited : 0 < config.frequencyLimit) (windowed : 0 < config.frequencyWindow)
    {log : List Nat}
    (aligned : Aligned config.frequencyLimit.toNat config.windowMs.toNat log entry.counters)
    (orderly : Capped config entry ∨ InOrder config entry nowMs) :
    Aligned config.frequencyLimit.toNat config.windowMs.toNat
      (log ++ if (judge D config entry nowMs).1 = .allowed then [nowMs.toNat] else [])
      (judge D config entry nowMs).2.counters := by
  rcases orderly with capped | inOrder
  · have same : judge D config entry nowMs = (.exposureCapReached, entry) := if_pos capped
    rw [same, if_neg (by simp), List.append_nil]
    exact aligned
  · rcases judge_counters (D := D) limited windowed inOrder with
      ⟨allowed, below, after⟩ | ⟨refused, after | after⟩
    · rw [if_pos allowed, after]
      exact (aligned.advance inOrder).grant (advance_index ..).symm below
    · rw [if_neg refused, List.append_nil, after]
      exact aligned.advance inOrder
    · rw [if_neg refused, List.append_nil, after]
      exact aligned

/-- New counters stand in the window of now. -/
theorem fresh_inOrder (config : PolicyConfig) (nowMs : UInt64) :
    InOrder config (ExposureStore.freshEntry config nowMs) nowMs := by
  rw [InOrder, ExposureStore.freshEntry]
  split
  · exact (UInt64.toNat_div ..).le
  · exact Nat.zero_le _

/-- When the windows that are looked at are visited in order, every aligned window of the log
keeps to the limit. -/
theorem ItemLog.aligned
    (orderly : ∀ {entry nowMs}, condition entry nowMs →
      Capped config entry ∨ InOrder config entry nowMs) (limited : 0 < config.frequencyLimit)
    (windowed : 0 < config.frequencyWindow) (logged : ItemLog D config condition log (some entry)) :
    Aligned config.frequencyLimit.toNat config.windowMs.toNat (shows log) entry.counters := by
  induction logged using ItemLog.trackedInduction with
  | first nowMs before =>
      rw [shows_snoc, shows_eq_nil before.untracked]
      exact judge_aligned limited windowed (Aligned.start _) (Or.inr (fresh_inOrder config nowMs))
  | again nowMs _ meets ih =>
      rw [shows_snoc]
      exact judge_aligned limited windowed ih (orderly meets)

/-- The limit in every aligned window, whether or not the item is tracked. -/
theorem ItemLog.inWindow_le
    (orderly : ∀ {entry nowMs}, condition entry nowMs →
      Capped config entry ∨ InOrder config entry nowMs) (limited : 0 < config.frequencyLimit)
    (windowed : 0 < config.frequencyWindow) (logged : ItemLog D config condition log state)
    (index : Nat) :
    inWindow config.windowMs.toNat (shows log) index ≤ config.frequencyLimit.toNat := by
  cases state with
  | none =>
      rw [shows_eq_nil logged.untracked]
      exact Nat.zero_le _
  | some entry => exact (logged.aligned orderly limited windowed).limited index

end Aligned

/-! ## Intervals, in exact arithmetic -/

section Exact

variable {D : Type} [ExactScalar D] {config : PolicyConfig}

/-- The estimate over the counters of the right window, cleared of the division. -/
theorem estimate_le_iff (window offset previous current limit : Nat) (inside : offset < window) :
    (previous : D) * (1 - offset / window) + current + 1 ≤ limit ↔
      previous * (window - offset) + (current + 1) * window ≤ limit * window := by
  have positive : (0 : D) < window := by
    exact_mod_cast (Nat.zero_le offset).trans_lt inside
  have scaled : ((previous : D) * (1 - offset / window) + current + 1) * window =
      ((previous * (window - offset) + (current + 1) * window : Nat) : D) := by
    rw [Nat.cast_add, Nat.cast_mul, Nat.cast_sub inside.le, Nat.cast_mul, Nat.cast_add, Nat.cast_one]
    field_simp
    ring
  rw [← mul_le_mul_iff_left₀ positive, scaled, ← Nat.cast_mul, Nat.cast_le]

/-- Below the lifetime cap, a show is refused exactly when the window does not admit
it. -/
theorem judge_limited_iff (limited : 0 < config.frequencyLimit)
    (windowed : 0 < config.frequencyWindow) (inOrder : InOrder config entry nowMs)
    (below : ¬ (0 < config.exposureCap ∧ config.exposureCap ≤ entry.lifetimeShows)) :
    (judge D config entry nowMs).1 = .frequencyLimited ↔
      ¬ Admits config.frequencyLimit.toNat config.windowMs.toNat
        (entry.counters.advance (nowMs.toNat / config.windowMs.toNat))
        (nowMs.toNat % config.windowMs.toNat) := by
  have quotient : (nowMs / config.windowMs).toNat = nowMs.toNat / config.windowMs.toNat :=
    UInt64.toNat_div ..
  have remainder : (nowMs % config.windowMs).toNat = nowMs.toNat % config.windowMs.toNat :=
    UInt64.toNat_mod ..
  have rolled : (entry.advance (nowMs / config.windowMs)).counters =
      entry.counters.advance (nowMs.toNat / config.windowMs.toNat) := by
    rw [advance_counters, quotient]
    rw [quotient]
    exact inOrder
  have compares : Scalar.lt (Scalar.ofNat config.frequencyLimit.toNat)
        (decayed D config (entry.advance (nowMs / config.windowMs)) nowMs +
          Scalar.ofNat 1) = true ↔
      ¬ Admits config.frequencyLimit.toNat config.windowMs.toNat
        (entry.counters.advance (nowMs.toNat / config.windowMs.toNat))
        (nowMs.toNat % config.windowMs.toNat) := by
    rw [decayed, ExactScalar.lt_iff, ← not_le]
    simp only [ExactScalar.ofNat_eq, remainder, Nat.cast_one]
    rw [estimate_le_iff _ _ _ _ _ (Nat.mod_lt _ (windowMs_pos windowed)), ← rolled]
    rfl
  rw [← compares]
  rcases judge_decayed D limited windowed entry nowMs below with ⟨within, same⟩ | ⟨exceeds, same⟩
  · simp [within, same]
  · simp [exceeds, same]

/-- A show is allowed only when the window admits it. -/
theorem admits_of_allowed (limited : 0 < config.frequencyLimit)
    (windowed : 0 < config.frequencyWindow) (inOrder : InOrder config entry nowMs)
    (allowed : (judge D config entry nowMs).1 = .allowed) :
    Admits config.frequencyLimit.toNat config.windowMs.toNat
      (entry.counters.advance (nowMs.toNat / config.windowMs.toNat))
      (nowMs.toNat % config.windowMs.toNat) := by
  have below : ¬ (0 < config.exposureCap ∧ config.exposureCap ≤ entry.lifetimeShows) := by
    intro capped
    have same : judge D config entry nowMs = (.exposureCapReached, entry) := if_pos capped
    rw [same] at allowed
    cases allowed
  by_contra refused
  have same := (judge_limited_iff (D := D) limited windowed inOrder below).mpr refused
  rw [allowed] at same
  cases same

/-- One judgement keeps both counters right about the log. -/
theorem judge_counts (limited : 0 < config.frequencyLimit) (windowed : 0 < config.frequencyWindow)
    {log : List Nat}
    (counts : Counts config.frequencyLimit.toNat config.windowMs.toNat log entry.counters)
    (inOrder : InOrder config entry nowMs) :
    Counts config.frequencyLimit.toNat config.windowMs.toNat
      (log ++ if (judge D config entry nowMs).1 = .allowed then [nowMs.toNat] else [])
      (judge D config entry nowMs).2.counters := by
  rcases judge_counters (D := D) limited windowed inOrder with
    ⟨allowed, _, after⟩ | ⟨refused, after | after⟩
  · rw [if_pos allowed, after]
    exact (counts.advance inOrder).grant (advance_index ..).symm (windowMs_pos windowed)
      (admits_of_allowed limited windowed inOrder allowed)
  · rw [if_neg refused, List.append_nil, after]
    exact counts.advance inOrder
  · rw [if_neg refused, List.append_nil, after]
    exact counts

/-- When the windows are visited in order the counters are right about the log. -/
theorem ItemLog.counts (limited : 0 < config.frequencyLimit) (windowed : 0 < config.frequencyWindow)
    (logged : ItemLog D config (InOrder config) log (some entry)) :
    Counts config.frequencyLimit.toNat config.windowMs.toNat (shows log) entry.counters := by
  induction logged using ItemLog.trackedInduction with
  | first nowMs before =>
      rw [shows_snoc, shows_eq_nil before.untracked]
      exact judge_counts limited windowed (Counts.start _) (fresh_inOrder config nowMs)
  | again nowMs _ inOrder ih =>
      rw [shows_snoc]
      exact judge_counts limited windowed ih inOrder

/-! ## Timestamps in order -/

/-- The window an entry stands in is that of one of the item's reservations. -/
theorem ItemLog.windowIndex (windowed : 0 < config.frequencyWindow)
    (logged : ItemLog D config condition log (some entry)) :
    ∃ event ∈ log, entry.windowIndex = event.1 / config.windowMs := by
  have judged : ∀ (before : Entry) (nowMs : UInt64),
      (judge D config before nowMs).2.windowIndex = before.windowIndex ∨
        (judge D config before nowMs).2.windowIndex = nowMs / config.windowMs := by
    intro before nowMs
    have rolled : (advanceAndEstimate D config before nowMs).2.windowIndex = before.windowIndex ∨
        (advanceAndEstimate D config before nowMs).2.windowIndex = nowMs / config.windowMs := by
      unfold advanceAndEstimate Entry.advance
      split
      · exact Or.inl rfl
      · split
        · exact Or.inr rfl
        · split
          · exact Or.inr rfl
          · exact Or.inl rfl
    rcases judge_cases D config before nowMs with
      ⟨same, _⟩ | ⟨_, _, _, same⟩ | ⟨_, _, _, same⟩ | ⟨_, _, same⟩
    · rw [same]; exact Or.inl rfl
    · rw [same]; exact rolled
    · rw [same]; exact rolled
    · rw [same]; exact Or.inl rfl
  induction logged using ItemLog.trackedInduction with
  | first nowMs _ =>
      refine ⟨_, List.mem_append_right _ (List.mem_singleton_self _), ?_⟩
      have fresh : (ExposureStore.freshEntry config nowMs).windowIndex = nowMs / config.windowMs :=
        if_pos windowed
      rcases judged (ExposureStore.freshEntry config nowMs) nowMs with same | moved
      · rw [same, fresh]
      · exact moved
  | again nowMs _ _ ih =>
      rcases judged _ nowMs with same | moved
      · obtain ⟨event, member, stands⟩ := ih
        exact ⟨event, List.mem_append_left _ member, same.trans stands⟩
      · exact ⟨_, List.mem_append_right _ (List.mem_singleton_self _), moved⟩

/-- Reservations with non-decreasing timestamps visit the windows in order. -/
theorem ItemLog.inOrder (windowed : 0 < config.frequencyWindow)
    (logged : ItemLog D config (fun _ _ => True) log state)
    (ordered : log.Pairwise fun earlier later => earlier.1.toNat ≤ later.1.toNat) :
    ItemLog D config (InOrder config) log state := by
  induction logged with
  | start => exact .start
  | refused nowMs _ ih => exact (ih (List.pairwise_append.mp ordered).1).refused nowMs
  | first nowMs _ ih => exact (ih (List.pairwise_append.mp ordered).1).first nowMs
  | again nowMs before _ ih =>
      obtain ⟨orderedBefore, _, bounded⟩ := List.pairwise_append.mp ordered
      apply (ih orderedBefore).again nowMs
      obtain ⟨event, member, stands⟩ := before.windowIndex windowed
      rw [InOrder, stands, UInt64.toNat_div]
      exact Nat.div_le_div_right (bounded event member _ (List.mem_singleton_self _))

/-- Counting shows is counting allowed reservations. -/
theorem countP_shows (log : List (UInt64 × Decision)) (counted : Nat → Bool) :
    (shows log).countP counted =
      log.countP fun event => decide (event.2 = .allowed) && counted event.1.toNat := by
  induction log with
  | nil => rfl
  | cons event log ih =>
      rw [shows, List.filterMap_cons, List.countP_cons, ← ih]
      by_cases allowed : event.2 = .allowed
      · simp [shows, allowed, List.countP_cons]
      · simp [shows, allowed]

/-- The timestamps of an item's log lie on one side of the epoch, so that their cast
to unsigned keeps their order. -/
def OneSide (log : List (Timestamp × Decision)) : Prop :=
  (∀ event ∈ log, 0 ≤ event.1.millis.toInt) ∨ (∀ event ∈ log, event.1.millis.toInt < 0)

/-- Where all timestamps are on one side of the epoch, unsigned time is a shift of signed time. -/
theorem OneSide.shift {log : List (Timestamp × Decision)} (oneSide : OneSide log) :
    ∃ shift : Int, ∀ event ∈ log,
      ((toMillis event.1).toNat : Int) = event.1.millis.toInt + shift := by
  rcases oneSide with after | before
  · refine ⟨0, fun event member => ?_⟩
    have side := after event member
    rw [toInt_eq] at side ⊢
    change (event.1.millis.toUInt64.toNat : Int) = _
    have bound := event.1.millis.toUInt64.toNat_lt
    omega
  · refine ⟨2 ^ 64, fun event member => ?_⟩
    have side := before event member
    rw [toInt_eq] at side ⊢
    change (event.1.millis.toUInt64.toNat : Int) = _
    omega

end Exact

/-- One shard and a limit of two shows in four milliseconds. -/
def twoInFour : Settings :=
  ⟨{ frequencyLimit := 2, frequencyWindow := 4 }, .one, by decide⟩

end Lrd.Policy
