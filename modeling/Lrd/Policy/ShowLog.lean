import Lrd.Policy.Window

/-!
# The window counters and the full log

What an item's two counters say, in terms of the log of all its reservations. As long as
the item's counters are kept and its timestamps do not decrease, a reservation is refused
for its frequency exactly when the shows of the window before, weighted by how much of that
window is still in view, and those of the current window leave no room for another one
(`ExposureStore.window_refines_log`).
-/

namespace Lrd.Policy

open Foundation Common Rank SlidingWindow

/-- The allowed reservations of a log whose timestamps lie in an aligned window. -/
def allowedInWindow (length window : Int) (log : List (Timestamp × Decision)) : Nat :=
  log.countP fun event => event.2 = .allowed ∧ event.1.millis.toInt / length = window

/-- A window that is not empty has the same length signed and unsigned. -/
theorem windowMs_toInt {config : PolicyConfig} (windowed : 0 < config.frequencyWindow) :
    (config.windowMs.toNat : Int) = config.frequencyWindow.toInt := by
  have positive := Int64.lt_iff_toInt_lt.mp windowed
  have cast := toInt_eq config.frequencyWindow
  change (0 : Int) < _ at positive
  change (config.frequencyWindow.toUInt64.toNat : Int) = _
  have bound := config.frequencyWindow.toUInt64.toNat_lt
  omega

variable {now : Timestamp} {entry : Entry}

/-- Timestamps after the epoch keep their value when they are cast to unsigned. -/
theorem toMillis_toInt (after : 0 ≤ now.millis.toInt) :
    ((toMillis now).toNat : Int) = now.millis.toInt := by
  have cast := toInt_eq now.millis
  change (now.millis.toUInt64.toNat : Int) = _
  have bound := now.millis.toUInt64.toNat_lt
  omega

/-- An item's log as its counters see it. -/
def unsignedLog (log : List (Timestamp × Decision)) : List (UInt64 × Decision) :=
  log.map fun event => (toMillis event.1, event.2)

/-- Unsigned timestamps leave the number of allowed reservations as it is. -/
theorem allowedIn_unsignedLog (log : List (Timestamp × Decision)) :
    allowedIn (unsignedLog log) = log.countP fun event => event.2 = .allowed := by
  rw [allowedIn, unsignedLog, List.countP_map]
  rfl

section Windows

variable {config : PolicyConfig} (windowed : 0 < config.frequencyWindow)
  {log : List (Timestamp × Decision)} (after : ∀ event ∈ log, 0 ≤ event.1.millis.toInt)
include windowed after

/-- The shows of an aligned window, in signed and in unsigned time. -/
theorem inWindow_unsignedLog (window : Nat) :
    inWindow config.windowMs.toNat (shows (unsignedLog log)) window =
      allowedInWindow config.frequencyWindow.toInt window log := by
  rw [inWindow, countP_shows, unsignedLog, List.countP_map]
  apply List.countP_congr
  intro event member
  have instant := toMillis_toInt (after event member)
  simp only [Function.comp_apply, Bool.and_eq_true, decide_eq_true_eq, ← windowMs_toInt windowed,
    ← instant]
  rw [← Int.natCast_ediv, Int.natCast_inj]

/-- The shows of the window before, in signed and in unsigned time. -/
theorem inWindowBefore_unsignedLog (window : Nat) :
    inWindowBefore config.windowMs.toNat (shows (unsignedLog log)) window =
      allowedInWindow config.frequencyWindow.toInt (window - 1) log := by
  rw [inWindowBefore, countP_shows, unsignedLog, List.countP_map]
  apply List.countP_congr
  intro event member
  have instant := toMillis_toInt (after event member)
  simp only [Function.comp_apply, Bool.and_eq_true, decide_eq_true_eq, ← windowMs_toInt windowed,
    ← instant]
  rw [← Int.natCast_ediv]
  generalize (toMillis event.1).toNat / config.windowMs.toNat = own
  refine and_congr_right fun _ => ?_
  omega

/-- There are no shows in windows before the epoch. -/
theorem allowedInWindow_neg {window : Int} (negative : window < 0) :
    allowedInWindow config.frequencyWindow.toInt window log = 0 := by
  rw [allowedInWindow, List.countP_eq_zero]
  intro event member
  rw [decide_eq_true_eq, ← windowMs_toInt windowed]
  rintro ⟨_, rfl⟩
  exact absurd (Int.ediv_nonneg (after event member) (Int.natCast_nonneg _)) (Int.not_le.mpr negative)

end Windows

/-- Where nothing was allowed no window has shows. -/
theorem allowedInWindow_eq_zero {log : List (Timestamp × Decision)}
    (none : allowedIn (unsignedLog log) = 0) (length window : Int) :
    allowedInWindow length window log = 0 := by
  rw [allowedIn_unsignedLog] at none
  refine Nat.le_zero.mp (le_of_le_of_eq (List.countP_mono_left ?_) none)
  intro event _ inside
  rw [decide_eq_true_eq] at inside ⊢
  exact inside.1

variable {D : Type} [ExactScalar D]

/-- The window of a reservation, when the log is right about the item's counters. -/
theorem limited_iff_of_counts {config : PolicyConfig} (limited : 0 < config.frequencyLimit)
    (windowed : 0 < config.frequencyWindow) {log : List (Timestamp × Decision)}
    (after : ∀ event ∈ log, 0 ≤ event.1.millis.toInt)
    (counts : Counts config.frequencyLimit.toNat config.windowMs.toNat (shows (unsignedLog log))
      entry.counters) (later : 0 ≤ now.millis.toInt) (inOrder : InOrder config entry (toMillis now))
    (below : ¬ (0 < config.exposureCap ∧ config.exposureCap ≤ entry.lifetimeShows)) :
    (judge D config entry (toMillis now)).1 = .frequencyLimited ↔
      (config.frequencyLimit.toNat : Int) * config.frequencyWindow.toInt <
        allowedInWindow config.frequencyWindow.toInt
            (now.millis.toInt / config.frequencyWindow.toInt - 1) log *
          (config.frequencyWindow.toInt - now.millis.toInt % config.frequencyWindow.toInt) +
        (allowedInWindow config.frequencyWindow.toInt
            (now.millis.toInt / config.frequencyWindow.toInt) log + 1) *
          config.frequencyWindow.toInt := by
  have instant := toMillis_toInt later
  have length := windowMs_toInt windowed
  have rolled := counts.advance inOrder
  have index : (entry.counters.advance ((toMillis now).toNat / config.windowMs.toNat)).index =
      (toMillis now).toNat / config.windowMs.toNat := advance_index ..
  have current := rolled.current
  have previous := rolled.previous
  rw [index, inWindow_unsignedLog windowed after, Int.natCast_ediv, instant, length] at current
  rw [index, inWindowBefore_unsignedLog windowed after, Int.natCast_ediv, instant, length]
    at previous
  have inside := Nat.mod_lt (toMillis now).toNat (windowMs_pos windowed)
  rw [judge_limited_iff limited windowed inOrder below, Admits, Nat.not_le, ← current, ← previous,
    ← Int.ofNat_lt]
  push_cast [Nat.cast_sub inside.le]
  rw [instant, length]

/-- Nothing stands against an item that has not been shown. -/
theorem not_exceeds_of_unshown {limit : Nat} (some : 0 < limit) {length : Int}
    (positive : 0 < length) {log : List (Timestamp × Decision)}
    (unshown : allowedIn (unsignedLog log) = 0) (now : Int) :
    ¬ (limit : Int) * length < allowedInWindow length (now / length - 1) log *
        (length - now % length) + (allowedInWindow length (now / length) log + 1) * length := by
  rw [allowedInWindow_eq_zero unshown, allowedInWindow_eq_zero unshown, Int.not_lt]
  have bound := Int.mul_le_mul_of_nonneg_right (Int.ofNat_le.mpr some) positive.le
  simpa using bound

/-- A reservation that is not earlier than the log does not fall in an earlier window than
the item's counters stand in. -/
theorem ItemLog.inOrder_next {config : PolicyConfig} (windowed : 0 < config.frequencyWindow)
    {condition : Entry → UInt64 → Prop} {log : List (Timestamp × Decision)}
    (logged : ItemLog D config condition (unsignedLog log) (some entry))
    (after : ∀ event ∈ log, 0 ≤ event.1.millis.toInt) (later : 0 ≤ now.millis.toInt)
    (latest : ∀ event ∈ log, event.1.millis.toInt ≤ now.millis.toInt) :
    InOrder config entry (toMillis now) := by
  obtain ⟨event, member, stands⟩ := logged.windowIndex windowed
  obtain ⟨earlier, inside, rfl⟩ := List.mem_map.mp member
  have before := latest earlier inside
  rw [← toMillis_toInt (after earlier inside), ← toMillis_toInt later] at before
  rw [InOrder, stands, UInt64.toNat_div]
  exact Nat.div_le_div_right (Int.ofNat_le.mp before)

/-- An item with fewer shows than its cap is below it. -/
theorem ItemLog.below_cap {config : PolicyConfig} {condition : Entry → UInt64 → Prop}
    {log : List (Timestamp × Decision)}
    (logged : ItemLog D config condition (unsignedLog log) (some entry))
    (below : config.exposureCap = 0 ∨ log.countP (fun event => event.2 = .allowed) <
      config.exposureCap.toNat) :
    ¬ (0 < config.exposureCap ∧ config.exposureCap ≤ entry.lifetimeShows) := by
  rintro ⟨capped, reached⟩
  rcases below with uncapped | fewer
  · rw [uncapped] at capped
    exact absurd capped (UInt64.lt_irrefl 0)
  · rw [logged.lifetimeShows, allowedIn_unsignedLog, UInt64.le_iff_toNat_le,
      UInt64.toNat_ofNat'] at reached
    exact absurd (reached.trans (Nat.mod_le _ _)) (Nat.not_le.mpr fewer)

section Limits

variable {config : PolicyConfig} {log : List (Timestamp × Decision)} {state : Option Entry}

/-- Every aligned window of the log keeps to the limit. -/
theorem ItemLog.allowedInWindow_le (limited : 0 < config.frequencyLimit)
    (windowed : 0 < config.frequencyWindow)
    (visits : ItemLog D config (InOrder config) (unsignedLog log) state)
    (after : ∀ event ∈ log, 0 ≤ event.1.millis.toInt) (window : Int) :
    allowedInWindow config.frequencyWindow.toInt window log ≤ config.frequencyLimit.toNat := by
  rcases lt_or_ge window 0 with negative | nonnegative
  · rw [allowedInWindow_neg windowed after negative]
    exact Nat.zero_le _
  · obtain ⟨index, rfl⟩ := Int.eq_ofNat_of_zero_le nonnegative
    rw [← inWindow_unsignedLog windowed after]
    exact visits.inWindow_le Or.inr limited windowed index

/-- Two adjacent windows of the log hold fewer shows than twice the limit. -/
theorem ItemLog.allowedInWindow_adjacent (limited : 0 < config.frequencyLimit)
    (windowed : 0 < config.frequencyWindow)
    (visits : ItemLog D config (InOrder config) (unsignedLog log) state)
    (after : ∀ event ∈ log, 0 ≤ event.1.millis.toInt) (window : Int) :
    allowedInWindow config.frequencyWindow.toInt window log +
        allowedInWindow config.frequencyWindow.toInt (window + 1) log ≤
      2 * config.frequencyLimit.toNat - 1 := by
  have some : 0 < config.frequencyLimit.toNat := UInt32.lt_iff_toNat_lt.mp limited
  rcases lt_or_ge window 0 with negative | nonnegative
  · rw [allowedInWindow_neg windowed after negative]
    have next := visits.allowedInWindow_le limited windowed after (window + 1)
    omega
  · obtain ⟨index, rfl⟩ := Int.eq_ofNat_of_zero_le nonnegative
    have next := inWindow_unsignedLog windowed after (index + 1)
    rw [Nat.cast_add, Nat.cast_one] at next
    rw [← inWindow_unsignedLog windowed after, ← next]
    cases state with
    | none =>
        rw [shows_eq_nil visits.untracked]
        exact Nat.zero_le _
    | some entry =>
        exact (visits.counts limited windowed).adjacent_le some (windowMs_pos windowed) index

end Limits

/-- **The counters refine the log.** As long as an item's counters are kept and its
reservations carry non-negative, non-decreasing timestamps, a reservation below the
lifetime cap is refused for its frequency exactly when the weighted shows of the window
before and the shows of its own window, this one included, exceed the limit. So neither
counter exceeds the limit, no aligned window holds more shows than the limit, and no two
adjacent ones hold twice the limit. -/
theorem ExposureStore.window_refines_log (settings : Settings)
    (limited : 0 < settings.config.frequencyLimit) (windowed : 0 < settings.config.frequencyWindow)
    (id : ItemId) (calls : List StoreCall) (keeps : Keeps D id (create settings) calls)
    (ordered : (itemLog D id (create settings) calls).Pairwise fun earlier later =>
      earlier.1.millis.toInt ≤ later.1.millis.toInt)
    (after : ∀ event ∈ itemLog D id (create settings) calls, 0 ≤ event.1.millis.toInt) :
    let store := calls.foldl (afterCall D) (create settings)
    let log := itemLog D id (create settings) calls
    let limit : Nat := settings.config.frequencyLimit.toNat
    let length : Int := settings.config.frequencyWindow.toInt
    (∀ now : Timestamp, 0 ≤ now.millis.toInt →
      (∀ event ∈ log, event.1.millis.toInt ≤ now.millis.toInt) →
      (settings.config.exposureCap = 0 ∨
        log.countP (fun event => event.2 = .allowed) < settings.config.exposureCap.toNat) →
      ((store.reserve D id now).1 = .frequencyLimited ↔
        (limit : Int) * length <
          allowedInWindow length (now.millis.toInt / length - 1) log *
              (length - now.millis.toInt % length) +
            (allowedInWindow length (now.millis.toInt / length) log + 1) * length)) ∧
    (∀ entry, store.entryOf id = some entry →
      entry.current.toNat ≤ limit ∧ entry.previous.toNat ≤ limit) ∧
    (∀ window, allowedInWindow length window log ≤ limit) ∧
    ∀ window, allowedInWindow length window log + allowedInWindow length (window + 1) log ≤
      2 * limit - 1 := by
  intro store log limit length
  have logged : ItemLog D settings.config (fun _ _ => True) (unsignedLog log)
      (store.entryOf id) := by
    have extended := itemLog_run (D := D) (.start : ItemLog D settings.config (fun _ _ => True) []
      ((create settings).entryOf id)) keeps
    rwa [List.nil_append] at extended
  have visits := logged.inOrder windowed (by
    rw [unsignedLog, List.pairwise_map]
    refine ordered.imp_of_mem fun earlierMember laterMember before => ?_
    have earlier := toMillis_toInt (after _ earlierMember)
    have later := toMillis_toInt (after _ laterMember)
    change (toMillis _).toNat ≤ (toMillis _).toNat
    omega)
  have some : 0 < limit := UInt32.lt_iff_toNat_lt.mp limited
  have positive : 0 < length := Int64.lt_iff_toInt_lt.mp windowed
  refine ⟨?_, ?_, visits.allowedInWindow_le limited windowed after,
    visits.allowedInWindow_adjacent limited windowed after⟩
  · intro now later latest below
    rcases reserve_self D store id now with
      ⟨entry, tracked, decision, _⟩ | ⟨untracked, decision, _⟩ | ⟨untracked, decision, _⟩
    · rw [tracked] at logged visits
      rw [decision]
      exact limited_iff_of_counts limited windowed after (visits.counts limited windowed) later
        (logged.inOrder_next windowed after later latest) (logged.below_cap below)
    · rw [untracked] at logged
      rw [decision, judge_freshEntry]
      exact iff_of_false (by simp) (not_exceeds_of_unshown some positive logged.untracked _)
    · rw [untracked] at logged
      rw [decision]
      exact iff_of_false (by simp) (not_exceeds_of_unshown some positive logged.untracked _)
  · intro entry tracked
    rw [tracked] at visits
    have counts := visits.counts limited windowed
    exact ⟨counts.current.ge.trans (counts.limited _),
      counts.previous.ge.trans (Counts.inWindowBefore_le counts.toAligned _)⟩

/-- Two shows at the end of a window. -/
def windowEnd : List StoreCall := [.reserve 7 ⟨3⟩, .reserve 7 ⟨3⟩]

theorem ExposureStore.window_refines_log_windowEnd :
    ((windowEnd.foldl (afterCall ℚ) (create twoInFour)).reserve ℚ 7 ⟨5⟩).1 = .frequencyLimited :=
  ((window_refines_log (D := ℚ) twoInFour (by decide) (by decide) 7 windowEnd
    ⟨by decide +kernel, by decide +kernel, trivial⟩ (by decide +kernel) (by decide +kernel)).1
    ⟨5⟩ (by decide) (by decide +kernel) (Or.inl rfl)).mpr (by decide +kernel)

end Lrd.Policy
