import Lrd.Daemon.Charging
import Lrd.Policy.Window

/-!
# The frequency limit under concurrent requests

A recommendation reads the clock in one step and reserves in later ones, so
reservations can reach the store with timestamps older than the window an item's
counters stand in. `Entry.advance` then forgets both counters, and the older window
is granted its limit again (`window_limit_exceeded`). In runs where that does not
happen every aligned window keeps to the limit (`window_limit`).
-/

namespace Lrd.Daemon

open Foundation Common Rank Policy Cache Proto SlidingWindow

variable {D : Type} [FloatScalar D] {config : Config D}

/-- The timestamp with which a step reserves an item. -/
def reservesAt (id : ItemId) : Op config → Option Timestamp
  | .reserve other instant => if other = id then some instant else none
  | _ => none

/-- A step keeps the item's counters and does not reserve it with a timestamp from
before the window that its counters stand in, unless the lifetime cap refuses it first. -/
def Timely (id : ItemId) (state : State config) (now : Timestamp) (op : Op config) : Prop :=
  KeepsItem id state now op ∧ ∀ instant ∈ reservesAt id op, ∀ entry ∈ state.policy.entryOf id,
    Capped config.policy.config entry ∨ InOrder config.policy.config entry (toMillis instant)

instance (id : ItemId) (state : State config) (now : Timestamp) (op : Op config) :
    Decidable (Timely id state now op) :=
  inferInstanceAs
    (Decidable ((_ → _) ∧ ∀ instant ∈ _, ∀ entry ∈ _, Capped _ entry ∨ InOrder _ entry _))

/-- How many allowed reservations of an item carry a timestamp of the given window. -/
def allowedInWindow (id : ItemId) (window : Nat) (history : List (Event (steps config))) : Nat :=
  (reservationsOf id history).countP fun event =>
    decide (event.2 = .allowed) &&
      decide (event.1.toNat / config.policy.config.windowMs.toNat = window)

/-- In every run whose steps are timely for an item, no aligned window has more
allowed reservations of it than the limit. -/
theorem window_limit (config : Config D) (limited : 0 < config.policy.config.frequencyLimit)
    (windowed : 0 < config.policy.config.frequencyWindow) (id : ItemId)
    (schedule : List (Label Timestamp (Request D)))
    (timely : System.Meets (workers config) (Timely id) (System.initial (State.initial config))
      schedule)
    (window : Nat) :
    allowedInWindow id window (reached config schedule).history ≤
      config.policy.config.frequencyLimit.toNat := by
  have logged := timely.history_invariant (Logged (fun entry nowMs =>
      Capped config.policy.config entry ∨ InOrder config.policy.config entry nowMs) id)
    (Logged.initial _ id) fun now op state history meets logged => by
      apply logged.perform meets.1
      intro instant entry reserves tracked
      refine meets.2 instant ?_ entry tracked
      rw [reserves]
      exact if_pos rfl
  have bound := ItemLog.inWindow_le (fun meets => meets) limited windowed logged window
  rw [inWindow, countP_shows] at bound
  exact bound

/-- One show in ten milliseconds. -/
def onceInTen : Config ℚ :=
  oneShard { frequencyLimit := 1, frequencyWindow := 10 } (by decide)

/-- Three requests read the clock, the last of them in the next window, and reserve
later: the first, the last, and then the second. -/
def staleClock : List (Label Timestamp (Request ℚ)) :=
  Label.inTurn 3 [publishing 1 1] ++
    [.invoke (asking 1).1, .invoke (asking 1).1, .invoke (asking 1).1] ++
    List.replicate 3 (.advance 1 ⟨5⟩) ++ List.replicate 3 (.advance 2 ⟨5⟩) ++
    List.replicate 3 (.advance 3 ⟨15⟩) ++ List.replicate 2 (.advance 1 ⟨15⟩) ++
    List.replicate 2 (.advance 3 ⟨15⟩) ++ List.replicate 2 (.advance 2 ⟨15⟩)

theorem window_limit_inTurn :
    let requests := [publishing 1 1, ((asking 1).1, ⟨5⟩), ((asking 1).1, ⟨7⟩),
      ((asking 1).1, ⟨25⟩)]
    allowedInWindow 1 0 (reached onceInTen (Label.inTurn 5 requests)).history = 1 ∧
      allowedInWindow 1 0 (reached onceInTen (Label.inTurn 5 requests)).history ≤ 1 :=
  ⟨by decide +kernel, window_limit onceInTen (by decide) (by decide) 1 _
    (by decide +kernel) 0⟩

/-- The clock never goes backwards, and still one window grants twice its limit. -/
theorem window_limit_exceeded :
    (staleClock.filterMap Label.environment?).Pairwise
        (fun earlier later => earlier.millis ≤ later.millis) ∧
      (reached onceInTen staleClock).Quiescent ∧
      onceInTen.policy.config.failOpenWhenFull = false ∧
      onceInTen.policy.config.frequencyLimit = 1 ∧
      allowedInWindow 1 0 (reached onceInTen staleClock).history = 2 := by
  decide +kernel

end Lrd.Daemon
