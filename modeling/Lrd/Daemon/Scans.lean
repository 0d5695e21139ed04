import Lrd.Daemon.ExactCounters

/-!
# Scans and previews leave no trace

A recommendation copies the cached items without marking them as used, and a dry run asks
the exposure store without recording anything. So a run of requests may be stripped of its
recommendations and statistics without changing the answer to any other request, and of its
dry runs and statistics without changing the answer to a live recommendation either
(`scans_leave_no_trace`).
-/

namespace Lrd.Daemon

open Foundation Common Rank Policy Cache Proto

variable {D : Type} [Scalar D] {config : Config D}

/-! ## Requests that go through the cache -/

/-- Steps that count something or go to the cache by key. -/
def ByKey : Op config → Prop
  | .bump _ => True
  | .cacheGet _ => True
  | .cachePut _ => True
  | .cacheErase _ => True
  | _ => False

/-- Lookups, puts and deletes take no other steps. -/
theorem uses_byKey {request : Request D} (uses : usesCache request = true) :
    (handle request : Program (steps config) (Response D)).Uses ByKey := by
  obtain ⟨requestId, body⟩ := request
  unfold handle
  refine Program.uses_bind (uses_step _ trivial) fun _ =>
    Program.uses_bind ?_ fun _ => trivial
  cases body with
  | getItem itemId =>
      refine Program.uses_bind (uses_step _ trivial) fun _ => ?_
      refine Program.uses_bind (uses_step _ trivial) fun item => ?_
      cases item with
      | none => exact Program.uses_bind (uses_step _ trivial) fun _ => trivial
      | some item => exact Program.uses_bind (uses_step _ trivial) fun _ => trivial
  | putItem item =>
      refine Program.uses_bind (uses_step _ trivial) fun _ => ?_
      split
      · trivial
      · split
        · trivial
        · exact Program.uses_bind (uses_step _ trivial) fun _ => trivial
  | deleteItem itemId =>
      refine Program.uses_bind (uses_step _ trivial) fun _ => ?_
      exact Program.uses_bind (uses_step _ trivial) fun _ => trivial
  | getStats => cases uses
  | recommend recommend => cases uses

/-- Such steps answer alike when the caches are the same. -/
theorem perform_byKey (now : Timestamp) (op : Op config) (state other : State config)
    (byKey : ByKey op) (same : state.cache = other.cache) :
    (perform now op state).1 = (perform now op other).1 ∧
      (perform now op state).2.cache = (perform now op other).2.cache := by
  cases op with
  | bump counter => exact ⟨rfl, same⟩
  | cacheGet id =>
      refine ⟨?_, ?_⟩
      · simp only [perform, same]
      · simp only [perform, same]
  | cachePut item => exact ⟨rfl, by simp only [perform, same]⟩
  | cacheErase id =>
      refine ⟨?_, ?_⟩
      · simp only [perform, same]
      · simp only [perform, same]
  | _ => exact byKey.elim

/-! ## Stripped runs -/

/-- **Scans and previews leave no trace.** A run without its recommendations and its requests
for statistics answers every lookup, put and delete as before, and a run without its dry
runs and its requests for statistics answers every live recommendation as before, too. -/
theorem scans_leave_no_trace (config : Config D) (requests : List (Request D × Timestamp)) :
    let answered := fun requests => ((sequential config).run (State.initial config) requests).1
    answered (only usesCache requests) =
        (answered requests).filter (fun entry => usesCache entry.1.1) ∧
      answered (only takesEffect requests) =
        (answered requests).filter (fun entry => takesEffect entry.1.1) := by
  intro answered
  constructor
  · refine Machine.run_filter (fun entry => usesCache entry.1)
      (fun state other : State config => state.cache = other.cache) ?_ ?_ rfl requests
    · intro state other entry same uses
      obtain ⟨answers, next⟩ := (uses_byKey uses).run_related (perform_byKey entry.2) same
      exact ⟨answers.symm, next⟩
    · intro state other entry same unused
      refine Eq.trans ?_ same
      exact (uses_permitted entry.1).run_keeps
        (fun op current permitted => perform_cache unused entry.2 current permitted) state
  · refine Machine.run_filter (fun entry => takesEffect entry.1) SameContent ?_ ?_ ⟨rfl, rfl⟩
      requests
    · intro state other entry same effect
      have reads : entry.1.body ≠ .getStats := by
        intro reads
        rw [takesEffect, usesCache, changesCatalogue, isLive, reads] at effect
        cases effect
      obtain ⟨answers, next⟩ :=
        (uses_permitted entry.1).run_related (perform_alike reads entry.2) same
      exact ⟨answers.symm, next⟩
    · intro state other entry same effectless
      have kept := respond_effectless effectless state entry.2
      exact ⟨(congrArg State.cache kept).trans same.1, (congrArg State.policy kept).trans same.2⟩

end Lrd.Daemon
