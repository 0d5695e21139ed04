import Lrd.Sdk.Owners

/-!
# The loop of `invoke`

`invoke` (`sdk/client.cpp`) as one program over what it asks of its surroundings: a
connection from the pool or room for a new one, an opening, a call of its method, and the
return of the connection. What other threads do to the pool in between shows in the answers
only. `traces_invokeLoop` says which attempts a run makes and what it returns, whatever the
answers.

The invocations of a device, which are cut into the same steps, follow this program
(`acted_follows`).
-/

namespace Lrd.Sdk

open Foundation Proto Daemon Lrd.Client

variable {D : Type}

/-! ## The program -/

/-- What `invoke` asks of the pool and of a connection. -/
inductive InvokeOp (D : Type) where
  | acquire
  | open
  | call (link : Nat) (operation : Operation D)
  | release (link : Nat) (healthy : Bool)

/-- What waiting for the pool ends with. -/
inductive Acquired where
  | timedOut
  | idle (link : Nat)
  | room
deriving DecidableEq

/-- What it is answered. -/
@[reducible] def InvokeOp.Answer : InvokeOp D → Type
  | .acquire => Acquired
  | .open => Except OpenFailure Nat
  | .call _ _ => Called D
  | .release _ _ => Unit

/-- These as operations with answers. -/
@[reducible] def invokeSteps (D : Type) : Signature := ⟨InvokeOp D, InvokeOp.Answer⟩

/-- What one pass through the loop comes to. -/
inductive Attempt (D : Type) where
  | timedOut
  | unopened (failure : OpenFailure)
  | called (link : Nat) (outcome : Called D)

/-- The status that a call of the method is reported as. -/
def reported (called : Called D) : Status :=
  if mapStatus called.status = .ok then Status.success
  else ⟨mapStatus called.status, called.lastError⟩

/-- The code that is reported is that of the call's status. -/
theorem code_reported (called : Called D) : (reported called).code = mapStatus called.status := by
  unfold reported
  split
  · rename_i ok
    rw [ok]
    rfl
  · rfl

namespace Attempt

/-- The status that the attempt leaves. -/
def status : Attempt D → Status
  | .timedOut => ⟨.unavailable, text "timed out waiting for a free connection"⟩
  | .unopened failure => ⟨.unavailable, failure.what⟩
  | .called _ outcome => reported outcome

/-- What the call of an attempt came to, if it got that far. -/
def called? : Attempt D → Option (Called D)
  | .called _ outcome => some outcome
  | _ => none

/-- The status with what the method's call left. -/
def result (made : Attempt D) : Status × Option (Called D) := (made.status, made.called?)

/-- Whether the attempt is followed by another one while one is left. -/
def isRetried (made : Attempt D) : Bool := isRetryableFailure made.status.code

/-- A call is retried exactly if it has lost its connection. -/
theorem isRetried_called_iff (link : Nat) (outcome : Called D) :
    (Attempt.called link outcome).isRetried = true ↔ outcome.status = .connectionLost := by
  rw [isRetried, status, code_reported]
  cases outcome.status <;> simp [mapStatus, isRetryableFailure]

end Attempt

/-- Perform one step. -/
@[reducible] def ask (op : InvokeOp D) : Program (invokeSteps D) op.Answer :=
  Program.call (S := invokeSteps D) op

variable (operation : Operation D)

omit operation in
/-- The connection goes back once the method has returned. -/
def giveBack (link : Nat) (called : Called D) : Program (invokeSteps D) (Attempt D) := do
  ask (.release link (!marksFailed (mapStatus called.status)))
  return .called link called

/-- The method is called on a connection. -/
def callOn (link : Nat) : Program (invokeSteps D) (Attempt D) := do
  let called ← ask (.call link operation)
  giveBack link called

/-- A connection is opened for the slot that was reserved. -/
def openAndCall : Program (invokeSteps D) (Attempt D) := do
  let opened ← ask .open
  match opened with
  | .ok link => callOn operation link
  | .error failure => return .unopened failure

/-- The body of the loop. -/
def attempt : Program (invokeSteps D) (Attempt D) := do
  let acquired ← ask .acquire
  match acquired with
  | .timedOut => return .timedOut
  | .idle link => callOn operation link
  | .room => openAndCall operation

/-- The loop with as many passes left, and what it would return after the last of them. -/
def invokeLoop : Nat → Status × Option (Called D) →
    Program (invokeSteps D) (Status × Option (Called D))
  | 0, last => pure last
  | left + 1, _ => do
      let made ← attempt operation
      if made.isRetried then invokeLoop left made.result else return made.result

omit operation in
/-- `Client::invoke`. -/
def invoke (client : ClientConfig) (operation : Operation D) :
    Program (invokeSteps D) (Status × Option (Called D)) :=
  invokeLoop operation (attempts client operation).toNat
    (⟨.unavailable, text "no attempt was made"⟩, none)

/-! ## What it does, whatever the answers -/

variable {operation}

/-- The steps of an attempt. -/
inductive Makes (operation : Operation D) : List (Event (invokeSteps D)) → Attempt D → Prop where
  | timedOut : Makes operation [⟨.acquire, .timedOut⟩] .timedOut
  | unopened (failure : OpenFailure) :
      Makes operation [⟨.acquire, .room⟩, ⟨.open, .error failure⟩] (.unopened failure)
  | pooled (link : Nat) (called : Called D) :
      Makes operation
        [⟨.acquire, .idle link⟩, ⟨.call link operation, called⟩,
          ⟨.release link (!marksFailed (mapStatus called.status)), ()⟩] (.called link called)
  | fresh (link : Nat) (called : Called D) :
      Makes operation
        [⟨.acquire, .room⟩, ⟨.open, .ok link⟩, ⟨.call link operation, called⟩,
          ⟨.release link (!marksFailed (mapStatus called.status)), ()⟩] (.called link called)

/-- What an attempt does. -/
theorem traces_attempt : (attempt operation).Traces (Makes operation) := by
  intro acquired
  cases acquired with
  | timedOut => exact .timedOut
  | idle link =>
      intro called _
      exact .pooled link called
  | room =>
      intro opened
      cases opened with
      | error failure => exact .unopened failure
      | ok link =>
          intro called _
          exact .fresh link called

/-- The attempts of a run, with its trace and its result. -/
inductive Invoked (operation : Operation D) : Nat → Status × Option (Called D) →
    List (Attempt D) → List (Event (invokeSteps D)) → Status × Option (Called D) → Prop where
  | exhausted (last : Status × Option (Called D)) : Invoked operation 0 last [] [] last
  | stops {left : Nat} {last : Status × Option (Called D)} {made : Attempt D}
      {trace : List (Event (invokeSteps D))} (makes : Makes operation trace made)
      (final : made.isRetried = false) :
      Invoked operation (left + 1) last [made] trace made.result
  | retries {left : Nat} {last result : Status × Option (Called D)} {made : Attempt D}
      {later : List (Attempt D)} {trace more : List (Event (invokeSteps D))}
      (makes : Makes operation trace made) (again : made.isRetried = true)
      (goesOn : Invoked operation left made.result later more result) :
      Invoked operation (left + 1) last (made :: later) (trace ++ more) result

/-- What the loop does. -/
theorem traces_invokeLoop (left : Nat) (last : Status × Option (Called D)) :
    (invokeLoop operation left last).Traces fun trace result =>
      ∃ made, Invoked operation left last made trace result := by
  induction left generalizing last with
  | zero => exact ⟨[], .exhausted last⟩
  | succ left ih =>
      rw [invokeLoop, Program.traces_bind]
      apply traces_attempt.mono
      intro trace made makes
      split
      · rename_i again
        apply (ih made.result).mono
        intro more result goesOn
        obtain ⟨later, goesOn⟩ := goesOn
        exact ⟨made :: later, .retries makes again goesOn⟩
      · rename_i final
        rw [Program.pure_eq, Program.traces_done, List.append_nil]
        exact ⟨[made], .stops makes (Bool.eq_false_iff.mpr final)⟩

namespace Invoked

variable {left : Nat} {last result : Status × Option (Called D)} {made : List (Attempt D)}
  {trace : List (Event (invokeSteps D))}

/-- No attempt is left exactly if none is made. -/
theorem nil_iff (invoked : Invoked operation left last made trace result) :
    made = [] ↔ left = 0 := by
  cases invoked with
  | exhausted => simp
  | stops makes final => simp
  | retries makes again goesOn => simp

/-- An attempt is followed by another one exactly if it may be retried and there is one
left. -/
theorem goesOn_iff (invoked : Invoked operation left last made trace result)
    {before after : List (Attempt D)} {attempt : Attempt D}
    (split : made = before ++ attempt :: after) :
    after ≠ [] ↔ before.length + 1 < left ∧ attempt.isRetried = true := by
  induction invoked generalizing before with
  | exhausted =>
      obtain ⟨_, impossible⟩ := List.append_eq_nil_iff.mp split.symm
      cases impossible
  | stops makes final =>
      cases before with
      | nil =>
          obtain ⟨rfl, rfl⟩ := List.cons.inj split
          simp [final]
      | cons first before =>
          obtain ⟨_, behind⟩ := List.cons.inj split
          obtain ⟨_, impossible⟩ := List.append_eq_nil_iff.mp behind.symm
          cases impossible
  | retries makes again goesOn ih =>
      cases before with
      | nil =>
          obtain ⟨rfl, rfl⟩ := List.cons.inj split
          rw [ne_eq, goesOn.nil_iff, List.length_nil]
          simp only [again, and_true]
          omega
      | cons first before =>
          obtain ⟨_, behind⟩ := List.cons.inj split
          rw [ih behind, List.length_cons, Nat.add_lt_add_iff_right]

/-- An attempt that another one follows may be retried. -/
theorem retried (invoked : Invoked operation left last made trace result)
    {before after : List (Attempt D)} {attempt : Attempt D}
    (split : made = before ++ attempt :: after) (followed : after ≠ []) :
    attempt.isRetried = true :=
  ((invoked.goesOn_iff split).mp followed).2

/-- The result is that of the last attempt. -/
theorem returns (invoked : Invoked operation left last made trace result) {final : Attempt D}
    (ends : made.getLast? = some final) : result = final.result := by
  induction invoked with
  | exhausted => cases ends
  | stops makes isFinal =>
      cases ends
      rfl
  | @retries _ _ _ first later _ _ makes again goesOn ih =>
      cases later with
      | nil =>
          cases ends
          cases goesOn
          rfl
      | cons second later =>
          rw [List.getLast?_cons_cons] at ends
          exact ih ends

/-- Without an attempt the result is what the loop began with. -/
theorem unattempted (invoked : Invoked operation left last [] trace result) : result = last := by
  cases invoked
  rfl

end Invoked

/-! ## The invocations of a device -/

variable {run : Invocation D}

section Device

variable (client : ClientConfig)

/-- What the loop does after an attempt with as many passes left. -/
def resume (operation : Operation D) (left : Nat) (made : Attempt D) :
    Program (invokeSteps D) (Status × Option (Called D)) :=
  if made.isRetried then invokeLoop operation left made.result else return made.result

/-- What an invocation still has to do. -/
def remaining (run : Invocation D) : Program (invokeSteps D) (Status × Option (Called D)) :=
  let left := (attempts client run.operation).toNat - (run.attempt.toNat + 1)
  match run.phase with
  | .acquiring => attempt run.operation >>= resume run.operation left
  | .opening => openAndCall run.operation >>= resume run.operation left
  | .holding link | .calling link => callOn run.operation link >>= resume run.operation left
  | .releasing link called => giveBack link called >>= resume run.operation left
  | .returned status called => pure (status, called)

/-- An invocation that has not returned is in one of its attempts. -/
def Underway (run : Invocation D) : Prop :=
  match run.phase with
  | .returned _ _ => True
  | _ => run.attempt < attempts client run.operation

variable {client}

/-- The head of the loop is under way. -/
theorem underway_loop (run : Invocation D) (attempt : UInt64) (called : Option (Called D)) :
    Underway client (run.loop client attempt called) := by
  unfold Invocation.loop Underway
  by_cases more : attempt < attempts client run.operation
  · simp only [more, ↓reduceIte]
  · simp only [more, ↓reduceIte]

/-- At the head of the loop, what remains is the loop. -/
theorem remaining_loop {attempt : UInt64}
    (within : attempt.toNat ≤ (attempts client run.operation).toNat) (called : Option (Called D)) :
    remaining client (run.loop client attempt called) =
      invokeLoop run.operation ((attempts client run.operation).toNat - attempt.toNat)
        (run.last, called) := by
  unfold Invocation.loop remaining
  by_cases more : attempt < attempts client run.operation
  · have passes : (attempts client run.operation).toNat - attempt.toNat =
        (attempts client run.operation).toNat - (attempt.toNat + 1) + 1 := by
      have below := UInt64.lt_iff_toNat_lt.mp more
      omega
    rw [passes]
    simp only [more, ↓reduceIte]
    rfl
  · have none : (attempts client run.operation).toNat - attempt.toNat = 0 := by
      rw [UInt64.not_lt, UInt64.le_iff_toNat_le] at more
      omega
    rw [none]
    simp only [more, ↓reduceIte]
    rfl

/-- An attempt that failed without a connection is retried. -/
theorem remaining_fail (within : run.attempt < attempts client run.operation) {made : Attempt D}
    {message : Bytes} (failed : made.result = (⟨.unavailable, message⟩, none)) :
    remaining client (run.fail client message) = resume run.operation
      ((attempts client run.operation).toNat - (run.attempt.toNat + 1)) made := by
  have next := toNat_succ_of_lt within
  have again : made.isRetried = true := by
    rw [Attempt.isRetried, show made.status = ⟨.unavailable, message⟩ from congrArg Prod.fst failed]
    rfl
  have bound := UInt64.lt_iff_toNat_lt.mp within
  rw [resume, if_pos again, failed, Invocation.fail, remaining_loop (by rw [next]; exact bound), next]

/-- What remains after an attempt that has ended. -/
theorem remaining_conclude (within : run.attempt < attempts client run.operation) (link : Nat)
    (called : Called D) :
    remaining client (run.conclude client called) = resume run.operation
      ((attempts client run.operation).toNat - (run.attempt.toNat + 1)) (.called link called) := by
  unfold Invocation.conclude resume Attempt.isRetried
  by_cases ok : mapStatus called.status = .ok
  · simp only [ok, ↓reduceIte, Attempt.result, Attempt.status, reported, Status.success,
      isRetryableFailure,
      reduceCtorEq, decide_false, Bool.or_self, Bool.false_eq_true]
    rfl
  have left : (Attempt.called link called).status = ⟨mapStatus called.status, called.lastError⟩ :=
    if_neg ok
  rw [left, Attempt.result, left]
  simp only [if_neg ok]
  by_cases again : isRetryableFailure (mapStatus called.status) = true
  · have notAbsent : ¬ (mapStatus called.status = .notFound ∨
        isRetryableFailure (mapStatus called.status) = false) := by
      rw [not_or, Bool.not_eq_false]
      refine ⟨?_, again⟩
      intro absent
      rw [absent] at again
      cases again
    have next := toNat_succ_of_lt within
    have bound := UInt64.lt_iff_toNat_lt.mp within
    rw [if_pos again, if_neg notAbsent, remaining_loop (by rw [next]; exact bound), next]
    rfl
  · rw [if_neg again, if_pos (Or.inr (Bool.eq_false_iff.mpr again))]
    rfl

/-- An attempt that has ended is under way, or the invocation has returned. -/
theorem underway_conclude (run : Invocation D) (called : Called D) :
    Underway client (run.conclude client called) := by
  unfold Invocation.conclude
  simp only
  split
  · trivial
  · split
    · trivial
    · exact underway_loop _ _ _

variable [Double D] {config : Config D}

/-- Every action of an invocation is a step of its program or leaves it as it is. -/
theorem act_follows {world : World config} {pool pool' : Pool} {run run' : Invocation D}
    {action : Action} {label : Option (WorldLabel D)}
    (acted : act world client pool run run.phase action = some (pool', run', label))
    (underway : Underway client run) :
    Underway client run' ∧
      ∃ trace, (remaining client run).Follows trace (remaining client run') := by
  unfold Underway at underway
  unfold act at acted
  split at acted
  · rename_i phase
    rw [phase] at underway
    split at acted
    · rename_i link rest idle
      cases acted
      refine ⟨underway, [⟨.acquire, .idle link⟩], ?_⟩
      simp only [remaining, phase]
      exact .step _ _ _ (.refl _)
    · split at acted
      · cases acted
        refine ⟨underway, [⟨.acquire, .room⟩], ?_⟩
        simp only [remaining, phase]
        exact .step _ _ _ (.refl _)
      · cases acted
  · rename_i phase
    rw [phase] at underway
    split at acted
    · cases acted
      refine ⟨underway_loop _ _ _, [⟨.acquire, .timedOut⟩], ?_⟩
      have failed : (Attempt.timedOut : Attempt D).result = (⟨.unavailable, _⟩, none) := rfl
      rw [remaining_fail underway failed]
      simp only [remaining, phase]
      exact .step _ _ _ (.refl _)
    · cases acted
  · rename_i phase
    rw [phase] at underway
    cases acted
    refine ⟨underway, [⟨.open, .ok world.links.length⟩], ?_⟩
    simp only [remaining, phase]
    exact .step _ _ _ (.refl _)
  · rename_i failure phase
    rw [phase] at underway
    cases acted
    refine ⟨underway_loop _ _ _, [⟨.open, .error failure⟩], ?_⟩
    have failed : (Attempt.unopened failure : Attempt D).result = (⟨.unavailable, _⟩, none) := rfl
    rw [remaining_fail underway failed]
    simp only [remaining, phase]
    exact .step _ _ _ (.refl _)
  · rename_i link phase
    rw [phase] at underway
    split at acted
    · rename_i message refused
      cases acted
      refine ⟨underway, [⟨.call link run.operation,
        ⟨.invalidRequest, emptyResponse, message, true⟩⟩], ?_⟩
      simp only [remaining, phase]
      exact .step _ _ _ (.refl _)
    · cases acted
      refine ⟨underway, [], ?_⟩
      simp only [remaining, phase]
      exact .refl _
  · rename_i link phase
    rw [phase] at underway
    split at acted
    · rename_i called outcome
      cases acted
      refine ⟨underway, [⟨.call link run.operation, run.operation.settle called⟩], ?_⟩
      simp only [remaining, phase]
      exact .step _ _ _ (.refl _)
    · cases acted
  · rename_i link called phase
    rw [phase] at underway
    have goes : ∃ trace, (remaining client run).Follows trace
        (remaining client (run.conclude client called)) := by
      refine ⟨[⟨.release link (!marksFailed (mapStatus called.status)), ()⟩], ?_⟩
      rw [remaining_conclude underway link called]
      simp only [remaining, phase]
      exact .step _ _ _ (.refl _)
    split at acted
    · cases acted
      exact ⟨underway_conclude run called, goes⟩
    · cases acted
      exact ⟨underway_conclude run called, goes⟩
  · cases acted

variable (client) in
/-- What the actions of one invocation lead to, whatever happens to the pool and to the
connections in between. -/
inductive Acted (config : Config D) (operation : Operation D) : Invocation D → Prop where
  | start : Acted config operation (.start client operation)
  | acts {run run' : Invocation D} {world : World config} {pool pool' : Pool} {action : Action}
      {label : Option (WorldLabel D)} (earlier : Acted config operation run)
      (acted : act world client pool run run.phase action = some (pool', run', label)) :
      Acted config operation run'

/-- An invocation follows the program of its method. -/
theorem acted_follows {operation : Operation D} (acted : Acted client config operation run) :
    Underway client run ∧
      ∃ trace, (invoke client operation).Follows trace (remaining client run) := by
  induction acted with
  | start =>
      refine ⟨underway_loop _ _ _, [], ?_⟩
      rw [Invocation.start, remaining_loop (Nat.zero_le _)]
      exact .refl _
  | acts earlier acted ih =>
      obtain ⟨underway, trace, follows⟩ := ih
      obtain ⟨still, more, goesOn⟩ := act_follows acted underway
      exact ⟨still, _, follows.trans goesOn⟩

/-- What an invocation returns comes from attempts of the program. -/
theorem invoked_of_returned {operation : Operation D} (acted : Acted client config operation run)
    {status : Status} {called : Option (Called D)}
    (returned : run.phase = .returned status called) :
    ∃ made trace, Invoked operation (attempts client operation).toNat
      (⟨.unavailable, text "no attempt was made"⟩, none) made trace (status, called) := by
  obtain ⟨_, trace, follows⟩ := acted_follows acted
  simp only [remaining, returned] at follows
  obtain ⟨made, invoked⟩ := (traces_invokeLoop _ _).of_follows follows
  exact ⟨made, trace, invoked⟩

end Device

end Lrd.Sdk
