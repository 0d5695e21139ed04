import Lrd.Sdk.Pool

/-!
# Attempts and answers

An invocation makes no more exchanges than it has attempts (`Bounded`), and what it returns
as a success was answered in one of its exchanges (`Evident`), in every interleaving
(`run_recorded`).
-/

namespace Lrd.Sdk

open Foundation Rank Proto Daemon Lrd.Client Lrd.Client.World

variable {D : Type} [Double D] {config : Config D}

/-! ## Attempts -/

variable {client : ClientConfig} {run : Invocation D} {world : World config}

section Attempts

omit [Double D]

/-- An invocation that has not returned is in one of its attempts, and each attempt makes at
most one exchange. -/
def Bounded (client : ClientConfig) (run : Invocation D) : Prop :=
  match run.phase with
  | .acquiring | .opening | .holding _ =>
      run.exchanges.length ≤ run.attempt.toNat ∧ run.attempt < attempts client run.operation
  | .calling _ | .releasing _ _ =>
      run.exchanges.length ≤ run.attempt.toNat + 1 ∧ run.attempt < attempts client run.operation
  | .returned _ _ => run.exchanges.length ≤ (attempts client run.operation).toNat

/-- The head of the loop has made no more exchanges than attempts. -/
theorem bounded_loop {attempt : UInt64} (made : run.exchanges.length ≤ attempt.toNat)
    (within : attempt.toNat ≤ (attempts client run.operation).toNat) (called : Option (Called D)) :
    Bounded client (run.loop client attempt called) := by
  unfold Invocation.loop
  by_cases more : attempt < attempts client run.operation
  · simp only [Bounded, more, ↓reduceIte]
    exact ⟨made, trivial⟩
  · simp only [Bounded, more, ↓reduceIte]
    exact made.trans within

/-- The next attempt is within the bound. -/
theorem bounded_next (made : run.exchanges.length ≤ run.attempt.toNat + 1)
    (within : run.attempt < attempts client run.operation) (last : Status)
    (called : Option (Called D)) :
    Bounded client (Invocation.loop client { run with last } (run.attempt + 1) called) := by
  have next := toNat_succ_of_lt within
  apply bounded_loop
  · rw [next]
    exact made
  · rw [next]
    exact UInt64.lt_iff_toNat_lt.mp within

/-- An attempt that ends leaves the bound. -/
theorem bounded_conclude (made : run.exchanges.length ≤ run.attempt.toNat + 1)
    (within : run.attempt < attempts client run.operation) (called : Called D) :
    Bounded client (run.conclude client called) := by
  have enough := made.trans (UInt64.lt_iff_toNat_lt.mp within)
  unfold Invocation.conclude
  simp only
  split
  · exact enough
  · split
    · exact enough
    · exact bounded_next made within _ _

/-- An invocation makes at most as many exchanges as it has attempts. -/
theorem Bounded.length_le (bounded : Bounded client run) :
    run.exchanges.length ≤ (attempts client run.operation).toNat := by
  unfold Bounded at bounded
  cases phase : run.phase with
  | acquiring | opening | holding _ =>
      rw [phase] at bounded
      exact bounded.1.trans (UInt64.lt_iff_toNat_lt.mp bounded.2).le
  | calling _ | releasing _ _ =>
      rw [phase] at bounded
      exact bounded.1.trans (UInt64.lt_iff_toNat_lt.mp bounded.2)
  | returned _ _ =>
      rw [phase] at bounded
      exact bounded

end Attempts

/-- Every action keeps the bound. -/
theorem Acts.bounded {pool pool' : Pool} {run changed : Invocation D}
    {label : Option (WorldLabel D)} (acts : Acts world client pool run pool' changed label)
    (bounded : Bounded client run) :
    Bounded client changed := by
  unfold Bounded at bounded
  cases acts with
  | take link rest phase idle =>
      rw [phase] at bounded
      exact bounded
  | reserve phase idle room =>
      rw [phase] at bounded
      exact bounded
  | timeOut phase message =>
      rw [phase] at bounded
      exact bounded_next (bounded.1.trans (Nat.le_succ _)) bounded.2 _ none
  | opened phase =>
      rw [phase] at bounded
      exact bounded
  | openFails phase message =>
      rw [phase] at bounded
      exact bounded_next (bounded.1.trans (Nat.le_succ _)) bounded.2 _ none
  | refused link message phase =>
      rw [phase] at bounded
      exact ⟨bounded.1.trans (Nat.le_succ _), bounded.2⟩
  | called link phase =>
      rw [phase] at bounded
      refine ⟨?_, bounded.2⟩
      rw [List.length_append, List.length_singleton]
      exact Nat.succ_le_succ bounded.1
  | finished link called phase outcome =>
      rw [phase] at bounded
      exact bounded
  | kept link called phase healthy connected =>
      rw [phase] at bounded
      exact bounded_conclude bounded.1 bounded.2 called
  | dropped link called phase =>
      rw [phase] at bounded
      exact bounded_conclude bounded.1 bounded.2 called

/-! ## Answers -/

section Answers

omit [Double D]

/-- The outcome is what the method made of a call that returned in one of the invocation's
exchanges. -/
def Answered (world : World config) (run : Invocation D) (outcome : Called D) : Prop :=
  ∃ place ∈ run.exchanges, ∃ found request called, world.links[place.1]? = some found ∧
    found.finished[place.2]? = some (request, called) ∧ request.body = run.operation.body ∧
    outcome = run.operation.settle called

/-- A success was answered. -/
def Evident (world : World config) (run : Invocation D) : Prop :=
  match run.phase with
  | .releasing _ outcome => outcome.status = .ok → Answered world run outcome
  | .returned status called => status.code = .ok →
      ∃ outcome, called = some outcome ∧ outcome.status = .ok ∧ Answered world run outcome
  | _ => True

/-- The head of the loop has no success to show for. -/
theorem evident_loop (failed : run.last.code ≠ .ok) (attempt : UInt64)
    (called : Option (Called D)) :
    Evident world (run.loop client attempt called) := by
  unfold Invocation.loop
  by_cases more : attempt < attempts client run.operation
  · simp only [Evident, more, ↓reduceIte]
  · simp only [Evident, more, ↓reduceIte]
    exact fun success => absurd success failed

/-- A failure is evidence of nothing. -/
theorem evident_fail (world : World config) (client : ClientConfig) (run : Invocation D)
    (message : Bytes) : Evident world (run.fail client message) := by
  apply evident_loop
  intro success
  cases success

/-- Only a success is reported as one. -/
theorem mapStatus_ok {status : CallStatus} : mapStatus status = .ok ↔ status = .ok := by
  cases status with
  | ok => exact Iff.intro (fun _ => rfl) fun _ => rfl
  | _ => exact Iff.intro nofun nofun

/-- An attempt that ends well has been answered. -/
theorem evident_conclude {outcome : Called D}
    (answered : outcome.status = .ok → Answered world run outcome) :
    Evident world (run.conclude client outcome) := by
  unfold Invocation.conclude
  simp only
  split
  · rename_i success
    have ok := mapStatus_ok.mp success
    exact fun _ => ⟨outcome, rfl, ok, answered ok⟩
  · rename_i failed
    split
    · exact fun success => absurd success failed
    · exact evident_loop failed _ _

end Answers

/-- An answer stays one. -/
theorem Answered.elim {outcome : Called D} (answered : Answered world run outcome)
    (label : Option (WorldLabel D)) :
    Answered (label.elim world world.step) run outcome := by
  cases label with
  | none => exact answered
  | some label =>
      obtain ⟨place, member, found, request, called, named, returned, rest⟩ := answered
      obtain ⟨moved, here, more, split⟩ := step_grows named label
      refine ⟨place, member, moved, request, called, here, ?_, rest⟩
      rw [split]
      exact found_append returned _

/-- Evidence stays evidence. -/
theorem Evident.elim (evident : Evident world run) (label : Option (WorldLabel D)) :
    Evident (label.elim world world.step) run := by
  unfold Evident at evident ⊢
  cases phase : run.phase with
  | releasing link outcome =>
      rw [phase] at evident
      exact fun ok => (evident ok).elim label
  | returned status called =>
      rw [phase] at evident
      intro success
      obtain ⟨outcome, same, ok, answered⟩ := evident success
      exact ⟨outcome, same, ok, answered.elim label⟩
  | _ => trivial

omit [Double D] in
/-- The call that has returned to its method is the last of its link. -/
theorem answered_of_inCall {link position : Nat} {called : Called D}
    (last : run.exchanges.getLast? = some (link, position))
    (inCall : InCall world link position run.operation.body)
    (outcome : finishedCall world link = some called) :
    Answered world run (run.operation.settle called) := by
  obtain ⟨found, request, named, own, under⟩ := inCall
  obtain ⟨other, here, rest⟩ := resting_of_finishedCall outcome
  obtain rfl := Option.some.inj (named.symm.trans here)
  rcases under with ⟨asking, _⟩ | ⟨_, earlier, returned, count, split⟩
  · rw [rest] at asking
    cases asking
  · have same : returned = called := by
      unfold finishedCall at outcome
      rw [named] at outcome
      simp only [split, List.getLast?_concat, Option.map_some] at outcome
      split at outcome
      · exact Option.some.inj outcome
      · exact Option.some.inj outcome
      · cases outcome
    refine ⟨(link, position), List.mem_of_getLast? last, found, request, called, named, ?_, own, rfl⟩
    rw [split, ← same, ← count]
    exact List.getElem?_concat_length

/-- Every action keeps the evidence. -/
theorem Acts.evident {pool pool' : Pool} {run changed : Invocation D}
    {label : Option (WorldLabel D)} (acts : Acts world client pool run pool' changed label)
    (evident : Evident world run) (own : Own world pool run) :
    Evident (label.elim world world.step) changed := by
  unfold Evident at evident
  cases acts with
  | take link rest phase idle => trivial
  | reserve phase idle room => trivial
  | opened phase => trivial
  | called link phase => trivial
  | timeOut phase message | openFails phase message => exact evident_fail ..
  | refused link message phase => exact nofun
  | finished link called phase outcome =>
      intro _
      obtain ⟨position, last, inCall⟩ := own.relies phase rfl
      exact answered_of_inCall last inCall outcome
  | kept link called phase healthy connected =>
      rw [phase] at evident
      exact evident_conclude evident
  | dropped link called phase =>
      rw [phase] at evident
      exact evident_conclude fun ok => (evident ok).elim (some (.link link .callerCloses))

/-! ## Records of a device -/

omit [Double D] in
/-- An invocation after another one was replaced. -/
theorem Device.Invokes.of_replace {device : Device config} {number invocation other : Nat}
    {found changed : Client D} (had : device.clients[other]? = some found)
    (invokes : (device.replace world other changed).Invokes number invocation client run) :
    (number = other ∧ changed.config = client ∧ changed.invocations[invocation]? = some run) ∨
      device.Invokes number invocation client run := by
  obtain ⟨own, here, same, made⟩ := invokes
  obtain ⟨inside, _⟩ := List.getElem?_eq_some_iff.mp had
  by_cases this : other = number
  · subst this
    obtain rfl := Option.some.inj ((List.getElem?_set_self inside).symm.trans here)
    exact Or.inl ⟨rfl, same, made⟩
  · exact Or.inr ⟨own, (List.getElem?_set_ne this).symm.trans here, same, made⟩

/-- An invocation was there before, or it has just begun, or it has just acted. -/
theorem invoked_before {device : Device config} {label : DeviceLabel D} {number invocation : Nat}
    (invokes : (device.step label).Invokes number invocation client run) :
    device.Invokes number invocation client run ∨
    (∃ operation, run = .start client operation) ∨
    ∃ before pool pool' own, device.Invokes number invocation client before ∧
      (∃ found ∈ device.clients, found.pool = pool ∧ before ∈ found.invocations) ∧
      Acts device.world client pool before pool' run own ∧
      (device.step label).world = own.elim device.world device.world.step := by
  have moves := device.moves label
  generalize device.step label = after at moves invokes ⊢
  cases moves with
  | stays => exact Or.inl invokes
  | connects _ =>
      obtain ⟨found, here, same, made⟩ := invokes
      rcases found_snoc here with old | ⟨_, rfl⟩
      · exact Or.inl ⟨found, old, same, made⟩
      · cases made
  | @starts other found had operation =>
      rcases invokes.of_replace had with ⟨rfl, same, made⟩ | old
      · rcases found_snoc made with old | ⟨_, rfl⟩
        · exact Or.inl ⟨found, had, same, old⟩
        · rw [← same]
          exact Or.inr (Or.inl ⟨operation, rfl⟩)
      · exact Or.inl old
  | @acts other acting found before changed pool own had made acts =>
      rcases invokes.of_replace had with ⟨rfl, rfl, here⟩ | old
      · by_cases this : acting = invocation
        · subst this
          obtain ⟨inside, _⟩ := List.getElem?_eq_some_iff.mp made
          obtain rfl := Option.some.inj ((List.getElem?_set_self inside).symm.trans here)
          exact Or.inr (Or.inr ⟨before, found.pool, pool, own, ⟨found, had, rfl, made⟩,
            ⟨found, List.mem_of_getElem? had, rfl, List.mem_of_getElem? made⟩, acts, rfl⟩)
        · exact Or.inl ⟨found, had, rfl, (List.getElem?_set_ne this).symm.trans here⟩
      · exact Or.inl old
  | dials => exact Or.inl invokes
  | passes _ _ => exact Or.inl invokes

/-- Every invocation keeps to its attempts, and its successes were answered. -/
theorem run_recorded (config : Config D) (labels : List (DeviceLabel D)) {number invocation : Nat}
    (invokes : (Device.run config labels).Invokes number invocation client run) :
    Bounded client run ∧ Evident (Device.run config labels).world run := by
  induction labels using List.reverseRecOn generalizing run with
  | nil =>
      obtain ⟨_, found, _⟩ := invokes
      cases found
  | append_singleton labels label ih =>
      rw [Device.run_snoc] at invokes ⊢
      rcases invoked_before invokes with
        old | ⟨operation, rfl⟩ | ⟨before, pool, pool', own, had, ⟨found, member, rfl, made⟩, acts, world⟩
      · obtain ⟨bounded, evident⟩ := ih old
        obtain ⟨own, world⟩ := step_world (Device.run config labels) label
        rw [world]
        exact ⟨bounded, evident.elim own⟩
      · refine ⟨bounded_loop (Nat.zero_le _) (Nat.zero_le _) none, evident_loop ?_ _ _⟩
        intro success
        cases success
      · obtain ⟨bounded, evident⟩ := ih had
        rw [world]
        exact ⟨acts.bounded bounded,
          acts.evident evident ((run_kept config labels).own member made)⟩

end Lrd.Sdk
