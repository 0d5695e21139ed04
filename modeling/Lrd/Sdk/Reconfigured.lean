import Lrd.Sdk.Owners

/-!
# Clients with other configurations

What a client does depends on its configuration in few places: whether there is room for
another connection, and whether another attempt is left. Where neither is decided, or where
both decisions come out the same, a device behaves as if the client had another
configuration (`Device.foldl_reconfigure`). So a run that was found for one configuration
is one for others too.
-/

namespace Lrd.Sdk

open Foundation Common Rank Proto Daemon Lrd.Client

/-- A client that may have a connection and may try a second time. -/
structure ClientConfig.Retries (client : ClientConfig) : Prop where
  connects : client.maxConnections ≠ 0
  twice : 1 < client.maxRetries + 1

/-- The client with another configuration. -/
def Client.reconfigure {D : Type} (client : Client D) (other : ClientConfig) : Client D :=
  { client with config := other }

section Attempts

variable {D : Type}

/-- Whether a method is retried under every configuration that retries. -/
def alwaysRetried : Operation D → Bool
  | .putItem _ => true
  | _ => false

/-- A client that retries makes a second attempt. -/
theorem one_lt_attempts {client : ClientConfig} (retries : client.Retries)
    {operation : Operation D} (retried : alwaysRetried operation = true) :
    1 < attempts client operation := by
  cases operation with
  | putItem item => exact retries.twice
  | _ => cases retried

/-- A client that retries makes a first attempt at every method. -/
theorem start_eq {client : ClientConfig} (retries : client.Retries) (operation : Operation D) :
    Invocation.start client operation =
      ⟨operation, 0, ⟨.unavailable, text "no attempt was made"⟩, [], .acquiring⟩ := by
  have first : 0 < attempts client operation := by
    unfold attempts
    split
    · exact UInt64.lt_trans (by decide : (0 : UInt64) < 1) retries.twice
    · decide
  simp only [Invocation.start, Invocation.loop, first, ↓reduceIte]

/-- After a first attempt clients that retry go on alike. -/
theorem conclude_eq {client other : ClientConfig} (retries : client.Retries)
    (also : other.Retries) {run : Invocation D} (first : run.attempt = 0)
    (retried : alwaysRetried run.operation = true) (called : Called D) :
    run.conclude client called = run.conclude other called := by
  have left : run.attempt + 1 < attempts client run.operation := by
    rw [first]
    exact one_lt_attempts retries retried
  have right : run.attempt + 1 < attempts other run.operation := by
    rw [first]
    exact one_lt_attempts also retried
  simp only [Invocation.conclude, Invocation.loop, left, right]

end Attempts

variable {D : Type} [Double D] {config : Config D}

/-- Whether an action does not look at the configuration, given that the client retries. -/
def indifferentAct (pool : Pool) (run : Invocation D) : Action → Bool
  | .acquire => !pool.idle.isEmpty || pool.total == 0
  | .timeOut | .openFails _ => false
  | .release => run.attempt == 0 && alwaysRetried run.operation
  | _ => true

/-- Clients that retry act alike where the number of attempts does not matter. -/
theorem act_eq (world : World config) {client other : ClientConfig} (retries : client.Retries)
    (also : other.Retries) {pool : Pool} {run : Invocation D} {action : Action}
    (indifferent : indifferentAct pool run action = true) :
    act world client pool run run.phase action = act world other pool run run.phase action := by
  cases action with
  | acquire =>
      cases run.phase with
      | acquiring =>
          cases idle : pool.idle with
          | cons link rest => simp only [act, idle]
          | nil =>
              simp only [indifferentAct, idle, List.isEmpty_nil, Bool.not_true, Bool.false_or,
                beq_iff_eq] at indifferent
              have left : pool.total < client.maxConnections := by
                rw [indifferent]
                exact UInt64.pos_iff_ne_zero.mpr retries.connects
              have right : pool.total < other.maxConnections := by
                rw [indifferent]
                exact UInt64.pos_iff_ne_zero.mpr also.connects
              simp only [act, idle, left, right]
      | _ => rfl
  | timeOut => cases indifferent
  | openFails failure => cases indifferent
  | release =>
      simp only [indifferentAct, Bool.and_eq_true, beq_iff_eq] at indifferent
      cases run.phase with
      | releasing link called =>
          simp only [act, conclude_eq retries also indifferent.1 indifferent.2]
      | _ => rfl
  | _ =>
      cases run.phase with
      | _ => rfl

namespace Device

/-- The device with another configuration for one of its clients. -/
def reconfigure (device : Device config) (number : Nat) (client : ClientConfig) : Device config :=
  { device with clients := device.clients.modify number fun found => found.reconfigure client }

omit [Double D] in
@[simp] theorem world_reconfigure (device : Device config) (number : Nat) (client : ClientConfig) :
    (device.reconfigure number client).world = device.world := rfl

/-- The daemon does not look at configurations of clients. -/
theorem advance_reconfigure (device : Device config) (number : Nat) (client : ClientConfig)
    (ticket : Nat) (now : Timestamp) :
    (device.reconfigure number client).step (.advance ticket now) =
      (device.step (.advance ticket now)).reconfigure number client := rfl

/-- Whether a step does not depend on the configuration of a client that retries. -/
def indifferent (device : Device config) (number : Nat) : DeviceLabel D → Bool
  | .connect _ => decide (number < device.clients.length)
  | .act other invocation action =>
      if other = number then
        match device.clients[other]? with
        | none => true
        | some client =>
            match client.invocations[invocation]? with
            | none => true
            | some run => indifferentAct client.pool run action
      else true
  | _ => true

/-- Whether no step of a run depends on the configuration. -/
def indifferentAlong (number : Nat) : Device config → List (DeviceLabel D) → Bool
  | _, [] => true
  | device, label :: rest =>
      device.indifferent number label && indifferentAlong number (device.step label) rest

section Lists

variable {α : Type}

/-- Changing an entry before or after replacing it comes to the same. -/
theorem set_modify_self (list : List α) (index : Nat) (change : α → α) (entry : α) :
    (list.modify index change).set index (change entry) =
      (list.set index entry).modify index change := by
  apply List.ext_getElem?
  intro place
  simp only [List.getElem?_set, List.getElem?_modify, List.length_modify]
  by_cases here : index = place
  · simp only [here, ↓reduceIte]
    split
    · rfl
    · rfl
  · simp only [here, ↓reduceIte]

/-- Changing one entry and setting another. -/
theorem set_modify_of_ne (list : List α) {index place : Nat} (apart : place ≠ index)
    (change : α → α) (entry : α) :
    (list.modify index change).set place entry = (list.set place entry).modify index change := by
  apply List.ext_getElem?
  intro found
  simp only [List.getElem?_set, List.getElem?_modify, List.length_modify]
  by_cases here : place = found
  · subst here
    simp only [↓reduceIte, Ne.symm apart]
    split
    · rfl
    · rfl
  · simp only [here, ↓reduceIte]

/-- Changing an entry of a longer list. -/
theorem modify_append {list : List α} {index : Nat} (inside : index < list.length)
    (change : α → α) (more : List α) :
    (list ++ more).modify index change = list.modify index change ++ more := by
  apply List.ext_getElem?
  intro found
  simp only [List.getElem?_append, List.getElem?_modify, List.length_modify]
  by_cases here : index = found
  · subst here
    simp only [inside, ↓reduceIte]
  · simp only [here, ↓reduceIte, Option.map_eq_map, Option.map_id']

end Lists

/-- Some client has the number, and its configuration retries. -/
def Retrying (device : Device config) (number : Nat) : Prop :=
  ∃ found, device.clients[number]? = some found ∧ found.config.Retries

omit [Double D] in
/-- Replacing a client by one with the same configuration. -/
theorem Retrying.replace {device : Device config} {number other : Nat}
    (retrying : device.Retrying number) {world : World config} {client changed : Client D}
    (found : device.clients[other]? = some client) (same : changed.config = client.config) :
    (device.replace world other changed).Retrying number := by
  obtain ⟨own, here, retries⟩ := retrying
  by_cases isOther : other = number
  · subst isOther
    obtain rfl := Option.some.inj (here.symm.trans found)
    refine ⟨changed, ?_, same ▸ retries⟩
    exact List.getElem?_set_self (List.getElem?_eq_some_iff.mp here).1
  · exact ⟨own, (List.getElem?_set_ne isOther).trans here, retries⟩

/-- A client keeps its configuration. -/
theorem Retrying.step {device : Device config} {number : Nat} (retrying : device.Retrying number)
    (label : DeviceLabel D) : (device.step label).Retrying number := by
  have moves := device.moves label
  generalize device.step label = after at moves ⊢
  cases moves with
  | stays => exact retrying
  | connects _ =>
      obtain ⟨own, here, retries⟩ := retrying
      exact ⟨own, List.getElem?_append_left (List.getElem?_eq_some_iff.mp here).1 ▸ here, retries⟩
  | starts found operation => exact retrying.replace found rfl
  | acts found made acts => exact retrying.replace found rfl
  | dials => exact retrying
  | passes _ _ => exact retrying

omit [Double D] in
/-- What a client does alike under another configuration it does in the whole device. -/
theorem replace_reconfigure (device : Device config) (number : Nat) (client : ClientConfig)
    (world : World config) (changed : Client D) :
    (device.reconfigure number client).replace world number (changed.reconfigure client) =
      (device.replace world number changed).reconfigure number client :=
  congrArg (Device.mk world · device.outside) (set_modify_self ..)

omit [Double D] in
/-- Replacing another client. -/
theorem replace_reconfigure_of_ne (device : Device config) {number other : Nat}
    (apart : other ≠ number) (client : ClientConfig) (world : World config) (changed : Client D) :
    (device.reconfigure number client).replace world other changed =
      (device.replace world other changed).reconfigure number client :=
  congrArg (Device.mk world · device.outside) (set_modify_of_ne _ apart ..)

omit [Double D] in
/-- The client itself. -/
theorem getElem?_reconfigure (device : Device config) (number : Nat) (client : ClientConfig) :
    (device.reconfigure number client).clients[number]? =
      device.clients[number]?.map fun found => found.reconfigure client := by
  simp only [reconfigure, List.getElem?_modify, ↓reduceIte]
  rfl

omit [Double D] in
/-- Other clients. -/
theorem getElem?_reconfigure_of_ne (device : Device config) {number other : Nat}
    (apart : other ≠ number) (client : ClientConfig) :
    (device.reconfigure number client).clients[other]? = device.clients[other]? := by
  simp only [reconfigure, List.getElem?_modify, Ne.symm apart, ↓reduceIte]
  exact Option.map_id' ..

section Steps

variable {device : Device config} {number : Nat} (retrying : device.Retrying number)
  {client : ClientConfig} (retries : client.Retries)
include retrying retries

/-- An invocation starts alike. -/
theorem start_reconfigure (other : Nat) (operation : Operation D) :
    (device.reconfigure number client).step (.start other operation) =
      (device.step (.start other operation)).reconfigure number client := by
  obtain ⟨own, here, also⟩ := retrying
  by_cases isOther : other = number
  · subst isOther
    simp only [step, getElem?_reconfigure, here, Option.map_some]
    rw [start_eq also, ← replace_reconfigure]
    simp only [Client.reconfigure, start_eq retries]
    rfl
  · simp only [step, getElem?_reconfigure_of_ne device isOther]
    cases device.clients[other]? with
    | none => rfl
    | some found => exact replace_reconfigure_of_ne device isOther ..

/-- An invocation acts alike where the configuration is not looked at. -/
theorem act_reconfigure {other invocation : Nat} {action : Action}
    (alike : device.indifferent number (.act other invocation action) = true) :
    (device.reconfigure number client).act other invocation action =
      (device.act other invocation action).reconfigure number client := by
  obtain ⟨own, here, also⟩ := retrying
  by_cases isOther : other = number
  · subst isOther
    simp only [indifferent, here, ↓reduceIte] at alike
    simp only [act, getElem?_reconfigure, here, Option.map_some, world_reconfigure,
      Client.reconfigure]
    cases made : own.invocations[invocation]? with
    | none => rfl
    | some run =>
        simp only [made] at alike ⊢
        have same := act_eq device.world retries also alike
        rw [same]
        cases Sdk.act device.world own.config own.pool run run.phase action with
        | none => rfl
        | some result =>
            obtain ⟨pool, changed, label⟩ := result
            exact replace_reconfigure device other client _ (own.replace pool invocation changed)
  · simp only [act, getElem?_reconfigure_of_ne device isOther, world_reconfigure]
    cases device.clients[other]? with
    | none => rfl
    | some found =>
        dsimp only
        cases found.invocations[invocation]? with
        | none => rfl
        | some run =>
            dsimp only
            cases Sdk.act device.world found.config found.pool run run.phase action with
            | none => rfl
            | some result =>
                obtain ⟨pool, changed, label⟩ := result
                exact replace_reconfigure_of_ne device isOther ..

/-- A step that does not look at the configuration of a client. -/
theorem step_reconfigure {label : DeviceLabel D} (alike : device.indifferent number label = true) :
    (device.reconfigure number client).step label =
      (device.step label).reconfigure number client := by
  cases label with
  | connect another =>
      simp only [indifferent, decide_eq_true_eq] at alike
      by_cases none : another.maxConnections = 0
      · simp only [step, Client.connect, none, ↓reduceIte]
      · simp only [step, Client.connect, none, ↓reduceIte, reconfigure, modify_append alike]
  | start other operation => exact start_reconfigure retrying retries other operation
  | act other invocation action => exact act_reconfigure retrying retries alike
  | dial => rfl
  | outside link label =>
      by_cases own : link ∈ device.outside
      · simp only [step, reconfigure, own, ↓reduceIte]
      · simp only [step, reconfigure, own, ↓reduceIte]
  | traffic link label =>
      by_cases traffic : label.isTraffic
      · simp only [step, reconfigure, traffic, ↓reduceIte]
      · simp only [step, reconfigure, traffic, Bool.false_eq_true, ↓reduceIte]
  | advance ticket now => exact device.advance_reconfigure number client ticket now
  | restart => rfl

end Steps

/-- A run that does not look at the configuration of a client is one for other
configurations too. -/
theorem foldl_reconfigure {device : Device config} {number : Nat}
    (retrying : device.Retrying number) {client : ClientConfig} (retries : client.Retries)
    {labels : List (DeviceLabel D)} (alike : indifferentAlong number device labels = true) :
    labels.foldl step (device.reconfigure number client) =
      (labels.foldl step device).reconfigure number client := by
  induction labels generalizing device with
  | nil => rfl
  | cons label rest ih =>
      rw [indifferentAlong, Bool.and_eq_true] at alike
      rw [List.foldl_cons, List.foldl_cons, step_reconfigure retrying retries alike.1]
      exact ih (retrying.step label) alike.2

end Device

end Lrd.Sdk
