import Lrd.Daemon.Serving
import Lrd.Foundation.Layers

/-!
# Connections and calls

Every worker serves one connection: it reads frames, executes the requests it decodes and
sends the replies, with whatever the socket makes of its reads and writes. Workers interleave
at the grain of the handler's steps. What a worker does is a session of calls of `handle`
(`session`), so that every interleaving of connections, over any bytes and any failures of
the sockets, is an interleaving of calls of `handle` whose requests were all decoded
(`connections_refine_calls`). This is what the results about interleaved calls assume.
-/

namespace Lrd.Daemon

open Foundation Rank Net Proto BinaryCodec

/-! ## Sessions -/

section Session

variable {D : Type} [BitCast D]

/-- What a worker asks of the handler while it serves a connection, given what its socket
does. -/
def session (socket : Incoming × Outgoing) :
    Program (Signature.calls (Request D) (Response D)) (Incoming × Outgoing) :=
  serveConnection (fun request => Program.call request) socket.1 socket.2

/-- The loop over calls, with the handler in their place, is the loop of `serve_connection`. -/
theorem serveLoop_inline {S : Signature} (handle : Request D → Program S (Response D)) (fuel : Nat)
    (buffer : Bytes) (incoming : Incoming) (outgoing : Outgoing) :
    (serveLoop (m := Program (Signature.calls (Request D) (Response D)))
      (fun request => Program.call request) fuel buffer incoming outgoing).inline handle =
        serveLoop handle fuel buffer incoming outgoing := by
  induction fuel generalizing buffer incoming outgoing with
  | zero => rfl
  | succ fuel ih =>
      rw [serveLoop, serveLoop]
      simp only
      split
      · rfl
      · cases (receive (readFrame buffer incoming).2.1 : Received D) with
        | hangUp error => rfl
        | reject rejection =>
            simp only
            split
            · rfl
            · exact ih ..
        | execute request =>
            refine congrArg (handle request >>= ·) (funext fun response => ?_)
            simp only [Program.bind]
            split
            · rfl
            · exact ih ..

/-- A session with the handler in the place of its calls is `serve_connection`. -/
theorem session_inline {S : Signature} (handle : Request D → Program S (Response D))
    (socket : Incoming × Outgoing) :
    (session socket).inline handle = serveConnection handle socket.1 socket.2 :=
  serveLoop_inline ..

/-- A worker asks only for what it has decoded. -/
theorem uses_serveLoop (fuel : Nat) (buffer : Bytes) (incoming : Incoming) (outgoing : Outgoing) :
    (serveLoop (m := Program (Signature.calls (Request D) (Response D)))
      (fun request => Program.call request) fuel buffer incoming outgoing).Uses
        fun request => ∃ body out, decodeRequest body out = (.none, request) := by
  induction fuel generalizing buffer incoming outgoing with
  | zero => exact trivial
  | succ fuel ih =>
      rw [serveLoop]
      simp only
      split
      · exact trivial
      · cases received : (receive (readFrame buffer incoming).2.1 : Received D) with
        | hangUp error => exact trivial
        | reject rejection =>
            simp only
            split
            · exact trivial
            · exact ih ..
        | execute request =>
            refine ⟨⟨(readFrame buffer incoming).2.1, ⟨0, defaultRequestBody⟩, ?_⟩,
              fun response => ?_⟩
            · unfold receive at received
              split at received
              · rename_i decoded accepted
                cases received
                exact accepted
              · cases received
              · cases received
            · simp only [Program.bind]
              split
              · exact trivial
              · exact ih ..

end Session

/-! ## Workers -/

variable {D : Type} [Double D]

/-- The workers, each with a connection: the bytes that arrive on it and how its socket takes
what is sent. -/
def connections (config : Config D) :
    Concurrent (steps config) (State config) Timestamp (Incoming × Outgoing)
      (Incoming × Outgoing) where
  program socket := serveConnection handle socket.1 socket.2
  perform := perform

/-- The workers are sessions of calls. -/
theorem connections_eq (config : Config D) :
    connections config = System.sessions (workers config) session := by
  have programs : (connections config).program =
      fun socket => (session socket).inline (workers config).program :=
    funext fun socket => (session_inline handle socket).symm
  exact congrArg (Concurrent.mk · perform) programs

/-- On a socket that does not fail, a worker that has ended has sent what the bytes that came
in ask for, given the responses it got. -/
theorem sent_of_follows {socket final : Incoming × Outgoing}
    {trace : List (Event (Signature.calls (Request D) (Response D)))}
    (follows : (session socket).Follows trace (.done final)) (steady : socket.1.Steady)
    (willing : Willing socket.2.answers) :
    ∃ sent, final.2.sent = socket.2.sent ++ sent ∧
      (replies (fun request => Program.call request) socket.1.bytes :
        Program (Signature.calls (Request D) (Response D)) Bytes).Follows trace (.done sent) := by
  have mapped := follows.map fun final => final.2.sent
  rw [session, serveConnection_replies _ steady willing] at mapped
  obtain ⟨sent, replied, same⟩ := mapped.of_map
  exact ⟨sent, same, replied⟩

/-- Connections refine calls. For every interleaving of workers, whatever bytes arrive on
their connections and however their sockets fail, there is an interleaving of calls of
`handle`, all of them with requests that were decoded, which reaches the same state by the
same steps. Each call belongs to one connection. The calls of a connection were made one
after another and together did what the worker did; all of them have returned, except the
last while the worker goes on; and the worker asked for exactly these requests given these
responses, and on a socket that does not fail has sent exactly the replies that the bytes ask
for. -/
theorem connections_refine_calls (config : Config D)
    (schedule : List (Label Timestamp (Incoming × Outgoing))) :
    let daemon := System.run (connections config) (State.initial config) schedule
    ∃ (calls : List (Label Timestamp (Request D)))
      (tagged : List (Nat × Call (steps config) (Request D) (Response D))),
      Decoded calls ∧ (reached config calls).state = daemon.state ∧
      (reached config calls).history = daemon.history ∧
      (reached config calls).calls = tagged.map Prod.snd ∧
      (∀ entry ∈ tagged, entry.1 < daemon.calls.length) ∧
      ∀ index connection, daemon.calls[index]? = some connection →
        let own := ownedBy index tagged
        connection.trace = own.flatMap Call.trace ∧
        (connection.result? = none → ∃ before last next, own = before ++ [last] ∧
          last.result? = none ∧ (∀ call ∈ before, call.result?.isSome) ∧
          (session connection.request).Follows (exchanges own) (.perform last.request next)) ∧
        ∀ final, connection.result? = some final → (∀ call ∈ own, call.result?.isSome) ∧
          (session connection.request).Follows (exchanges own) (.done final) ∧
          (connection.request.1.Steady → Willing connection.request.2.answers →
            ∃ sent, final.2.sent = connection.request.2.sent ++ sent ∧
              (replies (fun request => Program.call request) connection.request.1.bytes :
                Program (Signature.calls (Request D) (Response D)) Bytes).Follows
                  (exchanges own) (.done sent)) := by
  intro daemon
  obtain ⟨calls, tagged, layered⟩ := System.layered_run (workers config) session
    (State.initial config) schedule
  rw [← connections_eq] at layered
  refine ⟨calls, tagged, ?_, layered.state, layered.history, layered.calls, layered.known, ?_⟩
  · intro request invoked
    obtain ⟨call, made, rfl⟩ : ∃ call ∈ (reached config calls).calls, call.request = request :=
      System.run_made _ calls invoked
    exact layered.uses (fun socket => uses_serveLoop _ [] socket.1 socket.2) call made
  · intro index connection found own
    have serving := layered.serving index connection found
    refine ⟨serving.trace_eq, ?_, ?_⟩
    · intro pending
      rcases serving.follows with ⟨value, ended, _⟩ | ⟨_, inFlight⟩
      · rw [Call.result?, ended] at pending
        cases pending
      · exact inFlight
    · intro final ended
      rcases serving.follows with ⟨value, rest, finished, follows⟩ | ⟨⟨op, next, rest⟩, _⟩
      · rw [Call.result?, rest, Option.some.injEq] at ended
        subst ended
        exact ⟨finished, follows, sent_of_follows follows⟩
      · rw [Call.result?, rest] at ended
        cases ended

end Lrd.Daemon
