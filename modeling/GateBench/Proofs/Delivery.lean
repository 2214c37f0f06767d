import GateBench.Proofs.ServeLoop

/-!
What becomes of the events of a local call whose receiver stays.  At every moment an event is in one
place: with the engine, which has not told it yet, in the buffer, in the worker's hands, or in the
sink.  Read from the sink back to the engine, the places hold the events in the order in which they
are told.
-/

namespace GateBench.Worker.LocalCall

open Message

variable {call : LocalCall} {before : Channel} {events : List RunEvent} {response : Response}

/-- A call that has lost, repeated and reordered none of the events that its engine tells, and which
has heard all that were told; `before` is the sink as the call found it.  It returns the response of
the engine once all events are in the sink. -/
structure IsLossless (before : Channel) (events : List RunEvent) (response : Response)
    (call : LocalCall) : Prop where
  heard : ∀ answer ∈ call.told, answer.2 = true
  told : call.told.map (·.1) ++ call.engine.fullEvents = events
  placed : call.delivered ++ call.held.toList ++ call.buffer.waiting ++ call.engine.fullEvents =
    before.sent ++ events
  returned : ∀ reply, call.phase = .returned reply →
    reply = .ok response ∧ call.engine = .done (.ok response) ∧
      call.delivered = before.sent ++ events

namespace Undisturbed

variable {kind : RequestKind} {ending : Ending}

theorem told_map_fst (hcall : call.Undisturbed kind (some before) events ending) :
    call.told.map (·.1) = call.buffer.sent := by
  rw [hcall.heard, List.map_map]
  exact List.map_id _

/-- What the sink holds and what the worker holds was taken from the buffer, event by event. -/
theorem delivered_append_held (hcall : call.Undisturbed kind (some before) events ending) :
    call.delivered ++ call.held.toList =
      before.sent ++ call.buffer.sent.take call.buffer.taken := by
  have hsink := hcall.sink
  unfold delivered
  generalize call.sink = sink at hsink ⊢
  cases hsink with
  | some hrel => exact hrel.2

theorem places (hcall : call.Undisturbed kind (some before) events ending) :
    call.delivered ++ call.held.toList ++ call.buffer.waiting ++ call.engine.fullEvents =
      before.sent ++ events :=
  calc call.delivered ++ call.held.toList ++ call.buffer.waiting ++ call.engine.fullEvents
    _ = before.sent ++ (call.buffer.sent.take call.buffer.taken ++ call.buffer.waiting) ++
          call.engine.fullEvents := by
        rw [hcall.delivered_append_held, List.append_assoc before.sent]
    _ = before.sent ++ (call.buffer.sent ++ call.engine.fullEvents) := by
        rw [call.buffer.sent_split, List.append_assoc]
    _ = before.sent ++ events := by rw [hcall.story]

theorem isLossless (hcall : call.Undisturbed kind (some before) events (.ok response))
    (hanswers : response.answers kind = true) : call.IsLossless before events response where
  heard answer hanswer := by
    rw [hcall.heard] at hanswer
    obtain ⟨event, -, rfl⟩ := List.mem_map.mp hanswer
    rfl
  told := by rw [hcall.told_map_fst, hcall.story]
  placed := hcall.places
  returned reply hphase := by
    obtain ⟨rfl, hengine, hdelivered⟩ := hcall.outcome_of_returned hphase
    exact ⟨acceptReply_eq hanswers, hengine, hdelivered⟩

end Undisturbed

/-- However the engine, the worker and a receiver that stays come to turn, a call comes to return
the engine's response when the sink has received all events in their order, and at no moment on the
way is an event lost, repeated or out of order, or an answer to the engine other than that it was
heard.  So the events and the reply are those of a call without a schedule. -/
theorem returns_all_events {worker : LocalWorker} (hwilling : worker.isStopped = false)
    {request : Request} {response : Response}
    (hresult : (worker.engine.serve request).fullResult = .ok response)
    (hanswers : response.answers request.kind = true) (eventBuffer : Nat) {before : Channel}
    (hsink : before.IsSteady) :
    let events := (worker.engine.serve request).fullEvents
    let call := start worker request eventBuffer (some before)
    Returns Moves outcome? call (.ok response, before.sent ++ events) ∧
      (∀ next, Relation.ReflTransGen Moves call next →
        next.IsLossless before events response) ∧
      worker.call request true = ⟨events, .ok response, worker⟩ := by
  intro events call
  have hsource : ∀ channel ∈ some before, channel.IsSteady := by
    rintro channel ⟨⟩
    exact hsink
  refine ⟨?_, fun next hrun => ?_, ?_⟩
  · have hreturns := returns_start (LocalWorker.willing_of_not_stopped hwilling) hresult
      nofun eventBuffer hsource
    rwa [LocalWorker.answer, acceptReply_eq hanswers] at hreturns
  · have hstart := undisturbed_start (LocalWorker.willing_of_not_stopped hwilling) hresult
      nofun eventBuffer hsource
    exact (hstart.run hrun).isLossless hanswers
  · rw [LocalWorker.call_eq hwilling, hresult, LocalWorker.answer, acceptReply_eq hanswers]

/-- A worker whose engine tells two events before it answers. -/
def pairTeller : LocalWorker where
  engine := ⟨"pair", fun _ =>
    .tell ⟨"0", 0⟩ fun _ => .ask fun _ => .tell ⟨"1", 1⟩ fun _ => .done (.ok (.runComplete 2))⟩

theorem returns_all_events_pairTeller :
    let call := start pairTeller (.run [] none 2 .base) 1 (some { capacity := 1 })
    Returns Moves outcome? call (.ok (.runComplete 2), [⟨"0", 0⟩, ⟨"1", 1⟩]) ∧
      (∀ next, Relation.ReflTransGen Moves call next →
        next.IsLossless { capacity := 1 } [⟨"0", 0⟩, ⟨"1", 1⟩] (.runComplete 2)) ∧
      pairTeller.call (.run [] none 2 .base) true =
        ⟨[⟨"0", 0⟩, ⟨"1", 1⟩], .ok (.runComplete 2), pairTeller⟩ :=
  returns_all_events rfl rfl rfl 1 ⟨rfl, by decide, by decide⟩

end GateBench.Worker.LocalCall
