import GateBench.Proofs.HandleLife
import GateBench.Proofs.HistogramRun

/-!
What the panels are shown.  A run is shown as histograms that only grow, and then as one last notice
that says what came of it; a circuit is shown once; a check shows nothing unless it fails.
-/

namespace GateBench

open Display Message Worker

/-! ### Logs of panels -/

namespace Display.Panel

variable {σ : Type} {kind : SurfaceKind σ}

/-- The notices posted to a panel that keeps a log, oldest first. -/
def log (panel : Panel (σ × List Notice)) : List Notice :=
  panel.surfaces.2.reverse

theorem log_ensureOpen (kind : SurfaceKind σ) (panel : Panel (σ × List Notice)) :
    (panel.ensureOpen kind.logged).2.log = panel.log := by
  unfold ensureOpen
  split
  · rfl
  · rcases hcreate : kind.create panel.surfaces.1 with ⟨error | _, surfaces⟩
    · simp only [SurfaceKind.logged, hcreate]
      rfl
    · simp only [SurfaceKind.logged, hcreate]
      rfl

/-- A notice posted to a panel that never fails is the next of its log. -/
theorem log_post (hkind : kind.NeverFails) (notice : Notice) (panel : Panel (σ × List Notice)) :
    (panel.post kind.logged notice).2.log = panel.log ++ [notice] := by
  obtain ⟨opened, hopened⟩ := panel.ensureOpen_ok hkind.logged
  have hlog := panel.log_ensureOpen kind
  rw [hopened] at hlog
  rw [post, hopened, ← hlog]
  exact List.reverse_cons

end Display.Panel

namespace Display

theorem trim_orIfBlank {replacement : String}
    (hreplacement : (Text.trim replacement).isEmpty = false) (text : String) :
    (Text.trim (orIfBlank replacement text)).isEmpty = false := by
  unfold orIfBlank
  split_ifs with hblank
  · exact hreplacement
  · exact Bool.eq_false_iff.mpr hblank

theorem trim_title_titled (title subtitle : String) (outcome : CircuitOutcome) :
    (Text.trim (CircuitResult.titled title subtitle outcome).title).isEmpty = false := by
  have hdefault : (Text.trim defaultTitle).isEmpty = false := by
    decide
  dsimp only [CircuitResult.titled]
  exact trim_orIfBlank hdefault title

theorem trim_subtitle_titled (title subtitle : String) (outcome : CircuitOutcome) :
    (Text.trim (CircuitResult.titled title subtitle outcome).subtitle).isEmpty = false := by
  have hdefault : (Text.trim defaultSubtitle).isEmpty = false := by
    decide
  dsimp only [CircuitResult.titled]
  exact trim_orIfBlank hdefault subtitle

end Display

/-! ### Histograms that grow -/

namespace Histogram

/-- The histogram of events in a run of shots. -/
def ofEvents (shots : Nat) (events : List RunEvent) : Histogram :=
  .ofLabels ((counted shots events).map (·.label))

theorem total_ofEvents (shots : Nat) (events : List RunEvent) :
    (ofEvents shots events).total = min shots (events.countP (·.index < shots)) := by
  rw [ofEvents, total_ofLabels, List.length_map, length_counted]

theorem total_ofEvents_le (shots : Nat) (events : List RunEvent) :
    (ofEvents shots events).total ≤ shots := by
  rw [total_ofEvents]
  exact min_le_left _ _

/-- More events never make the total smaller. -/
theorem total_ofEvents_mono (shots : Nat) {events later : List RunEvent}
    (hearlier : events <+: later) :
    (ofEvents shots events).total ≤ (ofEvents shots later).total := by
  rw [total_ofEvents, total_ofEvents]
  exact min_le_min_left _ hearlier.sublist.countP_le

/-- Histograms of a run of shots whose totals never decrease, and never exceed the shots. -/
structure Grow (shots : Nat) (histograms : List Histogram) : Prop where
  ascending : histograms.Pairwise (·.total ≤ ·.total)
  bounded : ∀ histogram ∈ histograms, histogram.total ≤ shots

/-- Histograms that were shown while events were seen, each of the events seen by then. -/
inductive Shown (shots : Nat) : List RunEvent → List Histogram → Prop where
  | start : Shown shots [] []
  | skip {seen : List RunEvent} {histograms : List Histogram} (event : RunEvent)
      (hshown : Shown shots seen histograms) : Shown shots (seen ++ [event]) histograms
  | update {seen : List RunEvent} {histograms : List Histogram} (event : RunEvent)
      (hshown : Shown shots seen histograms) :
      Shown shots (seen ++ [event]) (histograms ++ [ofEvents shots (seen ++ [event])])

namespace Shown

variable {shots : Nat} {seen events : List RunEvent} {histograms : List Histogram}

theorem of_earlier (hshown : Shown shots seen histograms) :
    ∀ histogram ∈ histograms, ∃ first, first <+: seen ∧ histogram = ofEvents shots first := by
  induction hshown with
  | start => nofun
  | skip event hshown ih =>
      intro histogram hmem
      obtain ⟨first, hfirst, hhistogram⟩ := ih histogram hmem
      exact ⟨first, hfirst.trans (List.prefix_append _ _), hhistogram⟩
  | update event hshown ih =>
      intro histogram hmem
      obtain hmem | hmem := List.mem_append.mp hmem
      · obtain ⟨first, hfirst, hhistogram⟩ := ih histogram hmem
        exact ⟨first, hfirst.trans (List.prefix_append _ _), hhistogram⟩
      · exact ⟨_, List.prefix_refl _, List.mem_singleton.mp hmem⟩

/-- Behind what was shown, a histogram of at least the events seen does not decrease. -/
theorem concat_ascending (hprevious : histograms.Pairwise (·.total ≤ ·.total))
    (hshown : Shown shots seen histograms) (hearlier : seen <+: events) :
    (histograms ++ [ofEvents shots events]).Pairwise (·.total ≤ ·.total) := by
  rw [List.pairwise_append]
  refine ⟨hprevious, List.pairwise_singleton _ _, ?_⟩
  intro histogram hmem last hlast
  obtain ⟨first, hfirst, rfl⟩ := hshown.of_earlier histogram hmem
  obtain rfl := List.mem_singleton.mp hlast
  exact total_ofEvents_mono shots (hfirst.trans hearlier)

theorem grow (hshown : Shown shots seen histograms) : Grow shots histograms where
  ascending := by
    induction hshown with
    | start => exact List.Pairwise.nil
    | skip event hshown ih => exact ih
    | update event hshown ih => exact concat_ascending ih hshown (List.prefix_append _ _)
  bounded := by
    intro histogram hmem
    obtain ⟨first, -, rfl⟩ := hshown.of_earlier histogram hmem
    exact total_ofEvents_le shots first

theorem grow_concat (hshown : Shown shots seen histograms) (hearlier : seen <+: events) :
    Grow shots (histograms ++ [ofEvents shots events]) where
  ascending := concat_ascending hshown.grow.ascending hshown hearlier
  bounded := by
    intro histogram hmem
    obtain hmem | hmem := List.mem_append.mp hmem
    · exact hshown.grow.bounded histogram hmem
    · obtain rfl := List.mem_singleton.mp hmem
      exact total_ofEvents_le shots events

end Shown

end Histogram

/-! ### Calls -/

namespace Worker

theorem CallEnd.outcome_eq_ok_iff {ending : CallEnd} {response : Response}
    (hgood : ∀ fault, response ≠ .failed fault) (timeout : Nat) :
    ending.outcome timeout = some (.ok response) ↔ ending = .replied response := by
  cases ending with
  | replied reply =>
      cases reply with
      | failed fault =>
          refine iff_of_false nofun ?_
          rintro ⟨⟩
          exact hgood fault rfl
      | checked | runComplete | circuit => simp [outcome]
  | failed error | deadline | abandoned => simp [outcome]

/-- The events that a caller takes while those of a list wait and others come in. -/
def takenFrom : (waiting : List RunEvent) → List Happening → List RunEvent
  | _, [] => []
  | waiting, .delivered event :: others => takenFrom (waiting ++ [event]) others
  | [], .taken _ :: others => takenFrom [] others
  | event :: waiting, .taken _ :: others => event :: takenFrom waiting others

/-- The events that the caller takes during a call, in order. -/
def Call.taken (call : Call) : List RunEvent :=
  takenFrom [] call.happenings

end Worker

namespace Dispatch

/-! ### Streams -/

namespace Stream

variable {σ : Type} {kind : SurfaceKind σ} {before : List Notice} {shots : Nat}
  {seen : List RunEvent} {updates : List Histogram} {stream next : Stream (σ × List Notice)}

/-- A stream has counted the events seen, and shown these histograms on its way. -/
structure HasShown (before : List Notice) (shots : Nat) (seen : List RunEvent)
    (updates : List Histogram) (stream : Stream (σ × List Notice)) : Prop where
  holds : stream.aggregator.Holds shots seen
  shown : Histogram.Shown shots seen updates
  log : stream.panel.log = before ++ updates.map .ofHistogram

namespace HasShown

/-- The oldest of the waiting events is counted, and shown if that is due. -/
theorem take (hkind : kind.NeverFails) (hshown : stream.HasShown before shots seen updates)
    {event : RunEvent} {waiting : List RunEvent} (hwaiting : stream.waiting = event :: waiting)
    (time : Nat) :
    (stream.take kind.logged time).2.waiting = waiting ∧
      ∃ updates, (stream.take kind.logged time).2.HasShown before shots (seen ++ [event])
        updates := by
  have hholds := hshown.holds.observe time event
  unfold Stream.take
  rw [hwaiting]
  dsimp only
  split_ifs with hdue
  · refine ⟨rfl, _, hholds, .update event hshown.shown, ?_⟩
    rw [refresh, Panel.log_post hkind, hshown.log, List.map_append, List.append_assoc,
      hholds.histogram_eq]
    rfl
  · exact ⟨rfl, updates, hholds, .skip event hshown.shown, hshown.log⟩

/-- After a happening, the stream has also seen what was taken there. -/
theorem step (hkind : kind.NeverFails) (hshown : stream.HasShown before shots seen updates)
    (happening : Happening) :
    ∃ more updates,
      (stream.step kind.logged happening).2.HasShown before shots (seen ++ more) updates ∧
      ∀ others, takenFrom stream.waiting (happening :: others) =
        more ++ takenFrom (stream.step kind.logged happening).2.waiting others := by
  cases happening with
  | delivered event =>
      refine ⟨[], updates, ?_, ?_⟩
      · rw [List.append_nil]
        exact ⟨hshown.holds, hshown.shown, hshown.log⟩
      · intro others
        rw [takenFrom]
        rfl
  | taken time =>
      cases hwaiting : stream.waiting with
      | nil =>
          have hsame : stream.take kind.logged time = (.ok (), stream) := by
            rw [Stream.take, hwaiting]
          refine ⟨[], updates, ?_, ?_⟩
          · rw [Stream.step, hsame, List.append_nil]
            exact hshown
          · intro others
            rw [Stream.step, hsame, hwaiting]
            rfl
      | cons event waiting =>
          obtain ⟨hrest, updates, hnext⟩ := hshown.take hkind hwaiting time
          refine ⟨[event], updates, hnext, ?_⟩
          intro others
          rw [Stream.step, hrest]
          rfl

/-- Following a call, a stream sees the events that are taken, and shows some of its counts. -/
theorem follow (hkind : kind.NeverFails) (hshown : stream.HasShown before shots seen updates)
    {happenings : List Happening}
    (hfollow : stream.follow kind.logged happenings = (.ok (), next)) :
    ∃ updates, next.HasShown before shots (seen ++ takenFrom stream.waiting happenings)
      updates := by
  induction happenings generalizing stream seen updates with
  | nil =>
      obtain ⟨-, rfl⟩ := Prod.mk.inj hfollow
      refine ⟨updates, ?_⟩
      rw [takenFrom, List.append_nil]
      exact hshown
  | cons happening others ih =>
      obtain ⟨more, shown, hstepped, htaken⟩ := hshown.step hkind happening
      unfold Stream.follow at hfollow
      split at hfollow
      · nomatch hfollow
      · rename_i later hstep
        rw [hstep] at hstepped htaken
        obtain ⟨all, hall⟩ := ih hstepped hfollow
        refine ⟨all, ?_⟩
        rw [htaken others, ← List.append_assoc]
        exact hall

/-- In the end the events that still wait are counted as well, and the whole is shown. -/
theorem drain_refresh (hkind : kind.NeverFails)
    (hshown : stream.HasShown before shots seen updates) :
    ∃ shown : Stream (σ × List Notice),
      stream.drain.refresh kind.logged = (.ok (), shown) ∧
      shown.aggregator.histogram = .ofEvents shots (seen ++ stream.waiting) ∧
      shown.panel.log = before ++
        (updates ++ [Histogram.ofEvents shots (seen ++ stream.waiting)]).map .ofHistogram := by
  have hfollows : stream.Follows shots (seen ++ stream.waiting) := ⟨seen, rfl, hshown.holds⟩
  have hhistogram := hfollows.drain.histogram_eq
  have hposted := Panel.post_ok hkind.logged (.ofHistogram stream.drain.aggregator.histogram)
    stream.drain.panel
  refine ⟨(stream.drain.refresh kind.logged).2, Prod.ext hposted rfl, hhistogram, ?_⟩
  rw [refresh, Panel.log_post hkind, hhistogram, List.map_append, ← List.append_assoc, ← hshown.log]
  rfl

end HasShown

end Stream

/-! ### Commands -/

namespace Dispatcher

variable {ν ω σ τ : Type} {transport : Transport ν ω} {histograms : SurfaceKind σ}
  {circuits : SurfaceKind τ}

/-- A command has posted these notices to the panels of a dispatcher, and nothing else. -/
structure Posts (before after : Dispatcher (σ × List Notice) (τ × List Notice))
    (histograms circuits : List Notice) : Prop where
  histograms : after.histogramPanel.log = before.histogramPanel.log ++ histograms
  circuits : after.circuitPanel.log = before.circuitPanel.log ++ circuits

/-- The last notice of a histogram run: its histogram, or why there is none. -/
def lastNotice (document : Document) : Except DispatchError Histogram → Notice
  | .ok histogram => .ofHistogram histogram
  | .error error => .error (document.stem ++ " histogram") error.message

/-- When the display never fails, a run whose call was followed to its end either fails with
nothing more shown, or shows the histogram that it returns. -/
theorem streamRun_of_follow {handle busy : Handle ν} {request : Request} {eventBuffer : Nat}
    {stream followed shown : Stream σ} {surroundings later : ω} {call : Call}
    (hcall : handle.call transport request (.consumed (max eventBuffer 1)) none surroundings =
      .ok (call, busy, later))
    (hfollow : stream.follow histograms call.happenings = (.ok (), followed))
    (hrefresh : followed.drain.refresh histograms = (.ok (), shown)) :
    let ran := streamRun transport histograms handle request eventBuffer stream surroundings
    (∃ error, ran.1 = .error error ∧ ran.2.1 = followed.panel) ∨
      ran.1 = .ok shown.aggregator.histogram ∧ ran.2.1 = shown.panel := by
  intro ran
  rcases hconclude : busy.conclude transport call.ending later with ⟨outcome, concluded, last⟩
  rcases outcome with _ | error | response
  · have hran : ran = (.error (.worker .busy), followed.panel, concluded, last) := by
      simp only [ran, streamRun, hcall, hfollow, hconclude]
    rw [hran]
    exact .inl ⟨_, rfl, rfl⟩
  · have hran : ran = (.error (.ofWorker error), followed.panel, concluded, last) := by
      simp only [ran, streamRun, hcall, hfollow, hconclude]
    rw [hran]
    exact .inl ⟨_, rfl, rfl⟩
  · have hran : ran = (.ok shown.aggregator.histogram, shown.panel, concluded, last) := by
      simp only [ran, streamRun, hcall, hfollow, hconclude, hrefresh]
    rw [hran]
    exact .inr ⟨rfl, rfl⟩

/-- A run on a handle shows histograms of the events taken, and at its end the one that it
returns. -/
theorem streamRun_shown (transport : Transport ν ω) (hkind : histograms.NeverFails)
    (handle : Handle ν) (request : Request) (eventBuffer shots : Nat) (policy : RefreshPolicy)
    (panel : Panel (σ × List Notice)) (surroundings : ω) :
    let ran := streamRun transport histograms.logged handle request eventBuffer
      ⟨.start shots policy 0, [], panel⟩ surroundings
    ∃ updates,
      ran.2.1.log = panel.log ++ (updates ++ ran.1.toOption.toList).map .ofHistogram ∧
      Histogram.Grow shots (updates ++ ran.1.toOption.toList) ∧
      ∀ update ∈ updates, ∃ call busy later seen,
        handle.call transport request (.consumed (max eventBuffer 1)) none surroundings =
          .ok (call, busy, later) ∧
        seen <+: call.taken ∧ update = .ofEvents shots seen := by
  intro ran
  cases hcall : handle.call transport request (.consumed (max eventBuffer 1)) none surroundings with
  | error error =>
      have hran : ran = (.error (.ofWorker error), panel, handle, surroundings) := by
        simp only [ran, streamRun, hcall]
      rw [hran]
      exact ⟨[], (List.append_nil _).symm, Histogram.Shown.start.grow, by simp⟩
  | ok result =>
      obtain ⟨call, busy, later⟩ := result
      obtain ⟨followed, hfollow⟩ := Stream.follow_ok hkind.logged call.happenings
        ⟨.start shots policy 0, [], panel⟩
      have hstart : Stream.HasShown panel.log shots [] []
          (⟨.start shots policy 0, [], panel⟩ : Stream (σ × List Notice)) :=
        ⟨Aggregator.holds_start shots policy 0, .start, (List.append_nil _).symm⟩
      obtain ⟨updates, hshown⟩ := hstart.follow hkind hfollow
      obtain ⟨shown, hrefresh, hhistogram, hlog⟩ := hshown.drain_refresh hkind
      have hends := streamRun_of_follow hcall hfollow hrefresh
      refine ⟨updates, ?_, ?_, ?_⟩
      · obtain ⟨error, hresult, hpanel⟩ | ⟨hresult, hpanel⟩ := hends
        · rw [hresult, hpanel, hshown.log]
          simp [Except.toOption]
        · rw [hresult, hpanel, hlog, hhistogram]
          rfl
      · obtain ⟨error, hresult, -⟩ | ⟨hresult, -⟩ := hends
        · rw [hresult]
          simpa [Except.toOption] using hshown.shown.grow
        · rw [hresult, hhistogram]
          exact hshown.shown.grow_concat (List.prefix_append _ _)
      · intro update hupdate
        obtain ⟨seen, hseen, hcount⟩ := hshown.shown.of_earlier update hupdate
        exact ⟨call, busy, later, seen, rfl, hseen, hcount⟩

variable {dispatcher : Dispatcher (σ × List Notice) (τ × List Notice)} {document : Document}
  {surroundings : ω}

/-- What a histogram run posts: histograms that grow, each of events taken during its call, and one
last notice. -/
structure PostsRun (transport : Transport ν ω)
    (dispatcher : Dispatcher (σ × List Notice) (τ × List Notice)) (document : Document)
    (entry : Option String) (shots : Nat) (surroundings : ω)
    (result : Except DispatchError Histogram)
    (after : Dispatcher (σ × List Notice) (τ × List Notice)) (updates : List Histogram) : Prop where
  posts : dispatcher.Posts after
    (updates.map .ofHistogram ++ [lastNotice document result]) []
  grow : Histogram.Grow shots (updates ++ result.toOption.toList)
  taken : ∀ update ∈ updates, ∃ call seen,
    dispatcher.histogramCall? transport (some document) entry shots surroundings = some call ∧
    seen <+: call.taken ∧ update = .ofEvents shots seen

theorem runHistogram_posts (hhistograms : histograms.NeverFails) (entry : Option String)
    (shots : Nat) :
    let ran := dispatcher.runHistogram transport histograms.logged (some document) entry shots
      surroundings
    ∃ updates, dispatcher.PostsRun transport document entry shots surroundings ran.1 ran.2.1
      updates := by
  intro ran
  rcases hacquire : dispatcher.pool.acquire transport surroundings
    with ⟨error | handle, pool, later⟩
  · have hran : ran = (.error (.ofWorker error),
        { dispatcher with pool }.postFailure histograms.logged (document.stem ++ " histogram")
          (.ofWorker error), later) := by
      simp only [ran, runHistogram, hacquire]
    rw [hran]
    refine ⟨[], ⟨?_, (List.append_nil _).symm⟩, Histogram.Shown.start.grow, by simp⟩
    exact Panel.log_post hhistograms _ dispatcher.histogramPanel
  · obtain ⟨updates, hlog, hgrow, htaken⟩ := streamRun_shown transport hhistograms
      handle (.run document.sources entry shots dispatcher.profile) dispatcher.eventBuffer shots
      dispatcher.policy dispatcher.histogramPanel later
    have htold : ∀ update ∈ updates, ∃ call seen,
        dispatcher.histogramCall? transport (some document) entry shots surroundings = some call ∧
        seen <+: call.taken ∧ update = .ofEvents shots seen := by
      intro update hupdate
      obtain ⟨call, busy, last, seen, hcall, hseen, hcount⟩ := htaken update hupdate
      refine ⟨call, seen, ?_, hseen, hcount⟩
      simp only [histogramCall?, Option.bind_eq_bind, Option.bind_some, hacquire, hcall]
    rcases hstream : streamRun transport histograms.logged handle
      (.run document.sources entry shots dispatcher.profile) dispatcher.eventBuffer
      ⟨.start shots dispatcher.policy 0, [], dispatcher.histogramPanel⟩ later
      with ⟨result, histogramPanel, used, last⟩
    rw [hstream] at hlog hgrow
    rcases hrelease : pool.release transport used last with ⟨released, returned, rest⟩
    cases result with
    | error error =>
        have hran : ran = (.error error,
            { dispatcher with pool := returned, histogramPanel }.postFailure histograms.logged
              (document.stem ++ " histogram") error, rest) := by
          simp only [ran, runHistogram, hacquire, hstream, hrelease]
        rw [hran]
        refine ⟨updates, ⟨?_, (List.append_nil _).symm⟩, hgrow, htold⟩
        have hposted := Panel.log_post hhistograms (lastNotice document (.error error))
          histogramPanel
        rw [hlog] at hposted
        refine hposted.trans ?_
        simp [Except.toOption]
    | ok histogram =>
        have hran : ran = (.ok histogram,
            { dispatcher with pool := returned, histogramPanel }, rest) := by
          simp only [ran, runHistogram, hacquire, hstream, hrelease]
        rw [hran]
        refine ⟨updates, ⟨?_, (List.append_nil _).symm⟩, hgrow, htold⟩
        rw [List.map_append] at hlog
        exact hlog

/-- The call that an exchange of a request makes, if it comes to one. -/
def exchangeCall? (transport : Transport ν ω) (dispatcher : Dispatcher σ τ) (request : Request)
    (surroundings : ω) : Option Call :=
  match dispatcher.pool.acquire transport surroundings with
  | (.error _, _, _) => none
  | (.ok handle, _, surroundings) =>
    match handle.call transport request .discarded none surroundings with
    | .error _ => none
    | .ok (call, _, _) => some call

/-- An exchange comes to a reply that is no failure if its call ends with it. -/
theorem exchange_eq_ok_iff {dispatcher : Dispatcher σ τ} {request : Request} {response : Response}
    (hgood : ∀ fault, response ≠ .failed fault) :
    (dispatcher.exchange transport request surroundings).1 = .ok response ↔
      ∃ call, dispatcher.exchangeCall? transport request surroundings = some call ∧
        call.ending = .replied response := by
  unfold exchange exchangeCall?
  rcases dispatcher.pool.acquire transport surroundings with ⟨error | handle, pool, later⟩
  · simp
  · cases hcall : handle.call transport request .discarded none later with
    | error error => simp [Handle.issue, hcall, Issued.refused]
    | ok result =>
        obtain ⟨call, busy, last⟩ := result
        simp only [Handle.issue, hcall, Handle.conclude_outcome, Option.some.injEq,
          exists_eq_left', ← CallEnd.outcome_eq_ok_iff hgood busy.timeout]
        cases call.ending.outcome busy.timeout <;> simp

theorem exchange_panels (dispatcher : Dispatcher σ τ) (transport : Transport ν ω)
    (request : Request) (surroundings : ω) :
    (dispatcher.exchange transport request surroundings).2.1.histogramPanel =
        dispatcher.histogramPanel ∧
      (dispatcher.exchange transport request surroundings).2.1.circuitPanel =
        dispatcher.circuitPanel := by
  unfold exchange
  rcases dispatcher.pool.acquire transport surroundings with ⟨error | handle, pool, later⟩
  · exact ⟨rfl, rfl⟩
  · exact ⟨rfl, rfl⟩

/-- What drawing a circuit posts: its result, with a title and a subtitle to read, and with a
diagram if the call for it was answered with one. -/
structure PostsCircuit (transport : Transport ν ω)
    (dispatcher : Dispatcher (σ × List Notice) (τ × List Notice)) (document : Document)
    (operation : Option QualifiedName) (surroundings : ω) (result : CircuitResult)
    (after : Dispatcher (σ × List Notice) (τ × List Notice)) : Prop where
  posts : dispatcher.Posts after [] [.circuit result]
  title : (Text.trim result.title).isEmpty = false
  subtitle : (Text.trim result.subtitle).isEmpty = false
  diagram : ∀ diagram, result.diagram? = some diagram ↔
    ∃ call, dispatcher.exchangeCall? transport
        (.circuit document.sources dispatcher.profile operation) surroundings = some call ∧
      call.ending = .replied (.circuit diagram)

/-- The result of drawing a circuit, when this is the reply to the request for it. -/
def circuitResult (profile : Profile) (document : Document) (operation : Option QualifiedName)
    (reply : Except WorkerError Response) : CircuitResult :=
  .titled (operation.elim document.stem QualifiedName.text)
    (document.name ++ " (" ++ profile.text ++ " profile)") (outcomeOfReply reply)

theorem diagram?_circuitResult_eq_some_iff {profile : Profile} {operation : Option QualifiedName}
    {reply : Except WorkerError Response} {diagram : Diagram} :
    (circuitResult profile document operation reply).diagram? = some diagram ↔
      reply = .ok (.circuit diagram) := by
  unfold circuitResult CircuitResult.titled CircuitResult.diagram?
  cases reply with
  | error error => simp [outcomeOfReply]
  | ok response =>
      cases response with
      | circuit found => simp [outcomeOfReply]
      | checked | runComplete | failed => simp [outcomeOfReply]

theorem renderCircuit_posts (hcircuits : circuits.NeverFails) (operation : Option QualifiedName) :
    ∃ result after last,
      dispatcher.renderCircuit transport circuits.logged (some document) operation surroundings =
        (.ok result, after, last) ∧
      dispatcher.PostsCircuit transport document operation surroundings result after := by
  have hpanels := dispatcher.exchange_panels transport
    (.circuit document.sources dispatcher.profile operation) surroundings
  have hreplied : ∀ diagram,
      (dispatcher.exchange transport (.circuit document.sources dispatcher.profile operation)
        surroundings).1 = .ok (.circuit diagram) ↔
      ∃ call, dispatcher.exchangeCall? transport
          (.circuit document.sources dispatcher.profile operation) surroundings = some call ∧
        call.ending = .replied (.circuit diagram) :=
    fun diagram => exchange_eq_ok_iff nofun
  rcases hexchange : dispatcher.exchange transport
    (.circuit document.sources dispatcher.profile operation) surroundings
    with ⟨reply, exchanged, last⟩
  rw [hexchange] at hpanels hreplied
  obtain ⟨hhistogramPanel, hcircuitPanel⟩ := hpanels
  have hran : dispatcher.renderCircuit transport circuits.logged (some document) operation
      surroundings =
        (.ok (circuitResult dispatcher.profile document operation reply),
          { exchanged with
            circuitPanel := (exchanged.circuitPanel.post circuits.logged
              (.circuit (circuitResult dispatcher.profile document operation reply))).2 },
          last) := by
    have hshown := Panel.post_ok hcircuits.logged
      (.circuit (circuitResult dispatcher.profile document operation reply)) exchanged.circuitPanel
    unfold circuitResult at hshown ⊢
    simp only [renderCircuit, hexchange, hshown]
  refine ⟨_, _, last, hran, ⟨?_, ?_⟩, ?_, ?_, ?_⟩
  · rw [List.append_nil, ← hhistogramPanel]
  · rw [← hcircuitPanel]
    exact Panel.log_post hcircuits _ exchanged.circuitPanel
  · rw [circuitResult]
    exact trim_title_titled ..
  · rw [circuitResult]
    exact trim_subtitle_titled ..
  · intro diagram
    exact diagram?_circuitResult_eq_some_iff.trans (hreplied diagram)

/-- The notices of a check: why it failed, if it did. -/
def checkNotices (document : Document) : Except DispatchError CheckReport → List Notice
  | .ok _ => []
  | .error error => [.error (document.stem ++ " check") error.message]

theorem check_posts (hhistograms : histograms.NeverFails) :
    let ran := dispatcher.check transport histograms.logged (some document) surroundings
    dispatcher.Posts ran.2.1 (checkNotices document ran.1) [] := by
  intro ran
  have hpanels := dispatcher.exchange_panels transport
    (.check document.sources dispatcher.profile) surroundings
  rcases hexchange : dispatcher.exchange transport (.check document.sources dispatcher.profile)
    surroundings with ⟨reply, exchanged, last⟩
  rw [hexchange] at hpanels
  obtain ⟨hhistogramPanel, hcircuitPanel⟩ := hpanels
  cases hreport : CheckReport.ofReply reply with
  | ok report =>
      have hran : ran = (.ok report, exchanged, last) := by
        simp only [ran, check, hexchange, hreport]
      rw [hran]
      constructor
      · rw [checkNotices, List.append_nil, ← hhistogramPanel]
      · rw [List.append_nil, ← hcircuitPanel]
  | error error =>
      have hran : ran = (.error error, exchanged.postFailure histograms.logged
          (document.stem ++ " check") error, last) := by
        simp only [ran, check, hexchange, hreport]
      rw [hran]
      refine ⟨?_, ?_⟩
      · rw [← hhistogramPanel]
        exact Panel.log_post hhistograms _ exchanged.histogramPanel
      · rw [List.append_nil, ← hcircuitPanel]
        rfl

/-- What commands on a document show, whatever the workers do and in whatever order events come in
and are taken, as long as the panels do not fail. -/
theorem commands_post (hhistograms : histograms.NeverFails) (hcircuits : circuits.NeverFails)
    (transport : Transport ν ω) (dispatcher : Dispatcher (σ × List Notice) (τ × List Notice))
    (document : Document) (surroundings : ω) :
    (∀ entry shots,
      let ran := dispatcher.runHistogram transport histograms.logged (some document) entry shots
        surroundings
      ∃ updates, dispatcher.PostsRun transport document entry shots surroundings ran.1 ran.2.1
        updates) ∧
    (∀ operation, ∃ result after last,
      dispatcher.renderCircuit transport circuits.logged (some document) operation surroundings =
        (.ok result, after, last) ∧
      dispatcher.PostsCircuit transport document operation surroundings result after) ∧
    let ran := dispatcher.check transport histograms.logged (some document) surroundings
    dispatcher.Posts ran.2.1 (checkNotices document ran.1) [] :=
  ⟨fun entry shots => runHistogram_posts hhistograms entry shots,
    fun operation => renderCircuit_posts hcircuits operation, check_posts hhistograms⟩

/-- A dispatcher of one worker, whose panels keep logs and are refreshed at every event. -/
def watched : Dispatcher (Unit × List Notice) (Unit × List Notice) where
  pool := { capacity := 1 }
  histogramPanel := .new ((), [])
  circuitPanel := .new ((), [])
  policy := .everyEvent
  eventBuffer := 1

/-- A worker that is gone when it is called. -/
def gone : Stage where
  scripts := []

theorem commands_post_watched :
    unseen.NeverFails ∧
      (let ran := watched.runHistogram scripted unseen.logged (some blankPage) none 3 shuffled
        ∃ updates, watched.PostsRun scripted blankPage none 3 shuffled ran.1 ran.2.1 updates) ∧
      (watched.check scripted unseen.logged (some blankPage) gone).2.1.histogramPanel.log =
        [.error "bell check" WorkerError.disconnected.message] := by
  obtain ⟨hrun, -, -⟩ :=
    commands_post unseen_neverFails unseen_neverFails scripted watched blankPage shuffled
  obtain ⟨-, -, hcheck⟩ :=
    commands_post unseen_neverFails unseen_neverFails scripted watched blankPage gone
  have hfailed : (watched.check scripted unseen.logged (some blankPage) gone).1 =
      .error (.worker .disconnected) := rfl
  refine ⟨unseen_neverFails, hrun none 3, ?_⟩
  have hlog := hcheck.histograms
  rw [hfailed] at hlog
  exact hlog

end Dispatcher

end Dispatch

end GateBench
