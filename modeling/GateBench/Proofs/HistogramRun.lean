import GateBench.Dispatch.Dispatcher
import GateBench.Proofs.Tally
import GateBench.Worker.Script
import Mathlib.Data.List.Perm.Basic

/-!
Runs that are shown as histograms.  Whatever happens during the call, in whatever order events come
in and are taken, the histogram in the end counts the events that came in, as far as there are shots
for them; and it is the last that the panel is shown.
-/

namespace GateBench

open Display Message Worker

/-! ### Surfaces that keep what they were posted -/

namespace Display

variable {σ : Type}

/-- Surfaces that never fail. -/
structure SurfaceKind.NeverFails (kind : SurfaceKind σ) : Prop where
  create : ∀ surfaces, (kind.create surfaces).1 = .ok ()
  post : ∀ notice surfaces, (kind.post notice surfaces).1 = .ok ()

/-- Surfaces that also keep a log of what they were posted, latest first. -/
def SurfaceKind.logged (kind : SurfaceKind σ) : SurfaceKind (σ × List Notice) where
  create state :=
    let (result, surfaces) := kind.create state.1
    (result, surfaces, state.2)
  post notice state :=
    let (result, surfaces) := kind.post notice state.1
    (result, surfaces, notice :: state.2)
  close state := (kind.close state.1, state.2)

theorem SurfaceKind.NeverFails.logged {kind : SurfaceKind σ} (hkind : kind.NeverFails) :
    kind.logged.NeverFails :=
  ⟨fun state => hkind.create state.1, fun notice state => hkind.post notice state.1⟩

namespace Panel

variable {kind : SurfaceKind σ}

theorem ensureOpen_ok (hkind : kind.NeverFails) (panel : Panel σ) :
    ∃ opened, panel.ensureOpen kind = (.ok (), opened) := by
  unfold ensureOpen
  split_ifs
  · exact ⟨_, rfl⟩
  · have hcreate := hkind.create panel.surfaces
    split
    · rename_i hfailed
      rw [hfailed] at hcreate
      nomatch hcreate
    · exact ⟨_, rfl⟩

theorem post_ok (hkind : kind.NeverFails) (notice : Notice) (panel : Panel σ) :
    (panel.post kind notice).1 = .ok () := by
  obtain ⟨opened, hopened⟩ := panel.ensureOpen_ok hkind
  rw [post, hopened]
  exact hkind.post notice opened.surfaces

/-- A notice that could be posted is the latest of the log. -/
theorem head?_log_post {panel : Panel (σ × List Notice)} {notice : Notice}
    (hposted : (panel.post kind.logged notice).1 = .ok ()) :
    (panel.post kind.logged notice).2.surfaces.2.head? = some notice := by
  unfold post at hposted ⊢
  split at hposted
  · nomatch hposted
  · rfl

end Panel

end Display

namespace Worker

/-- The event that a happening brings in. -/
def Happening.event? : Happening → Option RunEvent
  | .delivered event => some event
  | .taken _ => none

theorem Call.events_eq (call : Call) : call.events = call.happenings.filterMap Happening.event? :=
  rfl

end Worker

namespace Dispatch

/-! ### Streams -/

namespace Stream

variable {σ : Type} {kind : SurfaceKind σ} {shots : Nat} {events : List RunEvent}
  {stream next : Stream σ}

/-- A stream has counted the events that came in, up to those that wait. -/
def Follows (shots : Nat) (events : List RunEvent) (stream : Stream σ) : Prop :=
  ∃ seen, events = seen ++ stream.waiting ∧ stream.aggregator.Holds shots seen

theorem follows_start (shots : Nat) (policy : RefreshPolicy) (now : Nat) (panel : Panel σ) :
    Follows shots [] ⟨.start shots policy now, [], panel⟩ :=
  ⟨[], rfl, Aggregator.holds_start shots policy now⟩

namespace Follows

theorem take (hstream : stream.Follows shots events) (time : Nat) :
    (stream.take kind time).2.Follows shots events := by
  obtain ⟨seen, hevents, hholds⟩ := hstream
  unfold Stream.take
  cases hwaiting : stream.waiting with
  | nil => exact ⟨seen, hevents, hholds⟩
  | cons event others =>
      -- the oldest of the waiting events is the next that is observed
      refine ⟨seen ++ [event], ?_, ?_⟩
      · rw [hevents, hwaiting, List.append_assoc, List.singleton_append]
        dsimp only
        split_ifs <;> rfl
      · dsimp only
        split_ifs <;> exact hholds.observe time event

/-- A happening adds the event that it brings in, and the panel makes no difference to the count. -/
theorem step (hstream : stream.Follows shots events) (happening : Happening) :
    (stream.step kind happening).2.Follows shots (events ++ happening.event?.toList) := by
  cases happening with
  | delivered event =>
      obtain ⟨seen, hevents, hholds⟩ := hstream
      exact ⟨seen, by rw [hevents, List.append_assoc]; rfl, hholds⟩
  | taken time =>
      rw [Happening.event?, Option.toList_none, List.append_nil]
      exact hstream.take time

/-- Following a call, a stream counts or keeps every event that comes in. -/
theorem follow (hstream : stream.Follows shots events) {happenings : List Happening}
    (hfollow : stream.follow kind happenings = (.ok (), next)) :
    next.Follows shots (events ++ happenings.filterMap Happening.event?) := by
  induction happenings generalizing stream events with
  | nil =>
      obtain ⟨-, rfl⟩ := Prod.mk.inj hfollow
      simpa using hstream
  | cons happening others ih =>
      have hstepped : (stream.step kind happening).2.Follows shots
          (events ++ happening.event?.toList) := hstream.step happening
      unfold Stream.follow at hfollow
      split at hfollow
      · nomatch hfollow
      · rename_i later hstep
        rw [hstep] at hstepped
        have hnext := ih hstepped hfollow
        rw [List.append_assoc] at hnext
        cases happening <;> exact hnext

/-- In the end, all events that came in are counted. -/
theorem drain (hstream : stream.Follows shots events) :
    stream.drain.aggregator.Holds shots events := by
  obtain ⟨seen, rfl, hholds⟩ := hstream
  unfold Stream.drain
  dsimp only
  generalize stream.aggregator = aggregator at hholds
  induction stream.waiting generalizing seen aggregator with
  | nil => simpa using hholds
  | cons event others ih =>
      have hnext := ih _ _ (hholds.observe aggregator.lastRefresh event)
      rwa [List.append_assoc, List.singleton_append] at hnext

end Follows

theorem step_ok (hkind : kind.NeverFails) (stream : Stream σ) (happening : Happening) :
    (stream.step kind happening).1 = .ok () := by
  cases happening with
  | delivered event => rfl
  | taken time =>
      change (stream.take kind time).1 = .ok ()
      unfold take
      split
      · rfl
      · dsimp only
        split_ifs
        · exact Panel.post_ok hkind _ _
        · rfl

theorem follow_ok (hkind : kind.NeverFails) (happenings : List Happening) (stream : Stream σ) :
    ∃ next, stream.follow kind happenings = (.ok (), next) := by
  induction happenings generalizing stream with
  | nil => exact ⟨stream, rfl⟩
  | cons happening others ih =>
      obtain ⟨next, hnext⟩ := ih (stream.step kind happening).2
      have hstep : stream.step kind happening = (.ok (), (stream.step kind happening).2) :=
        Prod.ext (step_ok hkind stream happening) rfl
      refine ⟨next, ?_⟩
      rw [follow, hstep]
      exact hnext

end Stream

/-! ### Runs -/

namespace Dispatcher

variable {ν ω σ τ : Type} {transport : Transport ν ω} {kind : SurfaceKind σ}

/-- A run that succeeds has followed its call to the end; its histogram is what was counted then,
and the last that was shown. -/
theorem streamRun_ok {handle : Handle ν} {request : Request} {eventBuffer : Nat}
    {stream : Stream σ} {surroundings : ω} {histogram : Histogram}
    (hrun : (streamRun transport kind handle request eventBuffer stream surroundings).1 =
      .ok histogram) :
    ∃ call busy later followed,
      handle.call transport request (.consumed (max eventBuffer 1)) none surroundings =
        .ok (call, busy, later) ∧
      stream.follow kind call.happenings = (.ok (), followed) ∧
      histogram = followed.drain.aggregator.histogram ∧
      (followed.panel.post kind (.ofHistogram histogram)).1 = .ok () ∧
      (streamRun transport kind handle request eventBuffer stream surroundings).2.1 =
        (followed.panel.post kind (.ofHistogram histogram)).2 := by
  unfold streamRun at hrun ⊢
  cases hcall : handle.call transport request (.consumed (max eventBuffer 1)) none surroundings with
  | error error =>
      simp only [hcall] at hrun
      nomatch hrun
  | ok result =>
      obtain ⟨call, busy, later⟩ := result
      simp only [hcall] at hrun ⊢
      cases hfollow : stream.follow kind call.happenings with
      | mk result followed =>
          simp only [hfollow] at hrun ⊢
          cases result with
          | error error => nomatch hrun
          | ok _ =>
              simp only at hrun ⊢
              split at hrun
              · dsimp only at hrun
                split at hrun
                · rename_i hshown
                  obtain rfl := Except.ok.inj hrun
                  exact ⟨call, busy, later, followed, rfl, hfollow, rfl, hshown, rfl⟩
                · nomatch hrun
              · nomatch hrun
              · nomatch hrun

/-- A run succeeds if the call is answered without a fault and the panel never fails. -/
theorem streamRun_isOk (hkind : kind.NeverFails) {handle busy : Handle ν} {request : Request}
    {eventBuffer : Nat} {surroundings later : ω} {call : Call} {reported : Nat}
    (hcall : handle.call transport request (.consumed (max eventBuffer 1)) none surroundings =
      .ok (call, busy, later))
    (hending : call.ending = .replied (.runComplete reported)) (stream : Stream σ) :
    ∃ histogram,
      (streamRun transport kind handle request eventBuffer stream surroundings).1 =
        .ok histogram := by
  obtain ⟨followed, hfollow⟩ := Stream.follow_ok hkind call.happenings stream
  have hshown : (followed.drain.refresh kind).1 = .ok () := Panel.post_ok hkind _ _
  refine ⟨followed.drain.aggregator.histogram, ?_⟩
  simp only [streamRun, hcall, hfollow, hending, Handle.conclude, hshown]
  rfl

/-- The call that a histogram run makes, if it comes to one. -/
def histogramCall? (transport : Transport ν ω) (dispatcher : Dispatcher σ τ)
    (document : Option Document) (entry : Option String) (shots : Nat) (surroundings : ω) :
    Option Call := do
  let document ← document
  match dispatcher.pool.acquire transport surroundings with
  | (.error _, _, _) => none
  | (.ok handle, _, surroundings) =>
    match handle.call transport (.run document.sources entry shots dispatcher.profile)
        (.consumed (max dispatcher.eventBuffer 1)) none surroundings with
    | .error _ => none
    | .ok (call, _, _) => some call

variable {dispatcher : Dispatcher σ τ} {document : Option Document} {entry : Option String}
  {shots : Nat} {surroundings : ω}

theorem runHistogram_ok {histogram : Histogram}
    (hrun : (dispatcher.runHistogram transport kind document entry shots surroundings).1 =
      .ok histogram) :
    ∃ call followed,
      dispatcher.histogramCall? transport document entry shots surroundings = some call ∧
      Stream.follow kind ⟨.start shots dispatcher.policy 0, [], dispatcher.histogramPanel⟩
        call.happenings = (.ok (), followed) ∧
      histogram = followed.drain.aggregator.histogram ∧
      (followed.panel.post kind (.ofHistogram histogram)).1 = .ok () ∧
      (dispatcher.runHistogram transport kind document entry shots
        surroundings).2.1.histogramPanel =
          (followed.panel.post kind (.ofHistogram histogram)).2 := by
  unfold runHistogram at hrun ⊢
  cases document with
  | none => nomatch hrun
  | some document =>
      dsimp only at hrun ⊢
      split at hrun
      · nomatch hrun
      · rename_i handle pool later hacquire
        split at hrun
        · rename_i hstream
          obtain ⟨call, busy, last, followed, hcall, hfollow, hrest⟩ := streamRun_ok hstream
          obtain rfl := Except.ok.inj hrun
          have hmade : dispatcher.histogramCall? transport (some document) entry shots
              surroundings = some call := by
            simp only [histogramCall?, Option.bind_eq_bind, Option.bind_some, hacquire, hcall]
          exact ⟨call, followed, hmade, hfollow, hrest⟩
        · nomatch hrun

theorem histogramCall?_cases {call : Call}
    (hcall : dispatcher.histogramCall? transport document entry shots surroundings = some call) :
    ∃ page handle pool later busy last,
      document = some page ∧
      dispatcher.pool.acquire transport surroundings = (.ok handle, pool, later) ∧
      handle.call transport (.run page.sources entry shots dispatcher.profile)
        (.consumed (max dispatcher.eventBuffer 1)) none later = .ok (call, busy, last) := by
  obtain ⟨page, hpage, hcall⟩ := Option.bind_eq_some_iff.mp hcall
  split at hcall
  · nomatch hcall
  · rename_i handle pool later hacquire
    split at hcall
    · nomatch hcall
    · rename_i made busy last hmade
      obtain rfl := Option.some.inj hcall
      exact ⟨page, handle, pool, later, busy, last, hpage, hacquire, hmade⟩

/-- A run whose call is answered succeeds, if the panel never fails. -/
theorem runHistogram_isOk (hkind : kind.NeverFails) {call : Call} {reported : Nat}
    (hcall : dispatcher.histogramCall? transport document entry shots surroundings = some call)
    (hending : call.ending = .replied (.runComplete reported)) :
    ∃ histogram,
      (dispatcher.runHistogram transport kind document entry shots surroundings).1 =
        .ok histogram := by
  obtain ⟨page, handle, pool, later, busy, last, rfl, hacquire, hmade⟩ := histogramCall?_cases hcall
  obtain ⟨histogram, hstream⟩ := streamRun_isOk hkind hmade hending
    ⟨.start shots dispatcher.policy 0, [], dispatcher.histogramPanel⟩
  exact ⟨histogram, by simp only [runHistogram, hacquire, hstream]⟩

/-- The histogram of a run counts the events that came in, as far as there are shots for them. -/
theorem histogram_eq_ofLabels {histogram : Histogram}
    (hrun : (dispatcher.runHistogram transport kind document entry shots surroundings).1 =
      .ok histogram) {call : Call}
    (hcall : dispatcher.histogramCall? transport document entry shots surroundings = some call) :
    histogram = .ofLabels ((counted shots call.events).map (·.label)) := by
  obtain ⟨made, followed, hmade, hfollow, hhistogram, -⟩ := runHistogram_ok hrun
  obtain rfl := Option.some.inj (hcall.symm.trans hmade)
  have hfollows := (Stream.follows_start shots dispatcher.policy 0 dispatcher.histogramPanel).follow
    hfollow
  rw [hhistogram, hfollows.drain.histogram_eq, List.nil_append, Call.events_eq]

/-- A run that gets a worker makes a call. -/
theorem histogramCall?_eq_some {document : Document} (havailable : dispatcher.pool.available ≠ 0)
    {worker : ν} {later : ω} (hspawn : transport.spawn surroundings = (.ok worker, later)) :
    dispatcher.histogramCall? transport (some document) entry shots surroundings =
      some (transport.call (.run document.sources entry shots dispatcher.profile)
        (.consumed (max dispatcher.eventBuffer 1)) ⟨dispatcher.pool.timeout, none⟩ worker
        later).1 := by
  have hacquire : dispatcher.pool.acquire transport surroundings =
      (.ok { worker, timeout := dispatcher.pool.timeout, holdsSlot := true },
        { dispatcher.pool with available := dispatcher.pool.available - 1 }, later) := by
    simp only [Pool.acquire, if_neg havailable, hspawn]
  simp only [histogramCall?, Option.bind_eq_bind, Option.bind_some, hacquire, Handle.call,
    HandleState.refusal?]

/-- A run with an event for every shot counts all of them, whatever their order and however they
come in and are taken; the panel was last shown what the run returns. -/
theorem runHistogram_counts_all (hkind : kind.NeverFails)
    (dispatcher : Dispatcher (σ × List Notice) τ) (document : Document) (entry : Option String)
    (shots : Nat) (havailable : dispatcher.pool.available ≠ 0) {worker : ν} {later : ω}
    (hspawn : transport.spawn surroundings = (.ok worker, later)) {call : Call}
    (hcall : (transport.call (.run document.sources entry shots dispatcher.profile)
      (.consumed (max dispatcher.eventBuffer 1)) ⟨dispatcher.pool.timeout, none⟩ worker
      later).1 = call)
    (hindices : (call.events.map (·.index)).Perm (List.range shots)) {reported : Nat}
    (hending : call.ending = .replied (.runComplete reported)) :
    ∃ histogram after last,
      dispatcher.runHistogram transport kind.logged (some document) entry shots surroundings =
        (.ok histogram, after, last) ∧
      (∀ label, histogram.count label = call.events.countP (·.label = label)) ∧
      histogram.total = shots ∧
      after.histogramPanel.surfaces.2.head? = some (.ofHistogram histogram) := by
  have hmade : dispatcher.histogramCall? transport (some document) entry shots surroundings =
      some call := by
    rw [histogramCall?_eq_some havailable hspawn, hcall]
  obtain ⟨histogram, hrun⟩ := runHistogram_isOk hkind.logged hmade hending
  obtain ⟨-, followed, -, -, -, hposted, hpanel⟩ := runHistogram_ok hrun
  -- every index is a shot, and there are no more events than shots
  have hcounted : counted shots call.events = call.events := by
    have hlength : call.events.length = shots := by
      simpa using hindices.length_eq
    have hfilter : call.events.filter (·.index < shots) = call.events := by
      rw [List.filter_eq_self]
      intro event hevent
      have hmem := hindices.subset (List.mem_map_of_mem hevent)
      simpa using hmem
    rw [counted, hfilter, ← hlength, List.take_length]
  have hhistogram := histogram_eq_ofLabels hrun hmade
  rw [hcounted] at hhistogram
  refine ⟨histogram, _, _, Prod.ext hrun rfl, ?_, ?_, ?_⟩
  · intro label
    rw [hhistogram, Histogram.count_ofLabels, List.count_eq_countP, List.countP_map]
    rfl
  · rw [hhistogram, Histogram.total_ofLabels, List.length_map]
    simpa using hindices.length_eq
  · rw [hpanel]
    exact Panel.head?_log_post hposted

/-- Surfaces on which nothing is seen. -/
def unseen : SurfaceKind Unit where
  create surfaces := (.ok (), surfaces)
  post _ surfaces := (.ok (), surfaces)
  close surfaces := surfaces

theorem unseen_neverFails : unseen.NeverFails :=
  ⟨fun _ => rfl, fun _ _ => rfl⟩

/-- A document without text. -/
def blankPage : Document :=
  ⟨"bell.qb", "", []⟩

/-- A dispatcher of one worker, with room for one event, whose panel keeps a log. -/
def narrow : Dispatcher (Unit × List Notice) Unit where
  pool := { capacity := 1 }
  histogramPanel := .new ((), [])
  circuitPanel := .new ()
  eventBuffer := 1

/-- A worker that tells of three shots in another order than theirs. -/
def shuffled : Stage where
  scripts := [[.event ⟨"1", 2⟩ false, .event ⟨"0", 0⟩ false, .event ⟨"1", 1⟩ false,
    .reply (.runComplete 3)]]

theorem runHistogram_counts_all_shuffled :
    unseen.NeverFails ∧ ∃ histogram after last,
      narrow.runHistogram scripted unseen.logged (some blankPage) none 3 shuffled =
        (.ok histogram, after, last) ∧
      histogram.count "0" = 1 ∧ histogram.count "1" = 2 ∧ histogram.total = 3 ∧
      after.histogramPanel.surfaces.2.head? = some (.ofHistogram histogram) := by
  have hcall : (scripted.call (.run blankPage.sources none 3 narrow.profile)
      (.consumed (max narrow.eventBuffer 1)) ⟨narrow.pool.timeout, none⟩ ()
      { shuffled with spawns := 1 }).1 =
        ⟨[.delivered ⟨"1", 2⟩, .taken 0, .delivered ⟨"0", 0⟩, .taken 0, .delivered ⟨"1", 1⟩],
          .replied (.runComplete 3)⟩ := by
    simp [scripted, shuffled, narrow, play, hasRoom, makesRoom, Reception.isAttached,
      Patience.limit, defaultTimeout]
  obtain ⟨histogram, after, last, hrun, hcount, htotal, hlast⟩ :=
    runHistogram_counts_all unseen_neverFails narrow blankPage none 3 (by decide)
      (show scripted.spawn shuffled = (.ok (), { shuffled with spawns := 1 }) from rfl) hcall
      (by decide) rfl
  exact ⟨unseen_neverFails, histogram, after, last, hrun, hcount "0", hcount "1", htotal, hlast⟩

/-- A run that succeeds has counted as many events with the index of a shot as came in, up to the
number of shots.  So its histogram is complete exactly if as many came in, whatever number of shots
the reply reports. -/
theorem runHistogram_total {histogram : Histogram}
    (hrun : (dispatcher.runHistogram transport kind document entry shots surroundings).1 =
      .ok histogram) :
    ∃ call,
      dispatcher.histogramCall? transport document entry shots surroundings = some call ∧
      histogram.total = min shots (call.events.countP (·.index < shots)) ∧
      (histogram.total = shots ↔ shots ≤ call.events.countP (·.index < shots)) := by
  obtain ⟨call, -, hcall, -⟩ := runHistogram_ok hrun
  have htotal : histogram.total = min shots (call.events.countP (·.index < shots)) := by
    rw [histogram_eq_ofLabels hrun hcall, Histogram.total_ofLabels, List.length_map,
      length_counted]
  refine ⟨call, hcall, htotal, ?_⟩
  rw [htotal]
  exact min_eq_left_iff

/-- A worker that tells of two shots and reports three. -/
def forgetful : Stage where
  scripts := [[.event ⟨"0", 0⟩ false, .event ⟨"1", 1⟩ false, .reply (.runComplete 3)]]

theorem runHistogram_total_forgetful :
    ∃ histogram,
      (narrow.runHistogram scripted unseen.logged (some blankPage) none 3 forgetful).1 =
        .ok histogram ∧ histogram.buckets = [("0", 1), ("1", 1)] ∧ histogram.total ≠ 3 := by
  have hspawn : scripted.spawn forgetful = (.ok (), { forgetful with spawns := 1 }) := rfl
  have hcall : narrow.histogramCall? scripted (some blankPage) none 3 forgetful =
      some ⟨[.delivered ⟨"0", 0⟩, .taken 0, .delivered ⟨"1", 1⟩],
        .replied (.runComplete 3)⟩ := by
    rw [histogramCall?_eq_some (by decide) hspawn]
    simp [scripted, forgetful, narrow, play, hasRoom, makesRoom, Reception.isAttached,
      Patience.limit, defaultTimeout]
  obtain ⟨histogram, hrun⟩ := runHistogram_isOk unseen_neverFails.logged hcall rfl
  obtain ⟨call, hmade, htotal, -⟩ := runHistogram_total hrun
  obtain rfl := Option.some.inj (hcall.symm.trans hmade)
  refine ⟨histogram, hrun, ?_, ?_⟩
  · rw [histogram_eq_ofLabels hrun hcall]
    decide
  · rw [htotal]
    decide

end Dispatcher

end Dispatch

end GateBench
