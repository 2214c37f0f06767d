import GateBench.Proofs.CircuitReply
import GateBench.Proofs.Conversations

/-!
Replies of the simulating engine.  A reply fits what was told before it, whatever the listener
answered and whenever the request was cancelled; and the three kinds of request agree about the same
sources, so a check foretells how a run and a circuit of the only entry point will fail.
-/

namespace GateBench.Message

/-- The profile of a request. -/
def Request.profile : Request → Profile
  | .check _ profile => profile
  | .run _ _ _ profile => profile
  | .circuit _ profile _ => profile

/-- The number of shots of a run. -/
def Request.shots? : Request → Option Nat
  | .run _ _ shots _ => some shots
  | _ => none

/-- Whether a request names no operation, so that it is about the only entry point. -/
def Request.usesEntryPoint : Request → Prop
  | .check .. => False
  | .run _ entry _ _ => entry = none
  | .circuit _ _ operation => operation = none

/-- A reply that fits its request and the events told before it, each with the answer whether
somebody listens. -/
structure Response.Fits (request : Request) (told : List (RunEvent × Bool)) (response : Response) :
    Prop where
  answers : response.answers request.kind = true
  onlyRuns : told ≠ [] → request.kind = .run
  indices : told.map (·.1.index) = List.range told.length
  complete : ∀ shots, response = .runComplete shots →
    request.shots? = some shots ∧ told.length = shots ∧ ∀ shot ∈ told, shot.2 = true
  refused : ∀ fault, response = .failed fault →
    fault.kind = .compile ∨ fault.kind = .profile → told = []
  cancelled : ∀ fault, response = .failed fault → fault.kind = .cancelled →
    ∃ shots, request.shots? = some shots ∧
      fault.message =
        "Run cancelled after " ++ toString told.length ++ " of " ++ toString shots ++ " shots"

/-- A reply before which nothing was told fits, unless it is about shots. -/
theorem Response.Fits.of_silent {request : Request} {response : Response}
    (hanswers : response.answers request.kind = true)
    (hcomplete : ∀ shots, response ≠ .runComplete shots)
    (hcancelled : ∀ fault, response = .failed fault → fault.kind ≠ .cancelled) :
    response.Fits request [] where
  answers := hanswers
  onlyRuns hsome := absurd rfl hsome
  indices := rfl
  complete shots hreply := absurd hreply (hcomplete shots)
  refused _ _ _ := rfl
  cancelled fault hreply hkind := absurd hkind (hcancelled fault hreply)

end GateBench.Message

namespace GateBench.Program

variable {program : Program} {number : Nat}

/-! ### The only entry point -/

/-- The only entry point is the one a request without a name is about. -/
theorem exists_numbersWhere_isEntry
    (hsingle : program.operations.toList.countP (·.isEntry) = 1) :
    ∃ number, program.numbersWhere (·.isEntry) = [number] := by
  rw [← length_numbersWhere] at hsingle
  exact List.length_eq_one_iff.mp hsingle

theorem entry_none_of_numbersWhere (hentries : program.numbersWhere (·.isEntry) = [number]) :
    program.entry none = .ok number := by
  simp only [entry, hentries]

end GateBench.Program

namespace GateBench.Simulation

open GateBench.Message GateBench.Program

/-- The operation that a run or a circuit is about. -/
def choice : Request → Program → Except ProgramError Nat
  | .check .. => fun program => program.entry none
  | .run _ entry _ _ => fun program => program.entry entry
  | .circuit _ _ operation => chosen operation

theorem kind_ne_of_usesEntryPoint {request : Request} (hentry : request.usesEntryPoint) :
    request.kind ≠ .check := by
  cases request with
  | check sources profile => exact hentry.elim
  | run sources entry shots profile => nofun
  | circuit sources profile operation => nofun

theorem choice_of_usesEntryPoint {request : Request} (hentry : request.usesEntryPoint)
    (program : Program) : choice request program = program.entry none := by
  cases request with
  | check sources profile => rfl
  | run sources entry shots profile =>
      cases hentry
      rfl
  | circuit sources profile operation =>
      cases hentry
      rfl

namespace StatevectorEngine

variable {engine : StatevectorEngine} {generator : Generator} {request : Request}
  {sources : List Source} {profile : Profile} {choose : Program → Except ProgramError Nat}
  {program : Program} {number : Nat} {fault : WorkerFault}

/-! ### Compiling and choosing -/

/-- Nothing is chosen because the sources do not compile, the choice fails, or the profile refuses
the chosen operation. -/
theorem select_error_iff :
    engine.select sources profile choose = .error fault ↔
      (∃ errors, compile sources engine.limits = .error errors ∧ compileFault errors = fault) ∨
      ∃ program, compile sources engine.limits = .ok program ∧
        ((∃ error, choose program = .error error ∧ choiceFault error = fault) ∨
        ∃ number first others, choose program = .ok number ∧
          program.violations number profile = first :: others ∧
          profileFault first (first :: others) = fault) := by
  simp only [select, bind_eq_error_iff, mapError_eq_error_iff, mapError_eq_ok_iff]
  refine or_congr_right (exists_congr fun program => and_congr_right fun _ => or_congr_right ?_)
  constructor
  · rintro ⟨number, hchoose, hrefused⟩
    split at hrefused
    · cases hrefused
    · rename_i first others hviolations
      exact ⟨number, first, others, hchoose, hviolations, Except.error.inj hrefused⟩
  · rintro ⟨number, first, others, hchoose, hviolations, hfault⟩
    refine ⟨number, hchoose, ?_⟩
    rw [hviolations]
    exact congrArg Except.error hfault

theorem select_error_kind (hselect : engine.select sources profile choose = .error fault) :
    fault.kind = .compile ∨ fault.kind = .profile := by
  obtain ⟨errors, -, rfl⟩ | ⟨program, -, ⟨error, -, rfl⟩ | ⟨number, first, others, -, -, rfl⟩⟩ :=
    select_error_iff.mp hselect
  · exact .inl rfl
  · exact .inl rfl
  · exact .inr rfl

theorem circuit_of_select_error {operation : Option QualifiedName}
    (hselect : engine.select sources profile (chosen operation) = .error fault) :
    engine.circuit sources profile operation = .failed fault := by
  unfold circuit
  extract_lets choose
  have hchoose : choose = chosen operation := rfl
  rw [hchoose, hselect]

/-- A run or a circuit fails at once when nothing can be chosen. -/
theorem serveWith_of_select_error (hkind : request.kind ≠ .check)
    (hselect : engine.select request.sources request.profile (choice request) = .error fault) :
    engine.serveWith generator request = .done (.failed fault) := by
  cases request with
  | check sources profile => exact absurd rfl hkind
  | run sources entry shots profile =>
      change engine.select sources profile (·.entry entry) = _ at hselect
      rw [serveWith, runWith, hselect]
  | circuit sources profile operation =>
      exact congrArg Dialogue.done (circuit_of_select_error hselect)

/-- The reply to a run fits when the run told its shots in order and ended as they say. -/
theorem fits_reply {entry : Option String} {shots : Nat} {told : List (RunEvent × Bool)}
    {ending : RunEnd} (hindices : told.map (·.1.index) = List.range told.length)
    (hends : ending.Fits 0 shots told) :
    (ending.reply shots).Fits (.run sources entry shots profile) told := by
  cases hends with
  | completed hlength hheard =>
      rw [Nat.zero_add]
      exact {
        answers := rfl
        onlyRuns := fun _ => rfl
        indices := hindices
        complete := by
          rintro _ ⟨⟩
          exact ⟨rfl, hlength, hheard⟩
        refused := nofun
        cancelled := nofun }
  | stopped =>
      rw [Nat.zero_add]
      exact {
        answers := rfl
        onlyRuns := fun _ => rfl
        indices := hindices
        complete := nofun
        refused := by
          rintro _ ⟨⟩ (hkind | hkind)
          · nomatch hkind
          · nomatch hkind
        cancelled := by
          rintro _ ⟨⟩ -
          exact ⟨shots, rfl, rfl⟩ }

/-- The answers to a request for which an operation was chosen. -/
theorem serveWith_of_select_ok {selection : Selection} {told : List (RunEvent × Bool)}
    {response : Response} (hkind : request.kind ≠ .check)
    (hselect : engine.select request.sources request.profile (choice request) = .ok selection)
    (hcourse : (engine.serveWith generator request).Course told response) :
    response.Fits request told ∧ ∀ fault, response = .failed fault → fault.kind = .cancelled := by
  obtain ⟨program, number⟩ := selection
  cases request with
  | check sources profile => exact absurd rfl hkind
  | run sources entry shots profile =>
      change engine.select sources profile (·.entry entry) = _ at hselect
      rw [serveWith, runWith, hselect] at hcourse
      obtain ⟨⟨ending, last⟩, hrun, rfl⟩ := Dialogue.course_map hcourse
      obtain ⟨hindices, hends⟩ := Circuit.runFrom_course hrun
      rw [← List.range_eq_range'] at hindices
      refine ⟨fits_reply hindices hends, ?_⟩
      intro fault hfailed
      cases ending with
      | completed done => nomatch hfailed
      | stopped done =>
          obtain rfl := Response.failed.inj hfailed
          rfl
  | circuit sources profile operation =>
      change engine.select sources profile (chosen operation) = _ at hselect
      have hreply := circuit_eq_circuit_iff.mpr ⟨program, number, hselect, rfl⟩
      rw [serveWith, hreply] at hcourse
      cases hcourse
      exact ⟨.of_silent rfl nofun nofun, nofun⟩

/-- On every course of a request, the reply fits what was told. -/
theorem serveWith_course_fits {told : List (RunEvent × Bool)} {response : Response}
    (hcourse : (engine.serveWith generator request).Course told response) :
    response.Fits request told := by
  by_cases hkind : request.kind = .check
  · cases request with
    | check sources profile =>
        rw [serveWith, check] at hcourse
        split at hcourse
        · cases hcourse
          exact .of_silent rfl nofun nofun
        · cases hcourse
          exact .of_silent rfl nofun nofun
    | run sources entry shots profile => nomatch hkind
    | circuit sources profile operation => nomatch hkind
  · cases hselect : engine.select request.sources request.profile (choice request) with
    | ok selection => exact (serveWith_of_select_ok hkind hselect hcourse).1
    | error fault =>
        rw [serveWith_of_select_error hkind hselect] at hcourse
        cases hcourse
        refine .of_silent rfl nofun ?_
        rintro _ ⟨⟩ hcancelled
        obtain hcompile | hprofile := select_error_kind hselect
        · exact absurd (hcompile.symm.trans hcancelled) (by decide)
        · exact absurd (hprofile.symm.trans hcancelled) (by decide)

/-- The reply to every request fits what the listener heard and how it answered, whatever generator
the engine draws from, and whenever the request is cancelled or the listener leaves. -/
theorem reply_fits_heard (engine : StatevectorEngine) (generator : Generator) (request : Request)
    {ω : Type} (audience : Audience ω) (listener : ω) :
    ((engine.serveWith generator request).heard audience listener).map Prod.fst =
        ((engine.serveWith generator request).converse audience listener).events ∧
      ((engine.serveWith generator request).converse audience listener).result.Fits request
        ((engine.serveWith generator request).heard audience listener) := by
  obtain ⟨hevents, hcourse⟩ :=
    Dialogue.heard_spec audience (engine.serveWith generator request) listener
  exact ⟨hevents, serveWith_course_fits hcourse⟩

/-! ### Requests about the same sources -/

theorem check_of_compile_error {errors : List ProgramError}
    (hrefused : compile sources engine.limits = .error errors) :
    engine.check sources profile = .checked (errors.map (·.diagnostic)) [] := by
  rw [check, hrefused]

/-- The errors of sources that do not compile are what every other request fails with. -/
theorem serveWith_of_compile_error {errors : List ProgramError} (hkind : request.kind ≠ .check)
    (hrefused : compile request.sources engine.limits = .error errors) :
    engine.serveWith generator request = .done (.failed (compileFault errors)) :=
  serveWith_of_select_error hkind (select_error_iff.mpr (.inl ⟨errors, hrefused, rfl⟩))

/-- With one entry point, a check reports what the profile refuses in it. -/
theorem check_of_numbersWhere (hcompile : compile sources engine.limits = .ok program)
    (hentries : program.numbersWhere (·.isEntry) = [number]) :
    engine.check sources profile =
      .checked ((program.violations number profile).map (·.diagnostic)) program.summaries := by
  rw [check, hcompile]
  simp only [hentries, List.flatMap_singleton]

/-- With one entry point, a request that names no operation gets as far as the profile lets it. -/
theorem serveWith_of_numbersWhere (generator : Generator) (hentry : request.usesEntryPoint)
    (hcompile : compile request.sources engine.limits = .ok program)
    (hentries : program.numbersWhere (·.isEntry) = [number]) :
    (∀ first others, program.violations number request.profile = first :: others →
      engine.serveWith generator request =
        .done (.failed (profileFault first (first :: others)))) ∧
    (program.violations number request.profile = [] →
      ∀ told fault, (engine.serveWith generator request).Course told (.failed fault) →
        fault.kind = .cancelled) := by
  have hkind := kind_ne_of_usesEntryPoint hentry
  have hchoose : choice request program = .ok number := by
    rw [choice_of_usesEntryPoint hentry, entry_none_of_numbersWhere hentries]
  constructor
  · intro first others hviolations
    apply serveWith_of_select_error hkind
    exact select_error_iff.mpr
      (.inr ⟨program, hcompile, .inr ⟨number, first, others, hchoose, hviolations, rfl⟩⟩)
  · intro hnone told fault hcourse
    have hselect :
        engine.select request.sources request.profile (choice request) = .ok ⟨program, number⟩ :=
      select_ok_iff.mpr ⟨hcompile, hchoose, hnone⟩
    exact (serveWith_of_select_ok hkind hselect hcourse).2 fault rfl

/-- A check foretells the other requests about the same sources.  If the sources do not compile, it
reports what every one of them fails with.  If they compile and have one entry point, it reports
what the profile refuses in a request that names no operation, and when it reports nothing, neither
the compiler nor the profile refuses such a request. -/
theorem check_foretells (engine : StatevectorEngine) (sources : List Source) (profile : Profile) :
    ∃ diagnostics operations,
      (∀ generator, engine.serveWith generator (.check sources profile) =
        .done (.checked diagnostics operations)) ∧
      (∀ errors, compile sources engine.limits = .error errors →
        operations = [] ∧ diagnostics ≠ [] ∧
        ∀ generator request, request.sources = sources → request.kind ≠ .check →
          ∃ message, engine.serveWith generator request =
            .done (.failed ⟨.compile, message, diagnostics⟩)) ∧
      (∀ program, compile sources engine.limits = .ok program →
        program.operations.toList.countP (·.isEntry) = 1 →
        ∀ generator request, request.sources = sources → request.profile = profile →
          request.usesEntryPoint →
          (diagnostics ≠ [] → ∃ message, engine.serveWith generator request =
            .done (.failed ⟨.profile, message, diagnostics⟩)) ∧
          (diagnostics = [] → ∀ (ω : Type) (audience : Audience ω) (listener : ω) fault,
            ((engine.serveWith generator request).converse audience listener).result =
              .failed fault → fault.kind ≠ .compile ∧ fault.kind ≠ .profile)) := by
  cases hcompiled : compile sources engine.limits with
  | error errors =>
      refine ⟨errors.map (·.diagnostic), [], ?_, ?_, nofun⟩
      · intro generator
        rw [serveWith, check_of_compile_error hcompiled]
      · rintro _ ⟨⟩
        refine ⟨rfl, ?_, ?_⟩
        · intro hnone
          exact compile_error_ne_nil hcompiled (List.map_eq_nil_iff.mp hnone)
        · rintro generator request rfl hkind
          exact ⟨_, serveWith_of_compile_error hkind hcompiled⟩
  | ok program =>
      refine ⟨_, _, fun generator => by rw [serveWith, check, hcompiled], nofun, ?_⟩
      rintro _ ⟨⟩ hsingle generator request rfl rfl hentry
      obtain ⟨number, hentries⟩ := exists_numbersWhere_isEntry hsingle
      obtain ⟨hrefused, hallowed⟩ :=
        serveWith_of_numbersWhere generator hentry hcompiled hentries
      simp only [hentries, List.flatMap_singleton]
      constructor
      · intro hsome
        cases hviolations : program.violations number request.profile with
        | nil => exact absurd (congrArg _ hviolations) hsome
        | cons first others =>
            exact ⟨first.message, hrefused first others hviolations⟩
      · intro hnone ω audience listener fault hfailed
        obtain ⟨-, hcourse⟩ :=
          Dialogue.heard_spec audience (engine.serveWith generator request) listener
        rw [hfailed] at hcourse
        have hcancelled := hallowed (List.map_eq_nil_iff.mp hnone) _ fault hcourse
        rw [hcancelled]
        exact ⟨nofun, nofun⟩

/-- An entry point that the base profile refuses. -/
def resetEntry : Source :=
  ⟨"reset.qb", "@entry operation A { reset 0; }"⟩

/-- What it compiles to. -/
def resetEntryProgram : Program :=
  ⟨#[⟨⟨⟨none, "A"⟩, true, ⟨"reset.qb", 1⟩, [⟨.perform (.reset 0), 1⟩]⟩, ⟨[0], 1, 0⟩⟩]⟩

theorem compile_resetEntry : compile [resetEntry] {} = .ok resetEntryProgram := by
  have hparse : parse resetEntry =
      .ok ⟨"reset.qb", none, [⟨"A", true, 1, [⟨.reset 0, 1⟩]⟩]⟩ := by
    decide +kernel
  have hfile : compileFiles [⟨"reset.qb", none, [⟨"A", true, 1, [⟨.reset 0, 1⟩]⟩]⟩] {} =
      .ok resetEntryProgram := by
    cbv
  exact compile_ok_iff_compileFiles.mpr ⟨_, .cons hparse .nil, hfile⟩

/-- What a check reports about it. -/
def resetEntryDiagnostic : Diagnostic :=
  ⟨.error, "Reset of qubit 0 (not supported by the base profile)", some "reset.qb", some 1⟩

theorem check_resetEntry : ({} : StatevectorEngine).check [resetEntry] .base =
    .checked [resetEntryDiagnostic] resetEntryProgram.summaries := by
  have hentries : resetEntryProgram.numbersWhere (·.isEntry) = [0] := by
    decide +kernel
  have hreport : (resetEntryProgram.violations 0 .base).map (·.diagnostic) =
      [resetEntryDiagnostic] := by
    decide +kernel
  rw [← hreport]
  exact check_of_numbersWhere compile_resetEntry hentries

/-- An operation without a name. -/
def nameless : Source :=
  ⟨"nameless.qb", "operation"⟩

theorem compile_nameless :
    compile [nameless] {} = .error [.unexpectedEnd "nameless.qb" .identifier] := by
  have hparse : parse nameless = .error (.unexpectedEnd "nameless.qb" .identifier) := by
    decide +kernel
  simp [compile, splitResults, hparse]

theorem check_nameless : ({} : StatevectorEngine).check [nameless] .base =
    .checked [(ProgramError.unexpectedEnd "nameless.qb" .identifier).diagnostic] [] := by
  rw [check, compile_nameless]
  rfl

theorem check_foretells_examples :
    compile [nameless] {} = .error [.unexpectedEnd "nameless.qb" .identifier] ∧
      (∃ message, ({} : StatevectorEngine).serve (.run [nameless] (some "A") 3 .base) =
        .done (.failed ⟨.compile, message,
          [(ProgramError.unexpectedEnd "nameless.qb" .identifier).diagnostic]⟩)) ∧
      compile [resetEntry] {} = .ok resetEntryProgram ∧
      resetEntryProgram.operations.toList.countP (·.isEntry) = 1 ∧
      ∃ message, ({} : StatevectorEngine).serve (.circuit [resetEntry] .base none) =
        .done (.failed ⟨.profile, message, [resetEntryDiagnostic]⟩) := by
  have hsingle : resetEntryProgram.operations.toList.countP (·.isEntry) = 1 := rfl
  refine ⟨compile_nameless, ?_, compile_resetEntry, hsingle, ?_⟩
  · obtain ⟨diagnostics, operations, hcheck, hfails, -⟩ :=
      check_foretells ({} : StatevectorEngine) [nameless] .base
    have hsame := hcheck (.ofSeed 0)
    rw [serveWith, check_nameless] at hsame
    obtain ⟨rfl, -⟩ := Response.checked.inj (Dialogue.done.inj hsame)
    exact (hfails _ compile_nameless).2.2 (.ofSeed 0) _ rfl nofun
  · obtain ⟨diagnostics, operations, hcheck, -, hfails⟩ :=
      check_foretells ({} : StatevectorEngine) [resetEntry] .base
    have hsame := hcheck (.ofSeed 0)
    rw [serveWith, check_resetEntry] at hsame
    obtain ⟨rfl, -⟩ := Response.checked.inj (Dialogue.done.inj hsame)
    have hrefused := hfails resetEntryProgram compile_resetEntry hsingle (.ofSeed 0)
    exact (hrefused (.circuit [resetEntry] .base none) rfl rfl rfl).1 nofun

end StatevectorEngine

end GateBench.Simulation
