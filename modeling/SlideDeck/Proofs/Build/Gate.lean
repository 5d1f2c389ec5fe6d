import SlideDeck.Proofs.Build.Compilation
import SlideDeck.Proofs.CommandLine.Session
import SlideDeck.Proofs.Document.Gate
import SlideDeck.Proofs.Files.Directory

/-!
# One gate before the engine

A build converts a file and reads the result again, a rebuild keeps it in memory. Both come to the
same gate: where the LaTeX file can be written, they start the engine on the same file with the same
text just if nothing in the text stops a build (`build_and_rebuild`).
-/

set_option autoImplicit false

namespace SlideDeck.Build

open SlideDeck.Text SlideDeck.FileTree SlideDeck.Activity SlideDeck.CommandLine

variable {host : Host} {w v : Workspace} {job : Job} {source latex : Text}
  {made after : FileTree} {file : Path} {options : CompileOptions}

/-- The LaTeX text of a job: the document of a Markdown source, or the source itself. -/
def latexText (job : Job) (source : Text) : Text :=
  if isMarkdown job.source then Document.ofMarkdown source job.document else source

/-! ## Conversion -/

/-- The workspace with the notices about a Markdown source. -/
def noticed (w : Workspace) (source : Text) (options : Document.Options) : Workspace :=
  { w with notices := w.notices ++ Document.noticesOfMarkdown source options }

theorem convert_apply (source : Text) (options : Document.Options) :
    convert source options host w =
      (.ok (Document.ofMarkdown source options), noticed w source options) := rfl

theorem latexOf_of_writesTo (markdown : isMarkdown job.source = true)
    (done : WritesTo host w.files (latexPath job.source) (Document.ofMarkdown source job.document)
      made after) : ∃ notices, latexOf job source host w =
        (.ok (Document.ofMarkdown source job.document), { w with files := after, notices }) := by
  refine ⟨(noticed w source job.document).notices, ?_⟩
  rw [latexOf, if_pos markdown, bind_of_ok (convert_apply _ _),
    bind_of_ok (done.ensures (noticed w source job.document) rfl)]
  exact bind_of_ok (writeText_of_ok done.writes)

theorem latexOf_of_refuses (markdown : isMarkdown job.source = true)
    (refuses : Refuses host w.files (latexPath job.source)
      (Document.ofMarkdown source job.document)) : ∃ failure v,
        latexOf job source host w = (.error failure, v) ∧ v.started = w.started := by
  rw [latexOf, if_pos markdown, bind_of_ok (convert_apply _ _)]
  rcases refuses with ⟨failure, made, failed⟩ | ⟨made, fault, ensures, refused⟩
  · exact ⟨failure, _, bind_of_error (failed (noticed w source job.document) rfl), rfl⟩
  · rw [bind_of_ok (ensures (noticed w source job.document) rfl)]
    exact ⟨_, _, bind_of_error (writeText_of_error refused), rfl⟩

theorem convertFile_of_writesTo {input : Path} {options : Document.Options}
    (there : w.files.holdsFile host.here input = true)
    (content : w.files.readText host.here input = .ok source)
    (done : WritesTo host w.files file (Document.ofMarkdown source options) made after) :
    ∃ notices, Session.convertFile input file options host w =
      (.ok (), { w with files := after, notices }) := by
  refine ⟨(noticed w source options).notices, ?_⟩
  rw [Session.convertFile, Session.bind_of_ok (Session.readInput_of_readText there content),
    Session.bind_of_ok (Session.of_of_ok (convert_apply _ _)),
    Session.bind_of_ok (Session.of_of_ok (done.ensures (noticed w source options) rfl)),
    Session.bind_of_ok (Session.of_of_ok (change_of_ok done.writes))]
  rfl

theorem convertFile_of_refuses {input : Path} {options : Document.Options}
    (there : w.files.holdsFile host.here input = true)
    (content : w.files.readText host.here input = .ok source)
    (refuses : Refuses host w.files file (Document.ofMarkdown source options)) :
    ∃ complaint v, Session.convertFile input file options host w = (.error complaint, v) ∧
      v.started = w.started := by
  rw [Session.convertFile, Session.bind_of_ok (Session.readInput_of_readText there content),
    Session.bind_of_ok (Session.of_of_ok (convert_apply _ _))]
  rcases refuses with ⟨failure, made, failed⟩ | ⟨made, fault, ensures, refused⟩
  · have written := failed (noticed w source options) rfl
    exact ⟨_, _, Session.bind_of_error (Session.of_of_error written), rfl⟩
  · rw [Session.bind_of_ok (Session.of_of_ok (ensures (noticed w source options) rfl)),
      Session.bind_of_ok (Session.of_of_ok (change_of_error refused))]
    exact ⟨_, _, rfl, rfl⟩

/-! ## The gate of a build -/

theorem buildLatex_of_not_file (options : CompileOptions)
    (missing : w.files.holdsFile host.here file = false) :
    ∃ complaint, Session.buildLatex file options host w = (.error complaint, w) := by
  obtain ⟨complaint, refused⟩ := Session.readInput_of_not_file missing
  exact ⟨complaint, Session.bind_of_error (Session.bind_of_error refused)⟩

/-- What a build does with a LaTeX file, behind the gate or stopped by it. -/
theorem buildLatex_of_readText (options : CompileOptions)
    (there : w.files.holdsFile host.here file = true)
    (content : w.files.readText host.here file = .ok latex) : ∃ output,
      (Lint.blockers latex = [] → Session.buildLatex file options host w =
        (Session.of (compile file options) >>= Session.tell "PDF built successfully") host
          { w with output }) ∧
      (Lint.blockers latex ≠ [] → Session.buildLatex file options host w =
        (.error (.failed (.lintFailed (Lint.blockers latex).length)), { w with output })) := by
  refine ⟨w.output ++ Lint.report file (Lint.issues latex), ?_, ?_⟩
  · intro passed
    have checked : Session.checkBeforeBuild file host w =
        (.ok (), { w with output := w.output ++ Lint.report file (Lint.issues latex) }) := by
      rw [Session.checkBeforeBuild,
        Session.bind_of_ok (Session.readInput_of_readText there content),
        Session.bind_of_ok (Session.of_of_ok (print_apply _)), passed]
      rfl
    exact Session.bind_of_ok checked
  · intro blocked
    have checked : Session.checkBeforeBuild file host w =
        (.error (.failed (.lintFailed (Lint.blockers latex).length)),
          { w with output := w.output ++ Lint.report file (Lint.issues latex) }) := by
      rw [Session.checkBeforeBuild,
        Session.bind_of_ok (Session.readInput_of_readText there content),
        Session.bind_of_ok (Session.of_of_ok (print_apply _))]
      cases stops : Lint.blockers latex with
      | nil => exact absurd stops blocked
      | cons first rest => rfl
    exact Session.bind_of_error checked

/-! ## The gate of a rebuild -/

/-- What a rebuild does when it has the LaTeX text. -/
def finish (job : Job) (latex : Text) : Activity Outcome := do
  let pdf ← compileUnlessBlocked job latex
  let page ← savePage job latex
  return ⟨latexPath job.source, .of (Lint.issues latex), pdf, page⟩

theorem rebuild_of_latexOf (content : w.files.readText host.here job.source = .ok source)
    (converted : latexOf job source host w = (.ok latex, v)) :
    ∃ notices, rebuild job host w = finish job latex host { v with notices } := by
  rw [rebuild, bind_of_ok (readText_of_ok content), bind_of_ok converted]
  cases found : (Lint.issues latex).isEmpty with
  | true => exact ⟨v.notices, rfl⟩
  | false => exact ⟨_, bind_of_ok (notice_apply _)⟩

theorem rebuild_of_latexOf_error (content : w.files.readText host.here job.source = .ok source)
    {failure : Failure} (failed : latexOf job source host w = (.error failure, v)) :
    rebuild job host w = (.error failure, v) := by
  rw [rebuild, bind_of_ok (readText_of_ok content), bind_of_error failed]

/-- Behind the gate a rebuild compiles the LaTeX file. -/
theorem finish_of_passed (compiled : job.compile = some options)
    (passed : Lint.blockers latex = []) : finish job latex = (do
      let pdf ← compile (latexPath job.source) options
      let page ← savePage job latex
      return ⟨latexPath job.source, .of (Lint.issues latex), some pdf, page⟩) := by
  rw [finish, compileUnlessBlocked, compiled, passed]
  simp only [bind_assoc, pure_bind]

/-- At the gate a rebuild leaves out the compilation. -/
theorem finish_of_blocked (compiled : job.compile = some options)
    (blocked : Lint.blockers latex ≠ []) : ∃ what, finish job latex = (do
      Activity.notice what
      let page ← savePage job latex
      return ⟨latexPath job.source, .of (Lint.issues latex), none, page⟩) := by
  rw [finish, compileUnlessBlocked, compiled]
  cases stops : Lint.blockers latex with
  | nil => exact absurd stops blocked
  | cons first rest => exact ⟨_, by simp only [bind_assoc, pure_bind]; rfl⟩

/-! ## Pages -/

theorem exists_of_ofText (host : Host) (w : Workspace) (latex : Text)
    (options : PageOptions) : ∃ notices,
    Page.ofText latex options host w =
      (.ok (Page.ofLatex (Resource.content host.fetch w.files host.here) host.today latex options),
        { w with notices }) :=
  ⟨_, rfl⟩

/-- Saving a page starts nothing. -/
theorem started_savePage (job : Job) (latex : Text) :
    Within (fun w v => v.started = w.started) (savePage job latex) := by
  have trans : ∀ {u v w : Workspace}, v.started = u.started → w.started = v.started →
      w.started = u.started := fun first second => second.trans first
  rw [savePage]
  cases job.page with
  | none => exact (OnFiles.pure none).started
  | some file =>
      refine Within.bind trans (fun host w => rfl) fun page => ?_
      have saves : OnFiles (Page.save page file) :=
        (onFiles_ensureParent file).bind fun _ => OnFiles.writeText _ _ _
      exact (saves.bind fun _ => OnFiles.pure (some file)).started

theorem savePage_of_none (absent : job.page = none) :
    savePage job latex host w = (.ok none, w) := by
  rw [savePage, absent]
  rfl

/-- Where there is room the page of the LaTeX text is saved. -/
theorem savePage_of_writable (latex : Text) (asked : job.page = some file)
    (writable : Writable host w file) :
    ∃ v, savePage job latex host w = (.ok (some file), v) ∧
      v.files.readText host.here file =
        .ok (Page.ofLatex (Resource.content host.fetch w.files host.here) host.today latex
          job.pageOptions) := by
  let page := Page.ofLatex (Resource.content host.fetch w.files host.here) host.today latex
    job.pageOptions
  obtain ⟨made, after, done⟩ := writable.writesTo page
  have saved : ∀ u : Workspace, u.files = w.files →
      Page.save page file host u = (.ok (), { u with files := after }) := by
    intro u same
    rw [Page.save, bind_of_ok (done.ensures u same)]
    exact writeText_of_ok done.writes
  obtain ⟨notices, made⟩ := exists_of_ofText host w latex job.pageOptions
  refine ⟨{ w with files := after, notices }, ?_, done.readText writable⟩
  rw [savePage, asked]
  change (Page.ofText latex job.pageOptions >>= _) host w = _
  rw [bind_of_ok made, bind_of_ok (saved { w with notices } rfl)]
  rfl

/-! ## What is started -/

/-- Telling about a result starts nothing. -/
theorem started_tell (activity : Activity Path) (what : String) (host : Host) (w : Workspace) :
    ((Session.of activity >>= Session.tell what) host w).2.started =
      (activity host w).2.started := by
  cases answer : (activity host w).1 with
  | error failure =>
      rw [Session.bind_of_error (Session.of_of_error (Prod.ext answer rfl))]
  | ok path =>
      rw [Session.bind_of_ok (Session.of_of_ok (Prod.ext answer rfl))]
      rfl

/-- What a rebuild does with the page starts nothing. -/
theorem started_page {α : Type} (activity : Activity α) (job : Job) (latex : Text)
    (outcome : α → Option Path → Outcome) (host : Host) (w : Workspace) :
    ((do
      let x ← activity
      let page ← savePage job latex
      return outcome x page : Activity Outcome) host w).2.started =
        (activity host w).2.started := by
  have page : ∀ x, Within (fun w v => v.started = w.started)
      (savePage job latex >>= fun page => pure (outcome x page)) := fun x =>
    Within.bind (fun first second => second.trans first) (started_savePage job latex)
      fun page => (OnFiles.pure _).started
  rcases bind_cases activity (fun x => savePage job latex >>= fun page => pure (outcome x page))
    host w with ⟨failure, -, whole⟩ | ⟨x, -, whole⟩
  · rw [whole]
  · rw [whole]
    exact page x host _

/-- Where the LaTeX file is not there, a rebuild starts nothing any more. -/
theorem started_finish_of_not_file (compiled : job.compile = some options)
    (missing : w.files.holdsFile host.here (latexPath job.source) = false) :
    (finish job latex host w).2.started = w.started := by
  by_cases passed : Lint.blockers latex = []
  · obtain ⟨failure, refused⟩ := compile_of_not_file options missing
    rw [finish_of_passed compiled passed, bind_of_error refused]
  · obtain ⟨what, whole⟩ := finish_of_blocked compiled passed
    rw [whole]
    exact started_page (Activity.notice what) job latex (fun _ page =>
      ⟨latexPath job.source, .of (Lint.issues latex), none, page⟩) host w

/-! ## Both pipelines -/

section Both

variable {environment : Session.Environment} {settings : Settings} {engine : EngineArguments}
  {look : LookArguments}

/-- There is room for the LaTeX file of a Markdown source. -/
def Room (host : Host) (w : Workspace) (job : Job) : Prop :=
  isMarkdown job.source = true → Writable host w (latexPath job.source)

/-- Both pipelines have converted the source and go on in trees that are the same. -/
structure Converted (environment : Session.Environment) (settings : Settings)
    (engine : EngineArguments) (look : LookArguments) (host : Host) (w : Workspace) (job : Job)
    (latex : Text) (middle : FileTree) : Prop where
  build : ∃ u : Workspace, u.files = middle ∧ u.started = w.started ∧
    Session.build environment settings job.source engine look host w =
      Session.buildLatex (latexPath job.source) (Session.compileOptions settings engine) host u
  rebuild : ∃ u : Workspace, u.files = middle ∧ u.started = w.started ∧
    rebuild job host w = finish job latex host u
  room : Room host w job ↔ middle.holdsFile host.here (latexPath job.source) = true
  text : Room host w job → middle.readText host.here (latexPath job.source) = .ok latex

/-- Both pipelines fail before they have converted the source. -/
structure Unconverted (environment : Session.Environment) (settings : Settings)
    (engine : EngineArguments) (look : LookArguments) (host : Host) (w : Workspace) (job : Job) :
    Prop where
  build : (Session.build environment settings job.source engine look host w).2.started = w.started
  rebuild : (Build.rebuild job host w).2.started = w.started
  room : ¬ Room host w job

/-- Where the LaTeX file of a Markdown source is written both pipelines have converted it. -/
theorem converted_of_writesTo {notices : List Notice}
    (markdown : isMarkdown job.source = true)
    (there : w.files.holdsFile host.here job.source = true)
    (content : w.files.readText host.here job.source = .ok source)
    (looked : Session.documentOptions environment settings look host w =
      (.ok job.document, { w with notices }))
    (done : WritesTo host w.files (latexPath job.source) (Document.ofMarkdown source job.document)
      made after) :
    Converted environment settings engine look host w job (Document.ofMarkdown source job.document)
      after := by
  have room : Room host w job ↔ Writable host w (latexPath job.source) :=
    ⟨fun room => room markdown, fun writable _ => writable⟩
  refine ⟨?_, ?_, room.trans done.writable_iff, fun open_ => done.readText (room.mp open_)⟩
  · obtain ⟨others, converted⟩ := convertFile_of_writesTo (w := { w with notices }) there
      content done
    have whole : Session.build environment settings job.source engine look host w =
        Session.buildLatex (latexPath job.source) (Session.compileOptions settings engine) host
          { w with files := after, notices := others } := by
      rw [Session.build, if_pos markdown, Session.bind_of_ok looked]
      exact Session.bind_of_ok converted
    exact ⟨_, by rfl, by rfl, whole⟩
  · obtain ⟨others, converted⟩ := latexOf_of_writesTo markdown done
    obtain ⟨more, whole⟩ := rebuild_of_latexOf content converted
    exact ⟨_, by rfl, by rfl, whole⟩

/-- Where it cannot be written both pipelines fail. -/
theorem unconverted_of_refuses {notices : List Notice} (markdown : isMarkdown job.source = true)
    (there : w.files.holdsFile host.here job.source = true)
    (content : w.files.readText host.here job.source = .ok source)
    (looked : Session.documentOptions environment settings look host w =
      (.ok job.document, { w with notices }))
    (refuses : Refuses host w.files (latexPath job.source)
      (Document.ofMarkdown source job.document)) :
    Unconverted environment settings engine look host w job := by
  refine ⟨?_, ?_, fun room => refuses.not_writable (room markdown)⟩
  · obtain ⟨complaint, v, failed, same⟩ := convertFile_of_refuses (w := { w with notices })
      there content refuses
    rw [Session.build, if_pos markdown, Session.bind_of_ok looked, Session.bind_of_error failed]
    exact same
  · obtain ⟨failure, v, failed, same⟩ := latexOf_of_refuses markdown refuses
    rw [rebuild_of_latexOf_error content failed]
    exact same

/-- A LaTeX source is taken as it is. -/
theorem converted_of_latex (plain : isMarkdown job.source ≠ true)
    (there : w.files.holdsFile host.here job.source = true)
    (content : w.files.readText host.here job.source = .ok source) :
    Converted environment settings engine look host w job source w.files := by
  have path : latexPath job.source = job.source := if_neg plain
  refine ⟨⟨w, rfl, rfl, ?_⟩, ?_, ?_, fun _ => ?_⟩
  · rw [Session.build, if_neg plain]
  · have converted : latexOf job source host w = (.ok source, w) := by
      rw [latexOf, if_neg plain]
      rfl
    obtain ⟨more, whole⟩ := rebuild_of_latexOf content converted
    exact ⟨_, by rfl, by rfl, whole⟩
  · rw [path]
    exact ⟨fun _ => there, fun _ markdown => absurd markdown plain⟩
  · rw [path]
    exact content

/-- A source is converted by both pipelines or by neither, and with the same result. -/
theorem converted_or_unconverted (there : w.files.holdsFile host.here job.source = true)
    (content : w.files.readText host.here job.source = .ok source)
    (document : isMarkdown job.source = true → ∃ v,
      Session.documentOptions environment settings look host w = (.ok job.document, v)) :
    (∃ middle,
        Converted environment settings engine look host w job (latexText job source) middle) ∨
      Unconverted environment settings engine look host w job := by
  by_cases markdown : isMarkdown job.source = true
  · obtain ⟨v, looked⟩ := document markdown
    obtain ⟨notices, same⟩ :=
      Session.OnlyNotices.documentOptions environment settings look host w
    rw [looked] at same
    subst same
    rw [show latexText job source = _ from if_pos markdown]
    rcases writesTo_or_refuses host w.files (latexPath job.source)
      (Document.ofMarkdown source job.document) with ⟨made, after, done⟩ | refuses
    · exact Or.inl ⟨after, converted_of_writesTo markdown there content looked done⟩
    · exact Or.inr (unconverted_of_refuses markdown there content looked refuses)
  · rw [show latexText job source = _ from if_neg markdown]
    exact Or.inl ⟨w.files, converted_of_latex markdown there content⟩

/-- Behind the gate both pipelines compile the LaTeX file, in trees that are the same. -/
def CompiledFrom (environment : Session.Environment) (settings : Settings)
    (engine : EngineArguments) (look : LookArguments) (host : Host) (w : Workspace) (job : Job)
    (latex : Text) (middle : FileTree) : Prop :=
  ∃ u v : Workspace, u.files = middle ∧ v.files = middle ∧
    u.started = w.started ∧ v.started = w.started ∧
    Session.build environment settings job.source engine look host w =
      (Session.of (compile (latexPath job.source) (Session.compileOptions settings engine)) >>=
        Session.tell "PDF built successfully") host u ∧
    rebuild job host w = (do
      let pdf ← compile (latexPath job.source) (Session.compileOptions settings engine)
      let page ← savePage job latex
      return ⟨latexPath job.source, .of (Lint.issues latex), some pdf, page⟩ :
        Activity Outcome) host v

/-- At the gate a build fails with the number of errors, and a rebuild saves the page. -/
structure Stopped (environment : Session.Environment) (settings : Settings)
    (engine : EngineArguments) (look : LookArguments) (host : Host) (w : Workspace) (job : Job)
    (latex : Text) (middle : FileTree) : Prop where
  build : (Session.build environment settings job.source engine look host w).1 =
    .error (.failed (.lintFailed (Lint.blockers latex).length))
  bare : job.page = none → (rebuild job host w).1 =
    .ok ⟨latexPath job.source, .of (Lint.issues latex), none, none⟩
  page : ∀ page, job.page = some page → Writable host { files := middle } page →
    (rebuild job host w).1 =
        .ok ⟨latexPath job.source, .of (Lint.issues latex), none, some page⟩ ∧
      (rebuild job host w).2.files.readText host.here page =
        .ok (Page.ofLatex (Resource.content host.fetch middle host.here) host.today latex
          job.pageOptions)

variable {middle : FileTree}

theorem Converted.compiledFrom
    (compiled : job.compile = some (Session.compileOptions settings engine))
    (converted : Converted environment settings engine look host w job latex middle)
    (room : Room host w job) (passed : Lint.blockers latex = []) :
    CompiledFrom environment settings engine look host w job latex middle := by
  obtain ⟨u, files, idle, build⟩ := converted.build
  obtain ⟨v, files', idle', rebuild⟩ := converted.rebuild
  have there := converted.room.mp room
  have content := converted.text room
  subst files
  obtain ⟨output, open_, -⟩ :=
    buildLatex_of_readText (Session.compileOptions settings engine) there content
  refine ⟨{ u with output }, v, rfl, files', idle, idle', ?_, ?_⟩
  · rw [build, open_ passed]
  · rw [rebuild, finish_of_passed compiled passed]

theorem Converted.stopped
    (compiled : job.compile = some (Session.compileOptions settings engine))
    (converted : Converted environment settings engine look host w job latex middle)
    (room : Room host w job) (blocked : Lint.blockers latex ≠ []) :
    Stopped environment settings engine look host w job latex middle := by
  obtain ⟨u, files, -, build⟩ := converted.build
  obtain ⟨v, files', -, rebuild⟩ := converted.rebuild
  have there := converted.room.mp room
  have content := converted.text room
  obtain ⟨what, whole⟩ := finish_of_blocked compiled blocked
  rw [whole, bind_of_ok (notice_apply _)] at rebuild
  subst files
  obtain ⟨output, -, shut⟩ :=
    buildLatex_of_readText (Session.compileOptions settings engine) there content
  refine ⟨?_, ?_, ?_⟩
  · rw [build, shut blocked]
  · intro absent
    rw [rebuild, bind_of_ok (savePage_of_none absent)]
    rfl
  · intro page asked writable
    obtain ⟨t, saved, read⟩ := savePage_of_writable latex asked
      (writable.of_files (v := { v with notices := v.notices ++ [what] }) files')
    rw [rebuild, bind_of_ok saved, ← files']
    exact ⟨rfl, read⟩

/-- Without an open gate neither pipeline starts anything. -/
theorem Converted.started_of_shut
    (compiled : job.compile = some (Session.compileOptions settings engine))
    (converted : Converted environment settings engine look host w job latex middle)
    (shut : ¬ (Room host w job ∧ Lint.blockers latex = [])) :
    (Session.build environment settings job.source engine look host w).2.started = w.started ∧
      (Build.rebuild job host w).2.started = w.started := by
  obtain ⟨u, files, idle, build⟩ := converted.build
  obtain ⟨v, files', idle', rebuild⟩ := converted.rebuild
  rw [build, rebuild]
  by_cases room : Room host w job
  · have blocked : Lint.blockers latex ≠ [] := fun passed => shut ⟨room, passed⟩
    have there := converted.room.mp room
    have content := converted.text room
    rw [← files] at there content
    obtain ⟨output, -, stops⟩ := buildLatex_of_readText (Session.compileOptions settings engine)
      there content
    obtain ⟨what, whole⟩ := finish_of_blocked compiled blocked
    refine ⟨by rw [stops blocked, idle], ?_⟩
    rw [whole, ← idle']
    exact started_page (Activity.notice what) job latex (fun _ page =>
      ⟨latexPath job.source, .of (Lint.issues latex), none, page⟩) host v
  · have missing : middle.holdsFile host.here (latexPath job.source) = false := by
      rw [← Bool.not_eq_true, ← converted.room]
      exact room
    rw [← files] at missing
    obtain ⟨complaint, refused⟩ :=
      buildLatex_of_not_file (Session.compileOptions settings engine) missing
    rw [files, ← files'] at missing
    exact ⟨by rw [refused, idle], by rw [started_finish_of_not_file compiled missing, idle']⟩

/-- Through an open gate both pipelines start the same commands, and the engine first. -/
theorem CompiledFrom.exists_commands
    (both : CompiledFrom environment settings engine look host w job latex middle)
    (there : middle.holdsFile host.here (latexPath job.source) = true) : ∃ name rest,
      Path.fileName? (latexPath job.source) = some name ∧
        (Session.build environment settings job.source engine look host w).2.started =
          w.started ++ engineCommand (Session.compileOptions settings engine).engine
            (Path.directoryOf (latexPath job.source)) name :: rest ∧
        (rebuild job host w).2.started =
          w.started ++ engineCommand (Session.compileOptions settings engine).engine
            (Path.directoryOf (latexPath job.source)) name :: rest := by
  obtain ⟨u, v, files, files', idle, idle', build, rebuild⟩ := both
  let options := Session.compileOptions settings engine
  obtain ⟨place, content, executable, found⟩ := holdsFile_iff.mp there
  obtain ⟨around, name, -, into, -, -⟩ := exists_of_find_leaf found nofun
  rw [← files] at there
  obtain ⟨rest, begun⟩ := exists_of_compile options there into.fileName?
    (Nat.lt_of_lt_of_le Nat.zero_lt_one (Nat.le_max_left 1 _))
  obtain ⟨commands, first, second, -⟩ := (starts_compile (latexPath job.source) options).same
    host (files'.trans files.symm)
  have same := List.append_cancel_left (first.symm.trans begun)
  refine ⟨name, rest, into.fileName?, ?_, ?_⟩
  · rw [build, started_tell, begun, idle]
  · rw [rebuild]
    refine (started_page (compile (latexPath job.source) options) job latex (fun pdf page =>
      ⟨latexPath job.source, .of (Lint.issues latex), some pdf, page⟩) host v).trans ?_
    rw [second, same, idle']

/-- **A build and a rebuild apply the same gate.** Where the LaTeX file of a Markdown source can be
written, both start the engine just if nothing in the LaTeX text stops a build; they compile the
same file with this text in trees that are the same, and so they start the same commands. If
something stops the build it fails with the number of errors, and the rebuild saves the page if that
can be written. -/
theorem build_and_rebuild
    (compiled : job.compile = some (Session.compileOptions settings engine))
    (there : w.files.holdsFile host.here job.source = true)
    (content : w.files.readText host.here job.source = .ok source)
    (document : isMarkdown job.source = true → ∃ v,
      Session.documentOptions environment settings look host w = (.ok job.document, v)) :
    (∃ commands,
      (Session.build environment settings job.source engine look host w).2.started =
        w.started ++ commands ∧
      (rebuild job host w).2.started = w.started ++ commands ∧
      (Room host w job ∧ Lint.blockers (latexText job source) = [] → ∃ name rest,
        Path.fileName? (latexPath job.source) = some name ∧
          commands = engineCommand (Session.compileOptions settings engine).engine
            (Path.directoryOf (latexPath job.source)) name :: rest) ∧
      (¬ (Room host w job ∧ Lint.blockers (latexText job source) = []) → commands = [])) ∧
    (Room host w job → ∃ middle : FileTree,
      middle.readText host.here (latexPath job.source) = .ok (latexText job source) ∧
      (Lint.blockers (latexText job source) = [] →
        CompiledFrom environment settings engine look host w job (latexText job source) middle) ∧
      (Lint.blockers (latexText job source) ≠ [] →
        Stopped environment settings engine look host w job (latexText job source) middle)) := by
  rcases converted_or_unconverted there content document with ⟨middle, converted⟩ | neither
  · refine ⟨?_, fun room => ⟨middle, converted.text room, converted.compiledFrom compiled room,
      converted.stopped compiled room⟩⟩
    by_cases passes : Room host w job ∧ Lint.blockers (latexText job source) = []
    · obtain ⟨room, passed⟩ := passes
      obtain ⟨name, rest, named, first, second⟩ :=
        (converted.compiledFrom compiled room passed).exists_commands (converted.room.mp room)
      exact ⟨_, first, second, fun _ => ⟨name, rest, named, rfl⟩,
        fun shut => absurd ⟨room, passed⟩ shut⟩
    · obtain ⟨first, second⟩ := converted.started_of_shut compiled passes
      refine ⟨[], ?_, ?_, fun open_ => absurd open_ passes, fun _ => rfl⟩
      · rw [first, List.append_nil]
      · rw [second, List.append_nil]
  · refine ⟨⟨[], ?_, ?_, fun open_ => absurd open_.1 neither.room, fun _ => rfl⟩,
      fun room => absurd room neither.room⟩
    · rw [neither.build, List.append_nil]
    · rw [neither.rebuild, List.append_nil]

end Both

/-! ## A deck of one heading -/

/-- A deck with one heading. -/
def heading : Text := "## A\n".toList

/-- A directory with the deck. -/
def headingTree : FileTree :=
  FileTree.empty.insert ["a.md".toList] (.file (Utf8.encode heading) false)

/-- A workspace with the deck. -/
def headingWorkspace : Workspace := { files := headingTree }

/-- The job to build the deck. -/
def headingJob : Job where
  source := "a.md".toList
  compile := some (Session.compileOptions {} {})

theorem blockers_heading : Lint.blockers (latexText headingJob heading) = [] := by
  have theme : Document.Plain
      (Document.settings (Markdown.Presentation.read heading).metadata {}).theme := by decide
  have colorTheme : Document.Plain
      (Document.settings (Markdown.Presentation.read heading).metadata {}).colorTheme := by decide
  have code : ∀ line ∈ Markdown.fencedOfSource heading, Document.Endless line := by decide
  exact (Document.closed_lines_render theme colorTheme fun slide member =>
    Document.lined_of_mem_read code member).blockers_eq_nil (Document.marker_isInfix_render _ {})

/-- The deck is converted, and the engine is started on its LaTeX file, by either. -/
theorem build_and_rebuild_heading : ∃ rest,
    (Session.build [] {} headingJob.source {} {} bareHost headingWorkspace).2.started =
        engineCommand "pdflatex".toList ".".toList "a.tex".toList :: rest ∧
      (rebuild headingJob bareHost headingWorkspace).2.started =
        engineCommand "pdflatex".toList ".".toList "a.tex".toList :: rest := by
  have there : headingWorkspace.files.holdsFile bareHost.here headingJob.source = true := rfl
  have content : headingWorkspace.files.readText bareHost.here headingJob.source =
      .ok heading := rfl
  have document : Session.documentOptions [] {} {} bareHost headingWorkspace =
      (.ok headingJob.document, headingWorkspace) := rfl
  have room : Room bareHost headingWorkspace headingJob := fun _ =>
    ⟨headingWorkspace, ["a.tex".toList], Prod.ext rfl rfl, rfl, Or.inl rfl⟩
  obtain ⟨⟨commands, first, second, starts, -⟩, -⟩ :=
    build_and_rebuild rfl there content fun _ => ⟨headingWorkspace, document⟩
  obtain ⟨name, rest, named, rfl⟩ := starts ⟨room, blockers_heading⟩
  obtain rfl : "a.tex".toList = name := Option.some.inj named
  have directory : Path.directoryOf (latexPath headingJob.source) = ".".toList := by decide
  have engine : (Session.compileOptions {} {}).engine = "pdflatex".toList := rfl
  have empty : headingWorkspace.started = [] := rfl
  rw [directory, engine, empty, List.nil_append] at first second
  exact ⟨rest, first, second⟩

/-- If there is a directory at the LaTeX file of the deck, nothing is started. -/
theorem build_and_rebuild_directory :
    (headingTree.insert ["a.tex".toList] .directory).readText [] "a.md".toList = .ok heading ∧
      Lint.blockers (latexText headingJob heading) = [] ∧
      (Session.build [] {} headingJob.source {} {} bareHost
        { files := headingTree.insert ["a.tex".toList] .directory }).2.started = [] ∧
      (rebuild headingJob bareHost
        { files := headingTree.insert ["a.tex".toList] .directory }).2.started = [] := by
  refine ⟨rfl, blockers_heading, ?_, ?_⟩
  · decide +kernel
  · decide +kernel

end SlideDeck.Build
