import SlideDeck.Build.Compilation
import SlideDeck.Proofs.Workspace.Activity

/-!
# What a compilation starts

A compilation sees only the files and the host (`starts_compile`), so it does the same wherever the
files are the same. If there is a file to be compiled it begins with the engine on this file
(`exists_of_compile`), and otherwise it starts nothing (`compile_of_not_file`).
-/

set_option autoImplicit false

namespace SlideDeck.Build

open SlideDeck.Activity

variable {host : Host} {w : Workspace} {file : Path} {name : Text} {options : CompileOptions}

/-- A pass begins with the engine, and starts nothing without need of the files. -/
theorem starts_pass (engine : Text) (file : Path) (name : Text) :
    Starts (pass engine file name) ∧
      BeginsWith (engineCommand engine (Path.directoryOf file) name) (pass engine file name) := by
  refine ⟨(Starts.start _).bind ?judged, (BeginsWith.start _).bind ?judged⟩
  intro answer
  split
  · exact (OnFiles.throw _).starts
  · exact (OnFiles.throw _).starts
  · split
    · exact (OnFiles.throw _).starts
    · exact (OnFiles.pure ()).starts

theorem starts_times (count : Nat) {activity : Activity Unit} (once : Starts activity) :
    Starts (times count activity) := by
  induction count with
  | zero => exact (OnFiles.pure ()).starts
  | succ count ih => exact once.bind fun _ => ih

theorem starts_compile (file : Path) (options : CompileOptions) :
    Starts (compile file options) := by
  refine (OnFiles.checkFile file).starts.bind fun _ => ?_
  split
  · exact (OnFiles.throw _).starts
  · exact (starts_times _ (starts_pass _ _ _).1).bind fun _ => (OnFiles.pure _).starts

/-- Without a file nothing is started and nothing changes. -/
theorem compile_of_not_file (options : CompileOptions)
    (missing : w.files.holdsFile host.here file = false) :
    ∃ failure, compile file options host w = (.error failure, w) := by
  obtain ⟨failure, refused⟩ := checkFile_of_not_file missing
  exact ⟨failure, bind_of_error refused⟩

/-- A file is compiled by the engine, which is started at least once. -/
theorem exists_of_compile (options : CompileOptions)
    (there : w.files.holdsFile host.here file = true)
    (named : Path.fileName? file = some name) (passes : 0 < options.passes) :
    ∃ rest, (compile file options host w).2.started =
      w.started ++ engineCommand options.engine (Path.directoryOf file) name :: rest := by
  obtain ⟨count, more⟩ := Nat.exists_eq_succ_of_ne_zero (Nat.ne_of_gt passes)
  obtain ⟨starts, begins⟩ := starts_pass options.engine file name
  have whole : BeginsWith (engineCommand options.engine (Path.directoryOf file) name)
      (times options.passes (pass options.engine file name) >>= fun _ =>
        pure (Path.withExtension "pdf".toList file)) := by
    rw [more]
    exact (begins.bind fun _ => starts_times count starts).bind fun _ => (OnFiles.pure _).starts
  rw [compile, bind_of_ok (checkFile_of_holdsFile there), named]
  exact whole host w

end SlideDeck.Build
