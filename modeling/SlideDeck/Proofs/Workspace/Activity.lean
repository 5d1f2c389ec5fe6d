import Mathlib.Tactic.Choose
import SlideDeck.Workspace

/-!
# What activities do

An activity at a host in a workspace gives an answer and leaves a workspace. This module says how
the answers of its parts make up its own (`bind_of_ok`, `bind_of_error`, `exists_of_bind_eq_ok`),
and that a relation that each part keeps is kept by the whole (`Within.bind`).

An activity that only deals with files (`OnFiles`) sees nothing but the files and the current
directory and leaves everything else alone. So it does the same at every host with that directory
and in every workspace with these files (`OnFiles.same`).
-/

set_option autoImplicit false

namespace SlideDeck.Activity

variable {α β : Type} {a : Activity α} {f : α → Activity β} {host : Host} {w v : Workspace}

/-- A host at the root that has no programs and no network. -/
def bareHost : Host where
  here := []
  run _ _ _ := .error .notFound
  fetch address := .error (.invalid (.notFile address))
  today := []
  freshName := []

/-! ## One part after another -/

theorem bind_apply (a : Activity α) (f : α → Activity β) (host : Host) (w : Workspace) :
    (a >>= f) host w =
      match a host w with
      | (.ok x, v) => f x host v
      | (.error failure, v) => (.error failure, v) := by
  change (match a host w with
    | (answer, v) => (ExceptT.bindCont (fun x => f x host) answer : StateM Workspace _) v) = _
  rcases a host w with ⟨failure | x, v⟩ <;> rfl

theorem bind_of_ok {x : α} (first : a host w = (.ok x, v)) : (a >>= f) host w = f x host v := by
  rw [bind_apply, first]

theorem bind_of_error {failure : Failure} (first : a host w = (.error failure, v)) :
    (a >>= f) host w = (.error failure, v) := by
  rw [bind_apply, first]

/-- What a whole leaves is what its second part leaves, or its first one if that fails. -/
theorem bind_cases (a : Activity α) (f : α → Activity β) (host : Host) (w : Workspace) :
    (∃ failure, (a host w).1 = .error failure ∧
        (a >>= f) host w = (.error failure, (a host w).2)) ∨
      ∃ x, (a host w).1 = .ok x ∧ (a >>= f) host w = f x host (a host w).2 := by
  cases answer : (a host w).1 with
  | error failure => exact Or.inl ⟨failure, rfl, bind_of_error (Prod.ext answer rfl)⟩
  | ok x => exact Or.inr ⟨x, rfl, bind_of_ok (Prod.ext answer rfl)⟩

/-- If the whole succeeds, both parts do. -/
theorem exists_of_bind_eq_ok {y : β} (done : (a >>= f) host w = (.ok y, v)) :
    ∃ x u, a host w = (.ok x, u) ∧ f x host u = (.ok y, v) := by
  rcases bind_cases a f host w with ⟨failure, -, whole⟩ | ⟨x, first, whole⟩
  · rw [whole, Prod.mk.injEq] at done
    exact absurd done.1 nofun
  · exact ⟨x, (a host w).2, Prod.ext first rfl, whole ▸ done⟩

theorem pure_apply (x : α) : (pure x : Activity α) host w = (.ok x, w) := rfl

theorem ofExcept_ok (x : α) : ofExcept (.ok x) host w = (.ok x, w) := rfl

/-! ## The parts -/

theorem look_apply (operation : FileTree → Location → α) :
    look operation host w = (.ok (operation w.files host.here), w) := rfl

theorem read_apply : (read : Activity Host) host w = (.ok host, w) := rfl

theorem notice_apply (what : Notice) :
    notice what host w = (.ok (), { w with notices := w.notices ++ [what] }) := rfl

theorem print_apply (text : Text) :
    print text host w = (.ok (), { w with output := w.output ++ text }) := rfl

theorem change_of_ok {operation : FileTree → Location → Except SystemFault FileTree}
    {files : FileTree} (changed : operation w.files host.here = .ok files) :
    change operation host w = (.ok (.ok ()), { w with files }) := by
  rw [change, bind_of_ok (look_apply operation), changed]
  rfl

theorem change_of_error {operation : FileTree → Location → Except SystemFault FileTree}
    {fault : SystemFault} (refused : operation w.files host.here = .error fault) :
    change operation host w = (.ok (.error fault), w) := by
  rw [change, bind_of_ok (look_apply operation), refused]
  rfl

theorem readText_of_ok {path : Path} {text : Text}
    (content : w.files.readText host.here path = .ok text) :
    readText path host w = (.ok text, w) := by
  rw [readText, bind_of_ok (look_apply _), content]
  rfl

theorem readText_of_error {path : Path} {fault : SystemFault}
    (content : w.files.readText host.here path = .error fault) :
    readText path host w = (.error (.unreadable fault), w) := by
  rw [readText, bind_of_ok (look_apply _), content]
  rfl

theorem writeText_of_ok {failure : SystemFault → Failure} {path : Path} {text : Text}
    {files : FileTree}
    (written : w.files.write host.here path (Text.Utf8.encode text) = .ok files) :
    writeText failure path text host w = (.ok (), { w with files }) := by
  rw [writeText, bind_of_ok (change_of_ok written)]
  rfl

theorem writeText_of_error {failure : SystemFault → Failure} {path : Path} {text : Text}
    {fault : SystemFault}
    (refused : w.files.write host.here path (Text.Utf8.encode text) = .error fault) :
    writeText failure path text host w = (.error (failure fault), w) := by
  rw [writeText, bind_of_ok (change_of_error refused)]
  rfl

theorem modify_apply (f : Workspace → Workspace) :
    (modify f : Activity Unit) host w = (.ok (), f w) := rfl

theorem get_apply : (get : Activity Workspace) host w = (.ok w, w) := rfl

theorem start_of_ok {command : Command} {ran : Ran}
    (done : host.run w.files host.here command = .ok ran) :
    start command host w =
      (.ok (.ok ran), { w with files := ran.files, started := w.started ++ [command] }) := by
  rw [start, bind_of_ok (modify_apply _), bind_of_ok read_apply, bind_of_ok get_apply]
  dsimp only
  rw [done]
  rfl

theorem start_of_error {command : Command} {fault : SystemFault}
    (refused : host.run w.files host.here command = .error fault) :
    start command host w =
      (.ok (.error fault), { w with started := w.started ++ [command] }) := by
  rw [start, bind_of_ok (modify_apply _), bind_of_ok read_apply, bind_of_ok get_apply]
  dsimp only
  rw [refused]
  rfl

theorem checkFile_of_holdsFile {path : Path}
    (file : w.files.holdsFile host.here path = true) : checkFile path host w = (.ok (), w) := by
  have there : w.files.holds host.here path = true := by
    cases found : w.files.find host.here path with
    | error fault => simp [FileTree.holdsFile, found] at file
    | ok answer => simp [FileTree.holds, found, Except.toOption]
  rw [checkFile, bind_of_ok (look_apply _), there]
  change (Activity.look _ >>= _) host w = _
  rw [bind_of_ok (look_apply _), file]
  rfl

theorem checkFile_of_not_file {path : Path}
    (file : w.files.holdsFile host.here path = false) :
    ∃ failure, checkFile path host w = (.error failure, w) := by
  rw [checkFile, bind_of_ok (look_apply _)]
  cases w.files.holds host.here path with
  | false => exact ⟨_, rfl⟩
  | true =>
      change ∃ failure, (Activity.look _ >>= _) host w = _
      rw [bind_of_ok (look_apply _), file]
      exact ⟨_, rfl⟩

/-! ## Relations that are kept -/

/-- Whatever an activity begins with stands in a relation to what it leaves. -/
def Within (R : Workspace → Workspace → Prop) (a : Activity α) : Prop :=
  ∀ host w, R w (a host w).2

theorem Within.bind {R : Workspace → Workspace → Prop}
    (trans : ∀ {u v w}, R u v → R v w → R u w) (first : Within R a)
    (later : ∀ x, Within R (f x)) : Within R (a >>= f) := by
  intro host w
  rcases bind_cases a f host w with ⟨failure, -, whole⟩ | ⟨x, -, whole⟩
  · rw [whole]
    exact first host w
  · rw [whole]
    exact trans (first host w) (later x host _)

/-! ## Activities that only deal with files -/

/-- An activity sees only files and the current directory, and changes only files. -/
def OnFiles (a : Activity α) : Prop :=
  ∃ step : FileTree → Location → Except Failure α × FileTree, ∀ host w,
    a host w = ((step w.files host.here).1, { w with files := (step w.files host.here).2 })

namespace OnFiles

theorem pure (x : α) : OnFiles (Pure.pure x : Activity α) :=
  ⟨fun files _ => (.ok x, files), fun _ _ => rfl⟩

theorem throw (failure : Failure) : OnFiles (throw failure : Activity α) :=
  ⟨fun files _ => (.error failure, files), fun _ _ => rfl⟩

theorem look (operation : FileTree → Location → α) : OnFiles (look operation) :=
  ⟨fun files here => (.ok (operation files here), files), fun _ _ => rfl⟩

theorem bind (first : OnFiles a) (later : ∀ x, OnFiles (f x)) : OnFiles (a >>= f) := by
  obtain ⟨step, same⟩ := first
  choose next also using later
  refine ⟨fun files here =>
    match step files here with
    | (.ok x, files) => next x files here
    | (.error failure, files) => (.error failure, files), fun host w => ?_⟩
  rw [bind_apply, same]
  dsimp only
  rcases step w.files host.here with ⟨failure | x, files⟩
  · rfl
  · exact also x host { w with files }

theorem orFail (failure : SystemFault → Failure) (answer : Except SystemFault α) :
    OnFiles (orFail failure answer) := by
  cases answer with
  | error fault => exact OnFiles.throw (failure fault)
  | ok x => exact OnFiles.pure x

theorem change (operation : FileTree → Location → Except SystemFault FileTree) :
    OnFiles (change operation) := by
  refine ⟨fun files here => (.ok ((operation files here).map fun _ => ()),
    (operation files here).toOption.getD files), fun host w => ?_⟩
  cases answer : operation w.files host.here with
  | error fault => simp only [change_of_error answer, answer, Except.map, Except.toOption,
      Option.getD_none]
  | ok files => simp only [change_of_ok answer, answer, Except.map, Except.toOption,
      Option.getD_some]

theorem checkFile (path : Path) : OnFiles (checkFile path) := by
  refine (look _).bind fun there => ?_
  cases there with
  | false => exact OnFiles.throw _
  | true =>
      refine (look _).bind fun file => ?_
      cases file with
      | false => exact OnFiles.throw _
      | true => exact OnFiles.pure ()

theorem writeText (failure : SystemFault → Failure) (path : Path) (text : Text) :
    OnFiles (writeText failure path text) :=
  (change _).bind fun answer => orFail _ answer

/-- Such an activity does the same wherever the files and the current directory are the same. -/
theorem same (only : OnFiles a) {host other : Host} {w v : Workspace}
    (here : other.here = host.here) (files : v.files = w.files) :
    a other v = ((a host w).1, { v with files := (a host w).2.files }) := by
  obtain ⟨step, whole⟩ := only
  rw [whole, whole, here, files]

/-- Such an activity leaves everything but the files alone. -/
theorem leaves (only : OnFiles a) (host : Host) (w : Workspace) :
    (a host w).2 = { w with files := (a host w).2.files } := by
  obtain ⟨step, whole⟩ := only
  rw [whole]

theorem started (only : OnFiles a) : Within (fun w v => v.started = w.started) a := by
  intro host w
  rw [only.leaves host w]

end OnFiles

/-! ## Activities that also start commands -/

/-- An activity sees only files and the host, changes only files, and starts commands. -/
def Starts (a : Activity α) : Prop :=
  ∃ step : Host → FileTree → Except Failure α × FileTree × List Command, ∀ host w,
    a host w = ((step host w.files).1,
      { w with
        files := (step host w.files).2.1
        started := w.started ++ (step host w.files).2.2 })

theorem OnFiles.starts (only : OnFiles a) : Starts a := by
  obtain ⟨step, same⟩ := only
  refine ⟨fun host files => ((step files host.here).1, (step files host.here).2, []), ?_⟩
  intro host w
  rw [same, List.append_nil]

namespace Starts

theorem bind (first : Starts a) (later : ∀ x, Starts (f x)) : Starts (a >>= f) := by
  obtain ⟨step, same⟩ := first
  choose next also using later
  refine ⟨fun host files =>
    match step host files with
    | (.ok x, files, commands) =>
      ((next x host files).1, (next x host files).2.1, commands ++ (next x host files).2.2)
    | (.error failure, files, commands) => (.error failure, files, commands), fun host w => ?_⟩
  rw [bind_apply, same]
  dsimp only
  rcases step host w.files with ⟨failure | x, files, commands⟩
  · rfl
  · dsimp only
    rw [also x host, List.append_assoc]

theorem start (command : Command) : Starts (start command) := by
  refine ⟨fun host files => (.ok (host.run files host.here command),
    ((host.run files host.here command).toOption.map Ran.files).getD files, [command]),
    fun host w => ?_⟩
  cases answer : host.run w.files host.here command with
  | error fault => simp [start_of_error answer, answer, Except.toOption]
  | ok ran => simp [start_of_ok answer, answer, Except.toOption]

/-- Such an activity does the same and starts the same commands in every workspace with the same
files. -/
theorem same (does : Starts a) (host : Host) {w v : Workspace} (files : v.files = w.files) :
    ∃ commands, (a host w).2.started = w.started ++ commands ∧
      (a host v).2.started = v.started ++ commands ∧ (a host v).1 = (a host w).1 ∧
      (a host v).2.files = (a host w).2.files := by
  obtain ⟨step, whole⟩ := does
  refine ⟨(step host w.files).2.2, ?_, ?_, ?_, ?_⟩
  · rw [whole]
  · rw [whole, files]
  · rw [whole, whole, files]
  · rw [whole, whole, files]

end Starts

/-- The first command that an activity starts, whatever comes of it. -/
def BeginsWith (command : Command) (a : Activity α) : Prop :=
  ∀ host w, ∃ rest, (a host w).2.started = w.started ++ command :: rest

namespace BeginsWith

theorem start (command : Command) : BeginsWith command (start command) := by
  intro host w
  refine ⟨[], ?_⟩
  cases answer : host.run w.files host.here command with
  | error fault => rw [start_of_error answer]
  | ok ran => rw [start_of_ok answer]

theorem bind {command : Command} (first : BeginsWith command a) (later : ∀ x, Starts (f x)) :
    BeginsWith command (a >>= f) := by
  intro host w
  obtain ⟨rest, begun⟩ := first host w
  rcases bind_cases a f host w with ⟨failure, -, whole⟩ | ⟨x, -, whole⟩
  · exact ⟨rest, by rw [whole, begun]⟩
  · obtain ⟨step, also⟩ := later x
    refine ⟨rest ++ (step host (a host w).2.files).2.2, ?_⟩
    rw [whole, also, begun, List.append_assoc]
    rfl

end BeginsWith

end SlideDeck.Activity
