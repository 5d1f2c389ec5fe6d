import SlideDeck.CommandLine.Session
import SlideDeck.Proofs.Theme.Listing

/-!
# What sessions do

A session goes on where an activity leaves off, and a failure of an activity is a complaint
(`of_of_ok`, `of_of_error`). To look up the options of a document leaves everything but the notices
alone (`OnlyNotices.documentOptions`).
-/

set_option autoImplicit false

namespace SlideDeck.CommandLine.Session

open SlideDeck.Text SlideDeck.Activity

variable {α β : Type} {session : Session α} {next : α → Session β} {activity : Activity α}
  {host : Host} {w v : Workspace}

/-! ## One part after another -/

theorem bind_apply (session : Session α) (next : α → Session β) (host : Host) (w : Workspace) :
    (session >>= next) host w =
      match session host w with
      | (.ok x, v) => next x host v
      | (.error complaint, v) => (.error complaint, v) := by
  change (match session host w with
    | (answer, v) => (ExceptT.bindCont (fun x => next x host) answer : StateM Workspace _) v) = _
  rcases session host w with ⟨complaint | x, v⟩ <;> rfl

theorem map_apply (f : α → β) (session : Session α) (host : Host) (w : Workspace) :
    (f <$> session) host w = ((session host w).1.map f, (session host w).2) := by
  simp only [Functor.map, ExceptT.map, StateT.bind, bind, ExceptT.mk]
  rcases session host w with ⟨complaint | x, v⟩ <;> rfl

theorem bind_of_ok {x : α} (first : session host w = (.ok x, v)) :
    (session >>= next) host w = next x host v := by
  rw [bind_apply, first]

theorem bind_of_error {complaint : Complaint} (first : session host w = (.error complaint, v)) :
    (session >>= next) host w = (.error complaint, v) := by
  rw [bind_apply, first]

theorem of_apply (activity : Activity α) (host : Host) (w : Workspace) :
    of activity host w =
      ((activity host w).1.mapError Complaint.failed, (activity host w).2) := by
  change (match activity host w with
    | (answer, v) => ((Except.mapError Complaint.failed answer, v) : _ × Workspace)) = _
  rcases activity host w with ⟨answer, v⟩
  rfl

theorem of_of_ok {x : α} (done : activity host w = (.ok x, v)) :
    of activity host w = (.ok x, v) := by
  rw [of_apply, done]
  rfl

theorem of_of_error {failure : Failure} (failed : activity host w = (.error failure, v)) :
    of activity host w = (.error (.failed failure), v) := by
  rw [of_apply, failed]
  rfl

/-! ## Options and input -/

/-- A session that leaves everything but the notices alone. -/
def OnlyNotices (session : Session α) : Prop :=
  ∀ host w, ∃ notices, (session host w).2 = { w with notices }

namespace OnlyNotices

theorem pure (x : α) : OnlyNotices (Pure.pure x : Session α) := fun _ w => ⟨w.notices, rfl⟩

theorem throw (complaint : Complaint) : OnlyNotices (throw complaint : Session α) :=
  fun _ w => ⟨w.notices, rfl⟩

theorem bind (first : OnlyNotices session) (later : ∀ x, OnlyNotices (next x)) :
    OnlyNotices (session >>= next) := by
  intro host w
  obtain ⟨notices, left⟩ := first host w
  cases answer : (session host w).1 with
  | error complaint => exact ⟨notices, by rw [bind_of_error (Prod.ext answer rfl), left]⟩
  | ok x =>
      obtain ⟨others, also⟩ := later x host (session host w).2
      exact ⟨others, by rw [bind_of_ok (Prod.ext answer rfl), also, left]⟩

theorem map (f : α → β) (only : OnlyNotices session) : OnlyNotices (f <$> session) := by
  intro host w
  rw [map_apply]
  exact only host w

theorem themeNamed (store : ThemeStore) (name : Text) : OnlyNotices (themeNamed store name) := by
  refine bind (fun host w => ?_) fun found => ?_
  · rw [of_apply]
    exact store.exists_notices_get name host w
  · split
    · exact pure _
    · exact throw _

theorem themeStore (environment : Environment) (settings : Settings) :
    OnlyNotices (themeStore environment settings) := by
  rw [Session.themeStore]
  split
  · exact pure _
  · exact throw _

/-- So does a session that looks up the options of a document. -/
theorem documentOptions (environment : Environment) (settings : Settings)
    (look : LookArguments) : OnlyNotices (documentOptions environment settings look) := by
  rw [Session.documentOptions]
  split
  · exact (themeStore environment settings).bind fun store =>
      ((themeNamed store _).map some).bind fun own => pure _
  · exact (pure none).bind fun own => pure _

theorem pageOptions (settings : Settings) (arguments : PageArguments) :
    OnlyNotices (pageOptions settings arguments) := by
  refine bind ?_ fun embed => pure _
  rw [Session.embeds]
  split
  · exact pure true
  · split
    · exact pure false
    · exact throw _

end OnlyNotices

/-- A file of text is read. -/
theorem readInput_of_readText {path : Path} {source : Text}
    (file : w.files.holdsFile host.here path = true)
    (content : w.files.readText host.here path = .ok source) :
    readInput path host w = (.ok source, w) := by
  rw [readInput, bind_of_ok (of_of_ok (checkFile_of_holdsFile file)),
    bind_of_ok (of_of_ok (look_apply _)), content]
  rfl

/-- A file that is no text is not read. -/
theorem readInput_of_error {path : Path} {fault : SystemFault}
    (file : w.files.holdsFile host.here path = true)
    (content : w.files.readText host.here path = .error fault) :
    readInput path host w = (.error (.inputUnreadable path fault), w) := by
  rw [readInput, bind_of_ok (of_of_ok (checkFile_of_holdsFile file)),
    bind_of_ok (of_of_ok (look_apply _)), content]
  rfl

theorem readInput_of_not_file {path : Path} (missing : w.files.holdsFile host.here path = false) :
    ∃ complaint, readInput path host w = (.error complaint, w) := by
  obtain ⟨failure, refused⟩ := checkFile_of_not_file missing
  exact ⟨_, bind_of_error (of_of_error refused)⟩

end SlideDeck.CommandLine.Session
