import SlideDeck.Proofs.Build.Gate
import SlideDeck.Proofs.Files.Beside

/-!
# What becomes of an input

A request that names no output saves what it makes beside its input (`files_perform`). So whatever
the request comes to, its input is as it was, unless the input already has the extension of the file
that is made: then what was made takes the place of what it was made from (`read_perform_iff`).
-/

set_option autoImplicit false

namespace SlideDeck.CommandLine

open SlideDeck.Text SlideDeck.FileTree SlideDeck.Activity

/-- The input of a request to convert a file, to make a page of it or to check it, if no output is
named. -/
def Request.input? : Request → Option Path
  | .convert input none _ => some input
  | .page input none _ => some input
  | .lint input _ => some input
  | _ => none

namespace Session

variable {α β : Type} {session : Session α} {next : α → Session β} {activity : Activity α}
  {environment : Environment} {settings : Settings} {host : Host} {w : Workspace}
  {input output : Path} {source : Text}

/-- What a request makes of its input: the extension of the file that it is saved to, and its
text. Nothing is made without options, or of what is no text. -/
def made? (environment : Environment) (settings : Settings) (host : Host) (w : Workspace) :
    Request → Option (Text × Text)
  | .convert input _ look =>
    match (documentOptions environment settings look host w).1,
      w.files.readText host.here input with
    | .ok options, .ok source => some ("tex".toList, Document.ofMarkdown source options)
    | _, _ => none
  | .page input _ arguments =>
    match (pageOptions settings arguments host w).1, w.files.readText host.here input with
    | .ok options, .ok latex =>
      let reader := Resource.content host.fetch w.files host.here
      some ("html".toList, Page.ofLatex reader host.today latex options)
    | _, _ => none
  | _ => none

/-! ## Sessions that leave the files alone -/

/-- The session leaves the files alone. -/
def KeepsFiles (session : Session α) : Prop :=
  ∀ host w, (session host w).2.files = w.files

/-- What leaves the files alone may come behind a session. -/
theorem files_bind (later : ∀ x, KeepsFiles (next x)) (host : Host) (w : Workspace) :
    ((session >>= next) host w).2.files = (session host w).2.files := by
  cases answer : (session host w).1 with
  | error complaint => rw [bind_of_error (Prod.ext answer rfl)]
  | ok x => rw [bind_of_ok (Prod.ext answer rfl), later]

namespace KeepsFiles

theorem pure (x : α) : KeepsFiles (Pure.pure x : Session α) := fun _ _ => rfl

theorem throw (complaint : Complaint) : KeepsFiles (throw complaint : Session α) := fun _ _ => rfl

theorem bind (first : KeepsFiles session) (later : ∀ x, KeepsFiles (next x)) :
    KeepsFiles (session >>= next) := by
  intro host w
  rw [files_bind later, first]

theorem of (keeps : Within (fun w v => v.files = w.files) activity) :
    KeepsFiles (of activity) := by
  intro host w
  rw [of_apply]
  exact keeps host w

theorem orComplain (complaint : SystemFault → Complaint) (answer : Except SystemFault α) :
    KeepsFiles (orComplain complaint answer) := by
  cases answer with
  | error fault => exact throw (complaint fault)
  | ok x => exact pure x

theorem tell (what : String) (path : Path) : KeepsFiles (tell what path) :=
  of fun _ _ => rfl

theorem checkFile (path : Path) :
    Within (fun w v => v.files = w.files) (Activity.checkFile path) := by
  intro host w
  cases file : w.files.holdsFile host.here path with
  | true => rw [checkFile_of_holdsFile file]
  | false =>
      obtain ⟨failure, refused⟩ := checkFile_of_not_file file
      rw [refused]

theorem lintFile (file : Path) :
    Within (fun w v => v.files = w.files) (Build.lintFile file) := by
  refine Within.bind (fun first second => second.trans first) (checkFile file) fun _ host w => ?_
  cases content : w.files.readText host.here file with
  | ok source =>
      rw [Activity.bind_of_ok (readText_of_ok content)]
      rfl
  | error fault => rw [Activity.bind_of_error (readText_of_error content)]

/-- There is nothing to mend. -/
theorem mend (file : Path) : KeepsFiles (mend file) := by
  refine (of fun _ _ => rfl).bind fun answer => (orComplain _ answer).bind fun source =>
    (of fun _ _ => rfl).bind fun _ => ?_
  have same : (Lint.fix source != source) = false := by simp [Lint.fix]
  rw [same]
  exact pure ()

/-- A check leaves the files alone, also if it is to mend them. -/
theorem lint (file : Path) (fix : Bool) : KeepsFiles (lint file fix) := by
  have report : ∀ issues, KeepsFiles (do
      Session.of (Activity.print (Lint.report file issues))
      let summary := Lint.Summary.of issues
      if summary.hasErrors then MonadExcept.throw (.failed (.lintFailed summary.errors)) :
        Session Unit) := by
    intro issues
    refine (of fun _ _ => rfl).bind fun _ => ?_
    dsimp only
    split
    · exact throw _
    · exact pure ()
  refine (of (checkFile file)).bind fun _ => ?_
  cases fix with
  | true => exact (mend file).bind fun _ => (of (lintFile file)).bind report
  | false => exact (of (lintFile file)).bind report

end KeepsFiles

/-! ## What is saved -/

variable {text : Text} {options : Document.Options} {pageOptions : PageOptions}
  {look : LookArguments} {arguments : PageArguments} {request : Request} {fault : SystemFault}

theorem files_save {v : Workspace} (same : v.files = w.files) :
    (Page.save text output host v).2.files = (Page.save text output host w).2.files := by
  rw [(Page.onFiles_save text output).same rfl same]

/-- To convert a file is to save its document. -/
theorem files_convertFile (there : w.files.holdsFile host.here input = true)
    (content : w.files.readText host.here input = .ok source) :
    (convertFile input output options host w).2.files =
      (Page.save (Document.ofMarkdown source options) output host w).2.files := by
  let noticed := Build.noticed w source options
  rw [← files_save (show noticed.files = w.files from rfl), convertFile,
    bind_of_ok (readInput_of_readText there content),
    bind_of_ok (of_of_ok (Build.convert_apply _ _)), Page.save]
  cases answer : (ensureParent output host noticed).1 with
  | error failure =>
      have ensured : ensureParent output host noticed = (.error failure, _) := Prod.ext answer rfl
      rw [bind_of_error (of_of_error ensured), Activity.bind_of_error ensured]
  | ok _ =>
      have ensured : ensureParent output host noticed = (.ok (), _) := Prod.ext answer rfl
      rw [bind_of_ok (of_of_ok ensured), Activity.bind_of_ok ensured]
      cases written : (ensureParent output host noticed).2.files.write host.here output
          (Utf8.encode (Document.ofMarkdown source options)) with
      | error fault =>
          rw [bind_of_ok (of_of_ok (change_of_error written)), writeText_of_error written]
          rfl
      | ok after =>
          rw [bind_of_ok (of_of_ok (change_of_ok written)), writeText_of_ok written]
          rfl

theorem files_convert (there : w.files.holdsFile host.here input = true) :
    (convert input none options host w).2.files =
      match w.files.readText host.here input with
      | .ok source => (Page.save (Document.ofMarkdown source options)
          (Path.withExtension "tex".toList input) host w).2.files
      | .error _ => w.files := by
  rw [convert, files_bind fun _ => KeepsFiles.tell _ _]
  cases content : w.files.readText host.here input with
  | error fault => rw [convertFile, bind_of_error (readInput_of_error there content)]
  | ok source => exact files_convertFile there content

/-- To make a page of a file is to save it. -/
theorem files_page (there : w.files.holdsFile host.here input = true) :
    (page input none pageOptions host w).2.files =
      match w.files.readText host.here input with
      | .ok latex =>
        (Page.save (Page.ofLatex (Resource.content host.fetch w.files host.here) host.today latex
          pageOptions) (Path.withExtension "html".toList input) host w).2.files
      | .error _ => w.files := by
  have checked := checkFile_of_holdsFile there
  rw [page, files_bind fun _ => KeepsFiles.tell _ _, of_apply]
  cases content : w.files.readText host.here input with
  | error fault =>
      have refused : Page.ofFile input pageOptions host w = (.error (.unreadable fault), w) := by
        rw [Page.ofFile, Activity.bind_of_ok checked,
          Activity.bind_of_error (readText_of_error content)]
      rw [Activity.bind_of_error refused]
  | ok latex =>
      obtain ⟨notices, made⟩ := Build.exists_of_ofText host w latex pageOptions
      have read : Page.ofFile input pageOptions host w =
          (.ok (Page.ofLatex (Resource.content host.fetch w.files host.here) host.today latex
            pageOptions), { w with notices }) := by
        rw [Page.ofFile, Activity.bind_of_ok checked, Activity.bind_of_ok (readText_of_ok content),
          made]
      rw [Activity.bind_of_ok read]
      exact files_save rfl

/-- **A request saves what it makes of its input beside it**, and nothing if it makes nothing. -/
theorem files_perform (asked : request.input? = some input)
    (there : w.files.holdsFile host.here input = true) :
    (perform environment settings request host w).2.files =
      match made? environment settings host w request with
      | some (extension, text) =>
        (Page.save text (Path.withExtension extension input) host w).2.files
      | none => w.files := by
  cases request with
  | convert input' output look =>
      cases output with
      | some output => exact absurd asked nofun
      | none =>
          obtain rfl := Option.some.inj asked
          obtain ⟨notices, left⟩ := OnlyNotices.documentOptions environment settings look host w
          rw [perform, once, files_bind fun _ => KeepsFiles.pure none, made?]
          cases answer : (documentOptions environment settings look host w).1 with
          | error complaint => rw [bind_of_error (Prod.ext answer left)]
          | ok options =>
              rw [bind_of_ok (Prod.ext answer left), files_convert (w := { w with notices }) there]
              cases w.files.readText host.here input' with
              | error fault => rfl
              | ok source => exact files_save rfl
  | page input' output arguments =>
      cases output with
      | some output => exact absurd asked nofun
      | none =>
          obtain rfl := Option.some.inj asked
          obtain ⟨notices, left⟩ := OnlyNotices.pageOptions settings arguments host w
          rw [perform, once, files_bind fun _ => KeepsFiles.pure none, made?]
          cases answer : (Session.pageOptions settings arguments host w).1 with
          | error complaint => rw [bind_of_error (Prod.ext answer left)]
          | ok pageOptions =>
              rw [bind_of_ok (Prod.ext answer left), files_page (w := { w with notices }) there]
              cases w.files.readText host.here input' with
              | error fault => rfl
              | ok latex => exact files_save rfl
  | lint input' fix =>
      obtain rfl := Option.some.inj asked
      exact ((KeepsFiles.lint _ fix).bind fun _ => KeepsFiles.pure none) host w
  | _ => exact absurd asked nofun

theorem noSlash_of_made? {extension : Text}
    (made : made? environment settings host w request = some (extension, text)) :
    '/' ∉ extension := by
  unfold made? at made
  split at made
  · split at made
    · obtain ⟨rfl, -⟩ := Prod.mk.inj (Option.some.inj made)
      decide
    · exact absurd made nofun
  · split at made
    · obtain ⟨rfl, -⟩ := Prod.mk.inj (Option.some.inj made)
      decide
    · exact absurd made nofun
  · exact absurd made nofun

/-- **A request without an output of its own leaves its input as it was**, whether it is done or
not, just if the input does not have the extension of what is made of it. Otherwise what was made
takes the place of the input, and the input is as it was only if that was the same text. -/
theorem read_perform_iff (asked : request.input? = some input)
    (there : w.files.holdsFile host.here input = true) :
    (perform environment settings request host w).2.files.read host.here input =
        w.files.read host.here input ↔
      ∀ extension text,
        made? environment settings host w request = some (extension, text) →
          Path.extension? input = some extension → Path.stem? input ≠ some Path.here →
            w.files.read host.here input = .ok (Utf8.encode text) := by
  rw [files_perform asked there]
  cases made : made? environment settings host w request with
  | none => simp
  | some result =>
      obtain ⟨extension, text⟩ := result
      dsimp only
      rw [Page.read_save_withExtension text (noSlash_of_made? made) there]
      constructor
      · intro same extension' text' made' own notBare
        obtain ⟨rfl, rfl⟩ := Prod.mk.inj (Option.some.inj made')
        rw [if_pos ⟨own, notBare⟩] at same
        exact same.symm
      · intro each
        split
        next both => exact (each extension text rfl both.1 both.2).symm
        next => rfl

/-- A deck is converted beside its file. -/
theorem read_perform_heading :
    (perform [] {} (.convert "a.md".toList none {}) bareHost Build.headingWorkspace).2.files.read
      bareHost.here "a.md".toList = .ok (Utf8.encode Build.heading) := by
  have there : Build.headingWorkspace.files.holdsFile bareHost.here "a.md".toList = true := rfl
  refine ((read_perform_iff rfl there).mpr fun extension text made own => ?_).trans rfl
  have latex : some ("tex".toList, _) = some (extension, text) := made
  obtain ⟨rfl, -⟩ := Prod.mk.inj (Option.some.inj latex)
  exact absurd own (by decide)

/-- A deck whose file has the extension of LaTeX files is lost when it is converted. -/
theorem read_perform_overwritten :
    let tree := FileTree.empty.insert ["a.tex".toList] (.file (Utf8.encode Build.heading) false)
    tree.holdsFile [] "a.tex".toList = true ∧
      (perform [] {} (.convert "a.tex".toList none {}) bareHost { files := tree }).2.files.read []
        "a.tex".toList ≠ tree.read [] "a.tex".toList := by
  decide +kernel

end Session

end SlideDeck.CommandLine
