import SlideDeck.Tool.Script.Printing
import SlideDeck.Tool.Utility.Served

/-!
# Programs that work on files

Showing, making, copying, moving and removing files and directories.
-/

set_option autoImplicit false

namespace SlideDeck.Utility

open SlideDeck SlideDeck.Text SlideDeck.Script

/-- Serves each operand, and tells if there is none. -/
def forEach (missing : String) (serve : Request → Served → Text → Served) : Service :=
  fun request =>
    if request.operands.isEmpty then request.served.misused request missing.toList 1
    else request.operands.foldl (serve request) request.served

/-- Makes files, unless something is there. -/
def touch : Service := forEach "missing file operand" fun request served operand =>
  let path := toText operand
  if request.has 'c' || served.files.holds request.here path then served
  else
    served.take request ("cannot touch ".toList ++ quote operand)
      (served.files.write request.here path [])

/-- Removes files, and directories if an option says so. With another one, a file that
is not there is no fault. -/
def remove : Service := fun request =>
  if request.has 'f' && request.operands.isEmpty then request.served
  else
    forEach "missing operand" (fun request served operand =>
      let about := "cannot remove ".toList ++ quote operand
      match served.files.find request.here (toText operand) with
      | .error fault =>
        if request.has 'f' && (fault == .notFound || fault == .notDirectory) then served
        else served.take request about (.error fault)
      | .ok (place, .directory) =>
        if request.has 'r' || request.has 'R' then
          { served with files := served.files.remove place }
        else served.take request about (.error .isDirectory)
      | .ok (place, _) => { served with files := served.files.remove place }) request

/-- Removes empty directories. -/
def removeDirectory : Service := forEach "missing operand" fun request served operand =>
  let about := "failed to remove ".toList ++ quote operand
  match served.files.find request.here (toText operand) with
  | .error fault => served.take request about (.error fault)
  | .ok (place, .directory) =>
    if (served.files.names place).isEmpty then { served with files := served.files.remove place }
    else served.take request about (.error (.described "Directory not empty".toList))
  | .ok _ => served.take request about (.error .notDirectory)

/-- Makes one directory. -/
def makeOne (request : Request) (served : Served) (path : Path) : Served :=
  served.take request ("cannot create directory ".toList ++ quote (ofText path))
    (served.files.makeDirectory request.here path)

/-- Makes directories, with those around them if an option says so. -/
def makeDirectory : Service := forEach "missing operand" fun request served operand =>
  let path := toText operand
  if request.has 'p' then
    (path :: Path.parents path).reverse.foldl (fun served path =>
      if path.isEmpty || served.files.holdsDirectory request.here path then served
      else makeOne request served path) served
  else makeOne request served path

/-- The path that a source gets as a target: in a directory it keeps its name. -/
def targetPath (request : Request) (served : Served) (source target : Path) : Path :=
  if served.files.holdsDirectory request.here target then
    Path.child target ((Path.fileName? source).getD source)
  else target

/-- The files with a node at a path. -/
def putNode (tree : FileTree) (here : Location) (path : Path) (node : FileNode) :
    Except SystemFault FileTree := do
  match ← tree.locateFile here path with
  | [] => throw .isDirectory
  | name :: parent => return tree.changeAt parent (Keyed.put name node)

/-- Copies a source to a target, or moves it there. -/
def transferOne (moves : Bool) (target : Text) (request : Request) (served : Served)
    (source : Text) : Served :=
  let from? := served.files.find request.here (toText source)
  let path := targetPath request served (toText source) (toText target)
  match from? with
  | .error fault => served.take request ("cannot stat ".toList ++ quote source) (.error fault)
  | .ok (place, entry) =>
    let isWhole := moves || request.has 'r' || request.has 'R' || request.has 'a'
    if entry == .directory && !isWhole then
      served.tell request ("-r not specified; omitting directory ".toList ++ quote source) 1
    else
      match served.files.find request.here path with
      | .ok (other, old) =>
        if other == place then
          served.tell request (quote source ++ " and ".toList ++ quote (ofText path) ++
            " are the same file".toList) 1
        else if entry == .directory && old != .directory then
          served.tell request ("cannot overwrite non-directory ".toList ++
            quote (ofText path) ++ " with directory ".toList ++ quote source) 1
        else transfer place path
      | .error _ => transfer place path
where
  /-- Puts what is at a location to a path. -/
  transfer (place : Location) (path : Path) : Served :=
    let node := (served.files.nodeAt place).getD (.directory [])
    let about := "cannot create regular file ".toList ++ quote (ofText path)
    match putNode served.files request.here path node with
    | .error fault => served.take request about (.error fault)
    | .ok files => { served with files := if moves then files.remove place else files }

/-- Copies or moves files. -/
def transfer (moves : Bool) : Service := fun request =>
  match request.operands with
  | [] => request.served.misused request "missing file operand".toList 1
  | [only] =>
    request.served.misused request
      ("missing destination file operand after ".toList ++ quote only) 1
  | operands =>
    let target := operands.getLastD []
    let refused (fault : SystemFault) : Served :=
      request.served.tell request ("target ".toList ++ quote target ++ ": ".toList ++ fault.words) 1
    match operands.length, request.files.find request.here (toText target) with
    | 2, _ | _, .ok (_, .directory) =>
      operands.dropLast.foldl (transferOne moves target request) request.served
    | _, .error fault => refused fault
    | _, .ok _ => refused .notDirectory

/-- Lists the names in directories. -/
def list : Service := fun request =>
  let operands := if request.operands.isEmpty then [['.']] else request.operands
  let linesOf (names : List Text) : Text := names.flatMap fun name => name ++ ['\n']
  let marked (place : Location) (name : Text) : Text :=
    match request.has 'F', request.files.entryAt place with
    | true, some .directory => name ++ ['/']
    | true, some (.file _ true) => name ++ ['*']
    | _, _ => name
  let listed (place : Location) : Text :=
    let names := ((request.files.names place).map ofText).filter fun name =>
      request.has 'a' || request.has 'A' || name.head? != some '.'
    let names := if request.has 'a' then [['.'], ['.', '.']] ++ names else names
    linesOf ((names.mergeSort Text.le).map fun name => marked (toText name :: place) name)
  let found := operands.map fun operand =>
    (operand, request.files.find request.here (toText operand))
  let missing := found.filterMap fun (operand, result) =>
    match result with
    | .error fault => some (operand, fault)
    | .ok _ => none
  let files := found.filterMap fun (operand, result) =>
    match result with
    | .error _ => none
    | .ok (place, entry) =>
      if entry == .directory && !request.has 'd' then none else some (marked place operand)
  let directories := found.filterMap fun (operand, result) =>
    match result with
    | .ok (place, .directory) => if request.has 'd' then none else some (operand, place)
    | _ => none
  let served := missing.foldl (fun served (operand, fault) =>
    served.tell request ("cannot access ".toList ++ quote operand ++ ": ".toList ++ fault.words) 2)
    request.served
  let served := served.put (linesOf (files.mergeSort Text.le))
  if operands.length == 1 then
    directories.foldl (fun served (_, place) => served.put (listed place)) served
  else
    (directories.foldl (fun (served, isFirst) (operand, place) =>
      let gap := if isFirst then [] else ['\n']
      (served.put (gap ++ operand ++ ":\n".toList ++ listed place), false))
      (served, files.isEmpty)).1

/-- Whether a mode makes a file executable, if it says anything about that. -/
def modeOf (mode : Text) : Option Bool :=
  if mode.all Char.isDigit then
    some (mode.any fun c => c == '1' || c == '3' || c == '5' || c == '7')
  else if !mode.contains 'x' then none
  else some (mode.contains '+' || mode.contains '=')

/-- Whether a text is a mode. -/
def isMode (mode : Text) : Bool :=
  !mode.isEmpty && (mode.all isOctal ||
    (splitAt ',' mode).all fun change =>
      match change.dropWhile ['u', 'g', 'o', 'a'].contains with
      | [] => false
      | sign :: rights =>
        ['+', '-', '='].contains sign && rights.all "rwxXstugo+-=".toList.contains)

/-- Changes whether files are executable. -/
def changeMode : Service := fun request =>
  match request.arguments with
  | [] => request.served.misused request "missing operand".toList 1
  | [mode] => request.served.misused request ("missing operand after ".toList ++ quote mode) 1
  | mode :: operands =>
    if !isMode mode then
      request.served.misused request ("invalid mode: ".toList ++ quote mode) 1
    else operands.foldl (fun served operand =>
      match served.files.find request.here (toText operand) with
      | .error fault =>
        served.take request ("cannot access ".toList ++ quote operand) (.error fault)
      | .ok (place, .file content executable) =>
        { served with files :=
            served.files.insert place (.file content ((modeOf mode).getD executable)) }
      | .ok _ => served) request.served

/-- Writes the input to files, and prints it. -/
def tee : Service := fun request =>
  let served := request.operands.foldl (fun served operand =>
    if operand == "/dev/stderr".toList then
      { served with errors := served.errors ++ request.input }
    else if operand == "/dev/stdout".toList then served.put request.input
    else
    let path := toText operand
    let before :=
      if request.has 'a' then (served.files.read request.here path).toOption.getD [] else []
    served.take request operand
      (served.files.write request.here path (before ++ toBytes request.input))) request.served
  served.put request.input

end SlideDeck.Utility
