import SlideDeck.Tool.Script.Expansion

/-!
# Sending what is read and printed elsewhere

Before a command runs, its redirections let descriptors lead to files, to texts, or to
where other descriptors lead. A redirection that cannot be made is told about, and the
command does not run.
-/

set_option autoImplicit false

namespace SlideDeck.Script

open SlideDeck SlideDeck.Text

/-- What the script says about a fault, which has words of its own for a path that leads
nowhere. -/
def openingFault (missing : String) : SystemFault → Text
  | .notFound | .notDirectory => missing.toList
  | fault => fault.words

namespace Shell

/-- Tells about something that is wrong with a redirection. -/
def refuse (what : Text) : Shell Bool := do
  warn what
  setStatus 2
  return false

/-- The paths that lead where a descriptor does. -/
def descriptorPaths : List (Text × Nat) :=
  [("/dev/stdin".toList, 0), ("/dev/stdout".toList, 1), ("/dev/stderr".toList, 2)]

/-- Lets a descriptor lead to a file. -/
def openFile (descriptor : Nat) (mode : OpenMode) (name : Text) : Shell Bool := do
  let state ← get
  let path := toText name
  let use (stream : Stream) : Shell Bool := do
    connect descriptor (← openStream stream)
    return true
  if let some other := descriptorPaths.lookup name then
    if let some stream := Keyed.get? other state.descriptors then
      connect descriptor stream
      return true
  let at? := state.files.find state.here path
  if mode == .read then
    match at? with
    | .ok (_, .sink) => use .sink
    | .ok (place, _) => use (.file place 0 false)
    | .error fault =>
      refuse ("cannot open ".toList ++ name ++ ": ".toList ++ openingFault "No such file" fault)
  else
    let protects := mode == .write && state.options.contains 'C'
    let refused (fault : SystemFault) : Shell Bool :=
      refuse ("cannot create ".toList ++ name ++ ": ".toList ++
        openingFault "Directory nonexistent" fault)
    match at? with
    | .ok (_, .sink) => use .sink
    | .ok (place, .file _ executable) =>
      if protects then refused .alreadyExists
      else
        if mode == .write || mode == .replace then
          modify fun state =>
            { state with files := state.files.insert place (.file [] executable) }
        use (.file place 0 (mode == .append))
    | .ok (_, .directory) => refused .isDirectory
    | .error _ =>
      match state.files.write state.here path [] with
      | .error fault => refused fault
      | .ok files =>
        modify fun state => { state with files }
        match files.locate state.here path with
        | .ok place => use (.file place 0 (mode == .append))
        | .error fault => refused fault

/-- Lets a descriptor lead where another one leads, or nowhere. -/
def copyDescriptor (descriptor : Nat) (other : Text) : Shell Bool := do
  if other == ['-'] then
    modify fun state => { state with descriptors := Keyed.erase descriptor state.descriptors }
    return true
  else
    match if other.length == 1 then digits? other else none with
    | none =>
      modify fun state => { state with line := state.lineBehind }
      warn "Syntax error: Bad fd number".toList
      setStatus 2
      throw .exit
    | some number =>
      match Keyed.get? number (← get).descriptors with
      | some stream =>
        connect descriptor stream
        return true
      | none => refuse (other ++ ": Bad file descriptor".toList)

/-- Makes a redirection. -/
def redirect (run : List Statement → Shell Text) : Redirection → Shell Bool
  | .toFile descriptor mode path => do openFile descriptor mode (← Word.text run path)
  | .toDescriptor descriptor other => do copyDescriptor descriptor (← Word.text run other)
  | .toText descriptor text => do
    connect descriptor (← openStream (.given (toBytes (← Word.text run text))))
    return true

/-- Makes redirections in order, up to one that cannot be made. -/
def redirectAll (run : List Statement → Shell Text) : List Redirection → Shell Bool
  | [] => return true
  | redirection :: others => do
    if ← redirect run redirection then redirectAll run others else return false

end Shell

end SlideDeck.Script
