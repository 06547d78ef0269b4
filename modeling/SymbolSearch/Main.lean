import SymbolSearch.Command.Run

/-!
# The command line

Takes as much of the file system into a disk as a command may look at, runs the command on it, and prints its reply.
-/

namespace SymbolSearch.Main

/-- What is printed when help is asked for or the arguments are wrong. -/
def usage : String :=
  "usage: tagseek [-h] [-v] \x7bsearch,scan,locate\x7d ...\n" ++
  "  search query [query ...] [--root ROOT] [--tags TAGS] [--bridge-symbols FILE] [--partial | --exact] [--json]\n" ++
  "  scan [--root ROOT]\n" ++
  "  locate name [--root ROOT]\n"

/-- The file at an absolute path. -/
def entryAt (path : Text) : IO.FS.DirEntry :=
  { root := "/", fileName := String.ofList path }

/-- What stands at an absolute path, with the content of a file only on demand; a link is taken for one to where it leads. -/
def look (withContent : Bool) (path : Text) : IO (Option Entry) := do
  match ← (entryAt path).path.symlinkMetadata.toBaseIO with
  | .error _ => return none
  | .ok data =>
    match data.type with
    | .dir =>
      let lists := (← (entryAt path).path.readDir.toBaseIO).toOption.isSome
      let searches := (← (entryAt (path ++ ['/', '.'])).path.metadata.toBaseIO).toOption.isSome
      return some (.directory ⟨lists, searches⟩ [])
    | .symlink =>
      match ← (IO.FS.realPath (entryAt path).path).toBaseIO with
      | .ok target => return some (.link target.toString.toList)
      | .error _ => return none
    | .file =>
      let stamp := data.modified.sec * 1000000000 + data.modified.nsec.toNat
      if withContent then
        match ← (IO.FS.readBinFile (entryAt path).path).toBaseIO with
        | .ok content => return some (.file content.toList stamp false)
        | .error _ => return some (.file [] stamp true)
      else return some (.file [] stamp false)
    | .other => return none

/-- The disk with what stands at a path and on the way to it. -/
partial def takeWay (disk : Disk) (path : Text) : IO Disk := do
  let names := (Path.ofText path).names
  let mut disk := disk
  for k in [0:names.length] do
    let place := names.take (k + 1)
    match ← look (k + 1 = names.length) (Path.text ⟨.slash, place⟩) with
    | none => return disk
    | some (.link target) =>
      disk := disk.put place (.link target)
      disk ← takeWay disk (Text.joinWith ['/'] (target :: names.drop (k + 1)))
      return disk
    | some entry => disk := disk.put place entry
  return disk

/-- The disk with all that lies below a directory; only files that `isWanted` accepts by their path are read. -/
partial def takeTree (isWanted : Path → Bool) (disk : Disk) (directory : Path) : IO Disk := do
  match ← (entryAt directory.text).path.readDir.toBaseIO with
  | .error _ => return disk
  | .ok entries =>
    let mut disk := disk
    for entry in entries do
      let path := directory.child entry.fileName.toList
      match ← look (isWanted path) path.text with
      | none => pure ()
      | some found =>
        disk := disk.put path.names found
        if found.isDirectory then disk ← takeTree isWanted disk path
    return disk

/-- The disk with the file that a path, if there is one, leads to. -/
def takeFile (disk : Disk) (path : Except Fault (Option Path)) : IO Disk :=
  match path with
  | .ok (some p) => takeWay disk p.text
  | _ => return disk

/-- The host with all that a command may look at. -/
def gather (host : Host) (invocation : Command.Invocation) : IO Host := do
  let options := invocation.options
  let seen : Command.Given → Except Fault (Option Path)
    | .nothing => .ok none
    | .value s => do .ok (some (Path.ofText (host.absolute (← Workspace.expandHome host.home (Path.ofText s)).text)))
  let disk ← takeFile host.disk (seen options.root)
  match Command.pathOf { host with disk := disk } options.root with
  | .error _ => return { host with disk := disk }
  | .ok root =>
    let disk ← takeWay disk (root.child Settings.fileName).text
    match Settings.load { host with disk := disk } root with
    | .error _ => return { host with disk := disk }
    | .ok settings =>
      let tagsFile := (Command.tagsFileOf settings options.tags).toOption.getD settings.tagsFile
      let settings := { settings with tagsFile := tagsFile }
      let isWanted (p : Path) : Bool :=
        settings.suffixes.contains p.suffix || p.name = Ignore.fileName || p.name = Settings.fileName
      let disk ← takeTree isWanted disk root
      let tags := settings.tagsPath host.home root
      let disk ← takeFile disk (tags.map some)
      let disk ← takeFile disk (settings.symbolsPath host.home root)
      let mut disk ← match options.symbols with
        | some arg => takeFile disk (seen arg)
        | none => pure disk
      if settings.resolvePatterns then
        match tags with
        | .error _ => pure ()
        | .ok tags =>
          let text := (({ host with disk := disk } : Host).readText tags.text).toOption.getD []
          for line in Tags.linesOf text do
            disk ← takeWay disk (Tags.pathOf (Path.directoryOf (host.absolute tags.text)) line.file)
      return { host with disk := disk }

end SymbolSearch.Main

open SymbolSearch in
/-- Runs the command that the arguments ask for. -/
def main (args : List String) : IO UInt32 := do
  match Command.Invocation.ofArguments (args.map String.toList) with
  | .error .help =>
    IO.print Main.usage
    return 0
  | .error .misuse =>
    IO.eprint Main.usage
    return 2
  | .ok invocation =>
    let workingDir ← IO.currentDir
    let home := ((← IO.getEnv "HOME").getD "/").toList
    let host ← Main.gather ⟨.empty, Path.ofText workingDir.toString.toList, home, .direct⟩ invocation
    match invocation.run host with
    | .ok reply =>
      IO.print (String.ofList reply.out)
      IO.eprint (String.ofList reply.err)
      return reply.exitCode.toUInt32
    | .error fault =>
      IO.eprintln ("error: " ++ String.ofList (fault.message?.getD "the command could not be completed".toList))
      return 1
