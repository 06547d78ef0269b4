import SymbolSearch.Command.Invocation
import SymbolSearch.Command.Report
import SymbolSearch.Search.Searcher
import SymbolSearch.Settings.File

/-!
# Running commands

A command reads the settings of its workspace, does what is asked and leaves a reply.
-/

namespace SymbolSearch.Command

/-- The path that an option names: the home directory is filled in and no link is left. -/
def pathOf (host : Host) : Given → Except Fault Path
  | .nothing => .error .noPath
  | .value s => do host.canonical (← Workspace.expandHome host.home (Path.ofText s)).text

/-- The tags file that an option names in place of the settings. -/
def tagsFileOf (settings : Settings) : Option Given → Except Fault Text
  | none => .ok settings.tagsFile
  | some (.value s) => .ok s
  | some .nothing => .error .noTemplate

/-- The searcher that a search asks, with what the options say in place of the settings. -/
def searcherOf (host : Host) (root : Path) (settings : Settings) (options : Options) : Except Fault Searcher := do
  let given ← options.symbols.mapM (fun given => do .ok (Provider.dump (← pathOf host given).text))
  let provider ← Searcher.providerOf host root settings given
  let settings := { settings with tagsFile := ← tagsFileOf settings options.tags }
  Searcher.ofSettings host root settings provider

/-- The outcome of a search for words. -/
def outcomeOf (host : Host) (root : Path) (settings : Settings) (words : List Text) (options : Options) :
    Except Fault Outcome := do
  let searcher ← searcherOf host root settings options
  (searcher.search host .fresh (Text.joinWith [' '] words) (options.mode.getD settings.matchMode)).1

/-- Searches. -/
def search (host : Host) (root : Path) (settings : Settings) (words : List Text) (options : Options) :
    Except Fault Reply := do
  outcomeReply options.json (← outcomeOf host root settings words options)

/-- Lists the functions that a scan finds. -/
def scan (host : Host) (root : Path) (settings : Settings) : Except Fault Reply := do
  let provider ← Searcher.providerOf host root settings none
  let _ ← Searcher.ofSettings host root settings provider
  let names ← (Scanner.mk .disk settings.selection).scan host root.text
  .ok ⟨names.flatMap (· ++ ['\n']), [], 0⟩

/-- Prints where a function is defined. -/
def locate (host : Host) (root : Path) (settings : Settings) (name : Text) : Except Fault Reply := do
  let provider ← Searcher.providerOf host root settings none
  let _ ← Searcher.ofSettings host root settings provider
  match ← (Scanner.mk .disk settings.selection).locate host root.text name with
  | some location => .ok ⟨(← locationText location) ++ ['\n'], [], 0⟩
  | none => .ok ⟨[], name ++ ": definition not found\n".toList, 1⟩

/-- The options of an invocation. -/
def Invocation.options : Invocation → Options
  | search _ options | scan options | locate _ options => options

/-- Does what is asked. Settings that cannot be used are a complaint; any other fault is one of the command. -/
def Invocation.run (host : Host) (invocation : Invocation) : Except Fault Reply := do
  let root ← pathOf host invocation.options.root
  match Settings.load host root with
  | .error (.settings error) => .ok ⟨[], "error: ".toList ++ error.message ++ ['\n'], 2⟩
  | .error fault => .error fault
  | .ok settings =>
    match invocation with
    | search words options => Command.search host root settings words options
    | scan _ => Command.scan host root settings
    | locate name _ => Command.locate host root settings name

end SymbolSearch.Command
