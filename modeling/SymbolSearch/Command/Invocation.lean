import SymbolSearch.Command.Arguments
import SymbolSearch.Query.Matching

/-!
# Invocations

What a list of arguments asks for: a search, a scan or the place of a definition.
-/

namespace SymbolSearch.Command

/-- What can be switched on. -/
inductive Switch where
  | help
  | verbose
  | json
  | mode (mode : MatchMode)
  deriving DecidableEq, Repr

/-- What can be set to a value. -/
inductive Setting where
  | root
  | tags
  | symbols
  deriving DecidableEq, Repr

/-- What an option that takes a value was given. A double dash in place of the value stands for no value at all. -/
inductive Given where
  | value (s : Text)
  | nothing
  deriving DecidableEq, Repr

/-- What an argument gives. -/
def Given.ofText (s : Text) : Given :=
  if s = dashes then .nothing else .value s

/-- What the options say. -/
structure Options where
  root : Given
  tags : Option Given
  symbols : Option Given
  mode : Option MatchMode
  json : Bool
  deriving DecidableEq, Repr

/-- No option is given. -/
def Options.unset : Options := ⟨.value ['.'], none, none, none, false⟩

/-- The options with a switch turned on; the two match modes exclude each other. -/
def Options.turnOn (options : Options) : Switch → Except Stop Options
  | .help => .error .help
  | .verbose => .ok options
  | .json => .ok { options with json := true }
  | .mode mode =>
    if options.mode.any (· ≠ mode) then .error .misuse else .ok { options with mode := some mode }

/-- The options with several switches turned on in order. -/
def Options.turnOnAll (options : Options) : List Switch → Except Stop Options
  | [] => .ok options
  | s :: rest => do (← options.turnOn s).turnOnAll rest

/-- The options with a value set; the last value counts. -/
def Options.set (options : Options) (value : Text) : Setting → Options
  | .root => { options with root := .ofText value }
  | .tags => { options with tags := some (.ofText value) }
  | .symbols => { options with symbols := some (.ofText value) }

/-- How many words belong together behind a command. -/
inductive Arity where
  | nothing
  | one
  | oneOrMore
  /-- A word and all that follows it, options included. -/
  | wordAndRest
  deriving DecidableEq, Repr

/-- The tokens in front that are words or double dashes. -/
def leadingWords (tokens : List (Token Switch Setting)) : Nat :=
  (tokens.takeWhile (fun token => !token.isOption)).length

/-- The number of double dashes in front. -/
def leadingDashes (tokens : List (Token Switch Setting)) : Nat :=
  (tokens.takeWhile (· = .doubleDash)).length

/-- The number of tokens in front that words of an arity take; none if they lack a word. -/
def Arity.count (arity : Arity) (tokens : List (Token Switch Setting)) : Nat :=
  let start := leadingDashes tokens
  if leadingWords tokens ≤ start then 0
  else
    match arity with
    | .nothing => 0
    | .one => start + 1 + leadingDashes (tokens.drop (start + 1))
    | .oneOrMore => leadingWords tokens
    | .wordAndRest => tokens.length

/-- What has been read of a list of arguments. -/
structure Progress where
  /-- The words that are still to come. -/
  arity : Arity
  options : Options
  /-- The arguments that were taken as words, with the double dash among them. -/
  words : List Text
  /-- Something was not understood. -/
  leftover : Bool

/-- Reads the options and the words of tokens, given the arguments that the tokens were; `skip` of them have been taken already.
Words have to stand together: what is left of them elsewhere is not understood. -/
def collect (known : Known Switch Setting) (skip : Nat) (progress : Progress) :
    List (Token Switch Setting × Text) → Except Stop Progress
  | [] => .ok progress
  | (token, arg) :: rest =>
    match skip, token with
    | skip + 1, _ => collect known skip progress rest
    | 0, .unknown => collect known 0 { progress with leftover := true } rest
    | 0, .option name (.switch s) glued => do
      let more ← match glued with
        | some glued => gluedSwitches known name glued
        | none => .ok []
      collect known 0 { progress with options := ← progress.options.turnOnAll (s :: more) } rest
    | 0, .option _ (.setting t) (some value) =>
      collect known 0 { progress with options := progress.options.set value t } rest
    | 0, .option _ (.setting t) none =>
      match rest.head? with
      | some (.word value, _) => collect known 1 { progress with options := progress.options.set value t } rest
      | _ => .error .misuse
    | 0, _ =>
      let tokens := (token, arg) :: rest
      match progress.arity.count (tokens.map (·.1)) with
      | 0 => collect known 0 { progress with leftover := true } rest
      | taken + 1 =>
        collect known taken { progress with arity := .nothing, words := (tokens.take (taken + 1)).map (·.2) } rest

/-- Reads the options and the words of arguments. -/
def readArguments (known : Known Switch Setting) (arity : Arity) (args : List Text) : Except Stop Progress := do
  let tokens ← tokensOf known args
  collect known 0 ⟨arity, .unset, [], false⟩ (tokens.zip args)

/-- Words without the double dash that set them off. -/
def withoutDashes (words : List Text) : List Text :=
  words.erase dashes

/-! ## The commands -/

/-- What is asked for. -/
inductive Invocation where
  | search (words : List Text) (options : Options)
  | scan (options : Options)
  | locate (name : Text) (options : Options)
  deriving DecidableEq, Repr

/-- The options that every command has. -/
def generalOptions : Known Switch Setting :=
  [("-h", .switch .help), ("--help", .switch .help), ("-v", .switch .verbose), ("--verbose", .switch .verbose)].map
    (fun (name, role) => (name.toList, role))

/-- The option that names a workspace. -/
def rootOption : Known Switch Setting :=
  [("--root".toList, .setting .root)]

/-- The options of a search. -/
def searchOptions : Known Switch Setting :=
  generalOptions ++ rootOption ++
    [("--tags", .setting .tags), ("--bridge-symbols", .setting .symbols), ("--partial", .switch (.mode .inside)),
     ("--exact", .switch (.mode .exact)), ("--json", .switch .json)].map (fun (name, role) => (name.toList, role))

/-- Reads the arguments of a command, all of which have to be understood. -/
def readAll (known : Known Switch Setting) (arity : Arity) (args : List Text) : Except Stop (List Text × Options) := do
  let progress ← readArguments known arity args
  if progress.leftover then .error .misuse
  else if progress.arity ≠ .nothing then .error .misuse
  else .ok (withoutDashes progress.words, progress.options)

/-- Reads what follows the name of a command. -/
def ofCommand (name : Text) (args : List Text) : Except Stop Invocation :=
  if name = "search".toList then do
    let (words, options) ← readAll searchOptions .oneOrMore args
    .ok (.search words options)
  else if name = "scan".toList then do
    let (_, options) ← readAll (generalOptions ++ rootOption) .nothing args
    .ok (.scan options)
  else if name = "locate".toList then do
    let (words, options) ← readAll (generalOptions ++ rootOption) .one args
    .ok (.locate (words.head?.getD []) options)
  else .error .misuse

/-- Reads all arguments: general options, the name of a command, and what belongs to it. Help asked of the command is given before
anything else is found wrong. -/
def Invocation.ofArguments (args : List Text) : Except Stop Invocation := do
  let progress ← readArguments generalOptions .wordAndRest args
  match progress.words with
  | [] => .error .misuse
  | name :: rest =>
    let invocation ← ofCommand name rest
    if progress.leftover then .error .misuse else .ok invocation

end SymbolSearch.Command
