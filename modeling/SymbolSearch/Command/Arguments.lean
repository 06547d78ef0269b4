import SymbolSearch.Text.Digit

/-!
# Arguments

How a list of arguments is told apart into words, options and what belongs to them. A long option may be shortened as long as only
one option starts so, its value may stand behind an equals sign, and behind a double dash all is words.
-/

namespace SymbolSearch.Command

/-- What an option does: it switches something on, or it takes a value. -/
inductive Role (σ τ : Type) where
  | switch (s : σ)
  | setting (t : τ)
  deriving DecidableEq, Repr

/-- The options that are known, by name. -/
abbrev Known (σ τ : Type) := List (Text × Role σ τ)

/-- An argument told apart. -/
inductive Token (σ τ : Type) where
  | word (s : Text)
  | doubleDash
  /-- An option, and what else is written in the same argument. -/
  | option (name : Text) (role : Role σ τ) (glued : Option Text)
  | unknown
  deriving DecidableEq, Repr

/-- Why arguments lead to nothing to do: help is asked for, or they are wrong. -/
inductive Stop where
  | help
  | misuse
  deriving DecidableEq, Repr

/-- The double dash. -/
def dashes : Text := ['-', '-']

variable {σ τ : Type}

/-- The role of a name. -/
def Known.find? (known : Known σ τ) (name : Text) : Option (Role σ τ) :=
  (List.find? (fun entry => entry.1 = name) known).map (·.2)

/-- The argument looks like a negative number; a line feed at its end does not count. -/
def isNegativeNumber (arg : Text) : Bool :=
  match arg with
  | '-' :: rest =>
    let body := if rest.getLast? = some '\n' then rest.dropLast else rest
    let whole := body.takeWhile Text.isDigit
    match body.drop whole.length with
    | [] => !whole.isEmpty
    | '.' :: fraction => !fraction.isEmpty && fraction.all Text.isDigit
    | _ => false
  | _ => false

/-- The options that an argument may stand for: long ones that start so, or the short one it starts with. -/
def candidates (known : Known σ τ) (arg : Text) : List (Token σ τ) :=
  if Text.startsWith dashes arg then
    let (front, glued) := match arg.splitFirst? '=' with
      | some (front, value) => (front, some value)
      | none => (arg, none)
    (List.filter (fun entry => Text.startsWith front entry.1) known).map
      (fun entry => .option entry.1 entry.2 glued)
  else
    (List.filter (fun entry => entry.1 = arg.take 2) known).map
      (fun entry => .option entry.1 entry.2 (some (arg.drop 2)))

/-- Tells an argument in front of any double dash apart. -/
def tokenOf (known : Known σ τ) (arg : Text) : Except Stop (Token σ τ) :=
  if arg.head? ≠ some '-' then .ok (.word arg)
  else
    match known.find? arg with
    | some role => .ok (.option arg role none)
    | none =>
      if arg.length = 1 then .ok (.word arg)
      else
        let exact := do
          let (front, value) ← arg.splitFirst? '='
          let role ← known.find? front
          some (Token.option front role (some value))
        match exact with
        | some token => .ok token
        | none =>
          match candidates known arg with
          | [token] => .ok token
          | _ :: _ => .error .misuse
          | [] => .ok (if isNegativeNumber arg || arg.contains ' ' then .word arg else .unknown)

/-- Tells arguments apart. -/
def tokensOf (known : Known σ τ) : List Text → Except Stop (List (Token σ τ))
  | [] => .ok []
  | arg :: rest =>
    if arg = dashes then .ok (.doubleDash :: rest.map .word)
    else do
      let token ← tokenOf known arg
      .ok (token :: (← tokensOf known rest))

/-- A token that starts with an option. -/
def Token.isOption : Token σ τ → Bool
  | .option .. | .unknown => true
  | .word _ | .doubleDash => false

/-- The switches that short names written in one run turn on; every one of them has to be known. -/
def shortSwitches (known : Known σ τ) : Text → Except Stop (List σ)
  | [] => .ok []
  | c :: rest =>
    match known.find? ['-', c] with
    | some (.switch s) => (shortSwitches known rest).map (s :: ·)
    | _ => .error .misuse

/-- The switches that what is glued to a switch turns on as well: short ones behind a short one, at least one of them. -/
def gluedSwitches (known : Known σ τ) (name glued : Text) : Except Stop (List σ) :=
  if Text.startsWith dashes name || glued.isEmpty then .error .misuse else shortSwitches known glued

end SymbolSearch.Command
