import SymbolSearch.Ignore.Rule
import SymbolSearch.Pattern.ExpressionText

/-!
# Matching ignore rules

A rule is matched against a path as seen from the directory of its file. It is written out as an expression, and that is read only
now, so a rule whose expression cannot be read is a fault at its first use. A complement of no characters leaves its set open in
the written expression, which then goes on to the next closing bracket.
-/

namespace SymbolSearch.Ignore

/-- The content of a set as an expression has it: a backslash stands for itself, and so does a circumflex in front unless it makes
the complement. -/
def setText (negated : Bool) (content : Text) : Text :=
  let content := content.flatMap (fun c => if c = '\\' then ['\\', '\\'] else [c])
  if negated then '^' :: content
  else if content.head? = some '^' then '\\' :: content
  else content

/-- A part of a rule written as an expression. -/
def Glob.expressionText : Glob → Text
  | char c => Expression.escaped c
  | star => "[^/]*".toList
  | doubleStar => ".*".toList
  | directories => "(.*[/])?".toList
  | question => "[^/]".toList
  | slash => "[/]".toList
  | set negated content => '[' :: setText negated content ++ [']']

/-- What stands in front of a rule's parts: the start of the path if the rule is tied, and else the start or a slash. -/
def Rule.front (rule : Rule) : Text :=
  if rule.anchored then "^".toList else "(^|[/])".toList

/-- What stands behind a rule's parts: the end; for directories also a slash, and if they are kept, a slash at the end. -/
def Rule.back (rule : Rule) : Text :=
  if !rule.directoryOnly then "$".toList
  else if rule.negated then "/$".toList
  else "($|\\/)".toList

/-- The rule written as an expression. -/
def Rule.expressionText (rule : Rule) : Text :=
  rule.front ++ rule.globs.flatMap Glob.expressionText ++ rule.back

/-- The rule names the path, given as seen from the directory of its file. -/
def Rule.matchesPath (rule : Rule) (s : Text) : Except Fault Bool :=
  match Expression.read? rule.expressionText with
  | none => .error .badSet
  | some e => .ok (e.occursIn s)

end SymbolSearch.Ignore
