import SymbolSearch.Data.Issue
import SymbolSearch.Disk.Basic

/-!
# Faults

What may leave an operation instead of an answer.
-/

namespace SymbolSearch

/-- Why settings cannot be used. -/
inductive SettingsError where
  /-- The document does not follow the format. -/
  | malformed (path : Text)
  /-- The document is well formed and some of its values are not. -/
  | invalid (path : Text) (issues : List Issue)
  /-- The suffixes are no list, which ends the check at once. -/
  | suffixesNotAList (path : Text)
  deriving DecidableEq, Repr

/-- The cause of an operation that gives no answer. -/
inductive Fault where
  | disk (error : DiskError)
  | undecodable
  | tagsUnreadable (path : Text)
  | dumpUnreadable (path : Text)
  | invalid (issues : List Issue)
  | settings (error : SettingsError)
  | unknownMode
  | badAuthority
  | unknownUser
  | linkLoop
  /-- An ignore rule that ends where a character is needed. -/
  | ruleTooShort
  /-- An ignore rule with a set of characters that cannot be read. -/
  | badSet
  /-- A path that does not lie below the directory of an ignore file. -/
  | outsideBase
  /-- An integer that takes more than 64 bits. -/
  | integerTooWide
  /-- An integer with more digits than are read or written. -/
  | tooManyDigits
  | providerFailed
  /-- A question to a source of symbols that never ends. -/
  | unanswered
  /-- More levels inside each other than can be gone through. -/
  | nestedTooDeep
  /-- A path is needed of an option that was given no value. -/
  | noPath
  /-- A path to fill in is needed of an option that was given no value. -/
  | noTemplate
  deriving DecidableEq, Repr

namespace Fault

/-- A failure of the disk itself; a refused path is none. -/
def isDiskFailure : Fault → Bool
  | disk .nulCharacter => false
  | disk _ => true
  | _ => false

/-- A fault that a scan of the source tree contains: failures of the disk or of a symbol source, and refused values. -/
def isContained : Fault → Bool
  | disk _ | undecodable | tagsUnreadable _ | dumpUnreadable _ | invalid _ | unknownMode | badAuthority | outsideBase
  | tooManyDigits => true
  | settings _ | unknownUser | linkLoop | ruleTooShort | badSet | integerTooWide | providerFailed | unanswered | nestedTooDeep
  | noPath | noTemplate => false

end Fault

namespace SettingsError

/-- The text of a settings error up to where the issues are listed. -/
def message : SettingsError → Text
  | malformed path => "Invalid TOML in ".toList ++ path
  | invalid path _ => "Invalid config in ".toList ++ path
  | suffixesNotAList path => "Invalid config in ".toList ++ path ++ ": extensions must be a list of suffixes".toList

end SettingsError

namespace Fault

/-- The text of a fault, for the causes that have one. -/
def message? : Fault → Option Text
  | tagsUnreadable path => some ("Tags file is not readable: ".toList ++ path)
  | dumpUnreadable path => some ("Workspace symbol file is not readable: ".toList ++ path)
  | settings error => some error.message
  | _ => none

end Fault

end SymbolSearch
