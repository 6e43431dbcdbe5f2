import QueryCaret.Text.Basic

/-!
# Outcomes of reading a command line

A command line that does not ask for a report asks for help or for the version, or is wrong in one of
these ways. Asking is no failure and exits with `0`; everything else exits with `2`.
-/

set_option autoImplicit false

namespace QueryCaret

inductive Usage where
  | help
  | version
  /-- The command line is empty. -/
  | noCommand
  /-- A word stands where a command should, and names none. -/
  | unknownCommand
  /-- An option nobody knows, or a word that nothing takes. -/
  | unknownArgument
  /-- A value is missing, empty where it must not be, or none of the words allowed. -/
  | invalidValue
  /-- A value is not a number in range. -/
  | malformedNumber
  /-- A value is attached to an option that takes none. -/
  | unneededValue
  /-- An option stands twice, or together with one that excludes it. -/
  | conflict
  /-- A required option is missing. -/
  | missingRequired
  /-- A value that has to be text is not UTF-8. -/
  | notUtf8
  deriving DecidableEq, Repr

namespace Usage

def exitCode : Usage → Nat
  | .help | .version => 0
  | _ => 2

/-- What the program prints for it. -/
def notice : Usage → Text
  | .help =>
    "Usage: querydiag render -p|--position N -m|--message TEXT [--execute] [--padding N]\n".toList
      ++ "         [--anchor trimmed|original] [-f|--file PATH] [QUERY]\n".toList
  | .version => "querydiag 0.1.0\n".toList
  | .noCommand => "error: no command given\n".toList
  | .unknownCommand => "error: unrecognized command\n".toList
  | .unknownArgument => "error: unexpected argument\n".toList
  | .invalidValue => "error: invalid value\n".toList
  | .malformedNumber => "error: invalid number\n".toList
  | .unneededValue => "error: unexpected value for an option\n".toList
  | .conflict => "error: an argument cannot be used twice or with another one\n".toList
  | .missingRequired => "error: a required argument was not provided\n".toList
  | .notUtf8 => "error: invalid UTF-8 was detected in an argument\n".toList

end Usage

end QueryCaret
