import Lox.Source.Scan
import Lox.Execution.Error
import Lox.Scoping.Resolver

namespace Lox

/-!
# Diagnostics

What is reported to the author of a program: errors of the source text, of its
syntax, of its scopes, and of its run.  The first three reject a program before
any of it runs.
-/

/-- An error in a program. -/
inductive Diagnostic where
  | lexical (error : Source.LexicalError)
  | syntactic (error : SyntaxError)
  | scoping (error : Scoping.ScopeError)
  | runtime (error : Execution.RuntimeError)
  deriving Repr, DecidableEq

namespace Diagnostic

/-- The line at which an error is reported. -/
def line : Diagnostic → Nat
  | .lexical error => error.line
  | .syntactic error => error.line
  | .scoping error => error.culprit.line
  | .runtime error => error.line

/-- A report with its line in front, then where it is, then what is wrong. -/
def located (line : Nat) (place : String) (text : String) : String :=
  "[line " ++ toString line ++ "] Error" ++ place ++ ": " ++ text

/-- The text of an error. -/
def message : Diagnostic → String
  | .lexical error => located error.line "" error.fault.message
  | .syntactic error => located error.line error.location error.fault.message
  | .scoping error =>
      located error.culprit.line (" at '" ++ error.culprit.text ++ "'")
        error.fault.message
  | .runtime error => error.message

/-- The exit status of a process that ends with an error. -/
def exitCode : Diagnostic → Nat
  | .lexical _ => 65
  | .syntactic _ => 65
  | .scoping _ => 65
  | .runtime _ => 70

end Diagnostic

end Lox
