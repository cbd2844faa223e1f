import ApiTools.Emission.Write
import ApiTools.Server.Basic
import ApiTools.Tool.Registry

/-!
# Failures of commands

A command is prepared for what can be wrong with documents, files and settings, and reports it.
What remains are values of kinds that its steps do not expect: those end the program.
-/

namespace ApiTools

/-- Is the fault reported? -/
def Yaml.Fault.isReported : Yaml.Fault → Bool
  | .malformed | .badValue _ | .circular | .longNumber => true
  | _ => false

/-- Is the error reported? -/
def FetchError.isReported : FetchError → Bool
  | .yaml fault => fault.isReported
  | _ => true

/-- Is the error reported? -/
def LoadError.isReported : LoadError → Bool
  | .references .misplaced => false
  | .acceptance .objectExpected => false
  | .document .objectExpected | .document .unusable => false
  | _ => true

/-- Is the error reported? -/
def RegistryError.isReported : RegistryError → Bool
  | .source (.fetch e) => e.isReported
  | .source (.load e) => e.isReported
  | _ => true

/-- Is the error reported? -/
def ModelError.isReported : ModelError → Bool
  | .methodName _ => true
  | _ => false

/-- The start of the report of an error. -/
def ModelError.message : ModelError → Text
  | .methodName name => "Field " ++ Literal.text name ++ " conflicts with member <"
  | _ => "there is no model"

namespace CommandLine

/-- Why a command fails. -/
inductive Failure where
  | registry (e : RegistryError)
  | write (e : Emission.WriteError)
  | server (e : ServerError)
deriving DecidableEq

namespace Failure

/-- Is the failure reported? -/
def isReported : Failure → Bool
  | .registry e => e.isReported
  | .write (.model e) => e.isReported
  | .write _ => true
  | .server (.model e) => e.isReported
  | .server (.service _) => true

/-- The report of a failure. -/
def message : Failure → Text
  | .registry e => e.message
  | .write e => e.message
  | .server (.service e) => e.message
  | .server (.model e) => e.message

end Failure

end CommandLine

end ApiTools
