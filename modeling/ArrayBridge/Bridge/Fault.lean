import ArrayBridge.Bridge.Handle
import ArrayBridge.Configuration.Fault
import ArrayBridge.Exception

/-! Failures of the bridge. -/

namespace ArrayBridge

/-- Why a runtime did not come up. -/
inductive InitializationError where
  | configuration (reason : String)
  /-- The text of the configuration file cannot be read as settings. -/
  | malformedConfiguration (fault : Configuration.Fault)
  | library (path : String)
  | runtime (reason : String)
  | panicked (reason : String)
  | released
  deriving DecidableEq, Inhabited

namespace InitializationError

/-- The name under which a failure is reported. -/
def name : InitializationError → String
  | configuration _ | malformedConfiguration _ => "Config"
  | library _ => "Library"
  | runtime _ => "Runtime"
  | panicked _ => "Panicked"
  | released => "InitReleased"

/-- The text of a failure. What the system says about a library that does not load
is not part of it. -/
def message : InitializationError → String
  | configuration reason => "invalid runtime configuration: " ++ reason
  | malformedConfiguration fault => "invalid runtime configuration: " ++ fault.message
  | library path => "failed to load native library " ++ path
  | runtime reason => "runtime initialization failed: " ++ reason
  | panicked reason => "runtime initialization panicked: " ++ reason
  | released => "runtime has been released"

end InitializationError

/-- What is wrong with an index expression. -/
inductive IndexFault where
  | rank (expected found : Nat)
  | outOfRange (reason : String)
  | shape (reason : String)
  | zeroStep
  deriving DecidableEq, Inhabited

namespace IndexFault

def name : IndexFault → String
  | rank _ _ => "Index.Rank"
  | outOfRange _ => "Index.OutOfRange"
  | shape _ => "Index.Shape"
  | zeroStep => "Index.ZeroStep"

def message : IndexFault → String
  | rank expected found => s!"expected {expected} indices, got {found}"
  | outOfRange reason => reason
  | shape reason => "shape mismatch: " ++ reason
  | zeroStep => "slice step cannot be zero"

end IndexFault

/-- A failure of a bridge operation. -/
inductive BridgeError where
  | initialization (cause : InitializationError)
  /-- The runtime raised an exception while it worked on the named path. -/
  | foreignCall (path : String) (exception : Exception)
  | index (fault : IndexFault)
  | noAttribute (name type : String)
  | typeMismatch (expected found : String)
  | release (handle : Handle) (status : ReleaseStatus)
  | invalidHandle (handle : Handle)
  | released
  deriving DecidableEq, Inhabited

namespace BridgeError

/-- The name under which a failure is reported. -/
def name : BridgeError → String
  | initialization cause => cause.name
  | foreignCall _ _ => "ForeignCall"
  | index fault => fault.name
  | noAttribute _ _ => "Attribute"
  | typeMismatch _ _ => "Type"
  | release _ _ => "Release"
  | invalidHandle _ => "InvalidHandle"
  | released => "Released"

def message : BridgeError → String
  | initialization cause => cause.message
  | foreignCall path exception => path ++ ": " ++ exception.text
  | index fault => "IndexError: " ++ fault.message
  | noAttribute name type => s!"AttributeError: '{type}' object has no attribute '{name}'"
  | typeMismatch expected found => s!"TypeError: expected {expected}, found {found}"
  | release handle status => s!"failed to release {handle.text}: status {status.code}"
  | invalidHandle handle => "invalid handle " ++ handle.text
  | released => "runtime has been released"

/-- Whether no later operation can succeed. -/
def isFatal : BridgeError → Bool
  | initialization _ | released => true
  | _ => false

end BridgeError

end ArrayBridge
