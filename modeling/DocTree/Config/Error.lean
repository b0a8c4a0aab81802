import DocTree.Store.Error

/-!
# Configuration errors

Why the configuration of a collection cannot be determined, and how each reason is worded.
-/

namespace DocTree

/-- What is wrong with a configuration document. -/
inductive ConfigProblem where
  /-- It is not the JSON text of a configuration document. -/
  | malformed
  /-- A trigger is of a class that does not exist. -/
  | unsupportedClass (name : String)
  /-- A trigger lists an event that does not exist. -/
  | unknownEvent (name : String)
  /-- A trigger does not say where its program comes from. -/
  | missingSource
  /-- Something else, in words. -/
  | other (words : String)
  deriving DecidableEq, Repr

/-- How a problem is worded. What exactly is malformed is not told. -/
def ConfigProblem.message : ConfigProblem → String
  | malformed => "<json>"
  | unsupportedClass name => "unsupported trigger class '" ++ name ++ "'"
  | unknownEvent name => "unknown trigger event '" ++ name ++ "'"
  | missingSource => "trigger needs a 'query' or 'url' parameter"
  | other words => words

/-- Why the configuration of a collection cannot be determined. -/
inductive ConfigError where
  /-- A configuration document has a problem. -/
  | invalid (document : Path) (problem : ConfigProblem)
  /-- The store failed. -/
  | storage (cause : StoreError)
  deriving DecidableEq, Repr

/-- How a configuration error is worded. -/
def ConfigError.message : ConfigError → String
  | invalid document problem =>
    "invalid collection configuration " ++ document.text ++ ": " ++ problem.message
  | storage cause => "storage error while resolving configuration: " ++ cause.message

end DocTree
