import TraceFold.Bubble

/-!
# Build errors

Why data could not be taken out of a bubble whose place in a pattern was already found.
-/

namespace TraceFold

/-- Failure of a builder against the bubble it was given. -/
inductive BuildError where
  | unexpectedPayload (expected found : PayloadKind)
  | unexpectedBody (expected : Operation) (found : Option Operation)
  | missingField (name : String)
deriving DecidableEq

namespace BuildError

def message : BuildError → String
  | unexpectedPayload expected found =>
    "expected a " ++ expected.name ++ " payload, found " ++ found.name
  | unexpectedBody expected found =>
    "expected a " ++ expected.name ++ " message body, found "
      ++ ((found.map Operation.name).getD "none")
  | missingField name => "required field '" ++ name ++ "' is missing"

end BuildError
end TraceFold
