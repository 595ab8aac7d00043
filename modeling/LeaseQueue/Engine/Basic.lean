import LeaseQueue.Grouping.Digest
import LeaseQueue.Grouping.Params
/-! What a diff engine is asked and how it fails. The engine compares the images itself; this
library only hands it the parameters of a grouping and the digests of a review branch. -/
namespace LeaseQueue

/-- One call of a diff engine. No extra digests stand for the primary branch. -/
structure DiffCall where
  params : Params
  extra : List Digest

/-- How a diff engine fails. -/
inductive DiffError where
  | requestFailed (reason : String)
  | service (status : Nat) (text : String)
  | calculation (reason : String)
deriving DecidableEq

def DiffError.message : DiffError → String
  | .requestFailed reason => "Diff service request failed: " ++ reason
  | .service status text => "Diff service error (" ++ toString status ++ "): " ++ text
  | .calculation reason => "Diff calculation failed: " ++ reason

end LeaseQueue
