import LeaseQueue.Engine.Basic
import LeaseQueue.Grouping.Resolver
/-! How a unit of work and the polling loop end when they do not end well. -/
namespace LeaseQueue

inductive ClaimError where
  | store (cause : StoreError)
  | resolve (cause : ResolveError)
  | diff (grouping : GroupingId) (cause : DiffError)
  | deadlineExceeded (deadline : Duration)
deriving DecidableEq

def ClaimError.message : ClaimError → String
  | .store cause => "Work store error: " ++ cause.message
  | .resolve cause => "Could not resolve grouping: " ++ cause.message
  | .diff grouping cause =>
    "Diff calculation for grouping " ++ grouping.written ++ " failed: " ++ cause.message
  | .deadlineExceeded deadline =>
    "Unit of work exceeded its deadline of " ++ deadline.written

/-- The one way out of the polling loop. -/
inductive PollError where
  | cancelled
deriving DecidableEq

def PollError.message : PollError → String
  | .cancelled => "Polling cancelled"

end LeaseQueue
