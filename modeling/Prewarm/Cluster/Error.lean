/-!
# Failures of the cluster

What can go wrong in dealing with the cluster: it refuses a call, its reply cannot be read, or a
watch breaks.
-/

namespace Prewarm

/-- A failure in dealing with the cluster. -/
inductive ClusterError where
  /-- The cluster refused a call, with a code. -/
  | refused (code : Nat)
  /-- There was no reply, or none that can be read. -/
  | unreadable
  /-- The version a watch began at is not kept any more. -/
  | expired (message : String)
  /-- A watch broke, with a code. -/
  | watch (code : Nat) (message : String)
  deriving DecidableEq, Repr

namespace ClusterError

/-- What is said of a failure. -/
def message : ClusterError → String
  | refused code => "kube api error: " ++ toString code
  | unreadable => "kube api error: unreadable reply"
  | expired m => "watch expired: " ++ m
  | watch code m => "watch error " ++ toString code ++ ": " ++ m

end ClusterError

end Prewarm
