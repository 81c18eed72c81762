import Mathlib.Data.List.Basic

/-!
# Storage pools

A cloud pool refers to the pools of the clusters that serve it: one home cluster and any number
of others that reach the same backend.
-/

namespace MeisterStack.ControllerApi

structure StoragePoolSpec where
  driver : String
  nodes : List String
  default : Bool
  cluster : String
  clusters : List String

namespace StoragePoolSpec

variable (spec : StoragePoolSpec)

def reaches (node : String) : Bool :=
  spec.nodes.isEmpty || spec.nodes.contains node

def servedBy : List String :=
  spec.clusters.foldl (fun out c => if c ≠ "" && !out.contains c then out ++ [c] else out)
    (if spec.cluster ≠ "" then [spec.cluster] else [])

def home : Option String := spec.servedBy.head?

def serves (cluster : String) : Bool := spec.servedBy.contains cluster

end StoragePoolSpec

end MeisterStack.ControllerApi
