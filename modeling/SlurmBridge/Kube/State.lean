/- source: internal/controller/registration/membership.go
   digest: A state of the Kubernetes cluster, what it answers to reads, and reads that fail. -/

import SlurmBridge.Kube.Reads

set_option autoImplicit false

namespace SlurmBridge.Kube.State

open Kube.Objects Kube.Reads

/-- A state of the cluster: its Pods, no two of which share a name, and what it answers about all
other objects. -/
structure Cluster where
  pods : List Pod
  distinct : (pods.map Pod.namespacedName).Nodup
  others : (q : Query) → q.Reply

namespace Cluster

def answer (cluster : Cluster) : (q : Query) → q.Reply
  | .pod ns name =>
    match cluster.pods.find? fun pod => pod.ns.text == ns && pod.name.text == name with
    | some pod => Except.ok pod
    | none => Except.error .notFound
  | .podsWithLabel ns label value =>
    Except.ok (cluster.pods.filter fun pod =>
      ns.all (· == pod.ns.text) && decide (pod.labels.lookup label = some value))
  | .podGroupMembers ns group =>
    Except.ok (cluster.pods.filter fun pod =>
      pod.ns.text == ns && pod.schedulingGroup == some (some group))
  | q => cluster.others q

end Cluster

end SlurmBridge.Kube.State
