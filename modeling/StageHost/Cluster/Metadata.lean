import StageHost.Json.Decode
import StageHost.Json.Members
/-
  What pods and nodes have in common: a name, a namespace, an identity, labels and annotations.
-/
namespace StageHost

structure Metadata where
  name : String := ""
  namespaceName : String := ""
  uid : String := ""
  labels : StringMap := {}
  annotations : StringMap := {}
deriving DecidableEq, Inhabited

namespace Metadata
open Json

def toJson (m : Metadata) : Json :=
  .object (unlessBlank "name" m.name ++ unlessBlank "namespace" m.namespaceName
    ++ unlessBlank "uid" m.uid ++ unlessNoEntries "labels" m.labels
    ++ unlessNoEntries "annotations" m.annotations)

def decode : Decoder Metadata :=
  asRecord "ObjectMeta"
    [.may "name" asString fun v m => { m with name := v },
     .may "namespace" asString fun v m => { m with namespaceName := v },
     .may "uid" asString fun v m => { m with uid := v },
     .may "labels" asMap fun v m => { m with labels := v },
     .may "annotations" asMap fun v m => { m with annotations := v }]
    {}

end Metadata
end StageHost
