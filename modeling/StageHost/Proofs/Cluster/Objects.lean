import StageHost.Cluster.Node
import StageHost.Cluster.Pod
import StageHost.Proofs.Json.Records
/-
  Pods, nodes and scores that are written and read back.
  Of each type the JSON of a value stands for the value (`Json.Denotes`). A proof goes through the
  fields in the order of the declaration, one step a field.
-/
namespace StageHost
open Json

theorem Metadata.denotes (m : Metadata) : Denotes decode m.toJson m := by
  refine Fills.denotes ?_ (by decide)
  simp only [List.append_assoc]
  exact .may (stands_unlessBlank _ _) rfl <| .may (stands_unlessBlank _ _) rfl <|
    .may (stands_unlessBlank _ _) rfl <| .may (stands_unlessNoEntries _ _) rfl <|
    .may (stands_unlessNoEntries _ _) rfl <| .nil m

/-! ## Pods -/

theorem Resources.denotes (r : Resources) : Denotes decode r.toJson r := by
  refine Fills.denotes ?_ (by decide)
  simp only [List.append_assoc]
  exact .may (stands_unlessNoEntries _ _) rfl <| .may (stands_unlessNoEntries _ _) rfl <| .nil r

theorem Container.denotes (c : Container) : Denotes decode c.toJson c := by
  refine Fills.denotes ?_ (by decide)
  simp only [List.append_assoc, List.cons_append, List.nil_append]
  exact .must (denotes_string _) <| .text? rfl <| .given c.resources.denotes <| .nil c

theorem Toleration.denotes (t : Toleration) : Denotes decode t.toJson t := by
  refine Fills.denotes ?_ (by decide)
  simp only [List.append_assoc]
  exact .text? rfl <| .text? rfl <| .text? rfl <| .text? rfl <| .nil t

theorem PodSpec.denotes (s : PodSpec) : Denotes decode s.toJson s := by
  have hpriority := stands_ifSome "priority" denotes_int32 (fun _ => nofun) s.priority
  refine Fills.denotes ?_ (by decide)
  simp only [List.append_assoc]
  exact .text? rfl <| .text? rfl <| .may hpriority rfl <| .may (stands_unlessNoEntries _ _) rfl <|
    .may (stands_unlessNoItems _ Container.denotes _) rfl <|
    .may (stands_unlessNoItems _ Toleration.denotes _) rfl <| .nil s

theorem PodStatus.denotes (s : PodStatus) : Denotes decode s.toJson s := by
  refine Fills.denotes ?_ (by decide)
  simp only [List.append_assoc]
  exact .text? rfl <| .text? rfl <| .nil s

theorem Pod.denotes (p : Pod) : Denotes decode p.toJson p := by
  refine Fills.denotes ?_ (by decide)
  exact .given p.metadata.denotes <| .given p.spec.denotes <| .given p.status.denotes <| .nil p

/-! ## Nodes -/

theorem Taint.denotes (t : Taint) : Denotes decode t.toJson t := by
  refine Fills.denotes ?_ (by decide)
  simp only [List.append_assoc, List.cons_append, List.nil_append]
  exact .must (denotes_string _) <| .text? rfl <| .must (denotes_string _) <| .nil t

theorem NodeSpec.denotes (s : NodeSpec) : Denotes decode s.toJson s := by
  refine Fills.denotes ?_ (by decide)
  simp only [List.append_assoc]
  exact .may (stands_unlessFalse _ _) rfl <| .may (stands_unlessNoItems _ Taint.denotes _) rfl <|
    .nil s

theorem NodeStatus.denotes (s : NodeStatus) : Denotes decode s.toJson s := by
  refine Fills.denotes ?_ (by decide)
  simp only [List.append_assoc]
  exact .may (stands_unlessNoEntries _ _) rfl <| .may (stands_unlessNoEntries _ _) rfl <| .nil s

theorem Node.denotes (n : Node) : Denotes decode n.toJson n := by
  refine Fills.denotes ?_ (by decide)
  exact .given n.metadata.denotes <| .given n.spec.denotes <| .given n.status.denotes <| .nil n

/-! ## Scores -/

theorem NodeScore.denotes (s : NodeScore) : Denotes decode s.toJson s := by
  refine Fills.denotes ?_ (by decide)
  exact .must (denotes_string _) <| .must (denotes_int64 _) <| .nil s

theorem NodeScore.denotes_list (scores : List NodeScore) :
    Denotes decodeList (listToJson scores) scores := Json.denotes_list denotes scores

end StageHost
