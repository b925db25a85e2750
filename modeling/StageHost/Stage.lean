import StageHost.Signature
/-
  The stages of scheduling that a guest may take part in, and sets of them.
-/
namespace StageHost

inductive Stage
  | enqueue
  | prefilter
  | filter
  | postfilter
  | prescore
  | score
  | normalizescore
  | reserve
  | unreserve
  | permit
  | prebind
  | bind
  | postbind
deriving DecidableEq, Repr, Inhabited

namespace Stage

/-- All stages in their order. -/
def all : List Stage :=
  [.enqueue, .prefilter, .filter, .postfilter, .prescore, .score, .normalizescore, .reserve,
   .unreserve, .permit, .prebind, .bind, .postbind]

theorem mem_all (s : Stage) : s ∈ all := by cases s <;> decide

/-- The name of the export that a guest offers for a stage. -/
def exportName : Stage → String
  | .enqueue => "enqueue"
  | .prefilter => "prefilter"
  | .filter => "filter"
  | .postfilter => "postfilter"
  | .prescore => "prescore"
  | .score => "score"
  | .normalizescore => "normalizescore"
  | .reserve => "reserve"
  | .unreserve => "unreserve"
  | .permit => "permit"
  | .prebind => "prebind"
  | .bind => "bind"
  | .postbind => "postbind"

/-- The stage of an export. -/
def ofExportName? (name : String) : Option Stage := all.find? (·.exportName == name)

theorem ofExportName?_exportName (s : Stage) : ofExportName? s.exportName = some s := by
  cases s <;> decide

/-- The name of a stage in descriptions. -/
def title : Stage → String
  | .enqueue => "Enqueue"
  | .prefilter => "PreFilter"
  | .filter => "Filter"
  | .postfilter => "PostFilter"
  | .prescore => "PreScore"
  | .score => "Score"
  | .normalizescore => "NormalizeScore"
  | .reserve => "Reserve"
  | .unreserve => "Unreserve"
  | .permit => "Permit"
  | .prebind => "PreBind"
  | .bind => "Bind"
  | .postbind => "PostBind"

/-- The place of a stage in their order. -/
def index (s : Stage) : Nat := all.idxOf s

/-- The only signature that a stage's export may have. -/
def signature : Stage → Signature
  | .enqueue | .unreserve | .postbind => .unit
  | .postfilter | .score | .permit => .packed
  | _ => .status

end Stage

/-- A set of stages. -/
structure StageSet where
  has : Stage → Bool := fun _ => false

namespace StageSet

/-- No stage. -/
def empty : StageSet := {}

instance : Inhabited StageSet := ⟨empty⟩

/-- The set with one more stage. -/
def insert (s : StageSet) (stage : Stage) : StageSet := ⟨fun t => t == stage || s.has t⟩

/-- The set of some stages. -/
def ofList (stages : List Stage) : StageSet := ⟨stages.contains⟩

/-- The stages of a set in their order. -/
def toList (s : StageSet) : List Stage := Stage.all.filter s.has

@[simp] theorem has_empty (t : Stage) : empty.has t = false := rfl

@[simp] theorem has_insert (s : StageSet) (stage t : Stage) :
    (s.insert stage).has t = (t == stage || s.has t) := rfl

@[simp] theorem mem_toList (s : StageSet) (t : Stage) : t ∈ s.toList ↔ s.has t = true := by
  simp [toList, Stage.mem_all]

end StageSet
end StageHost
