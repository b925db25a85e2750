import StageHost.Stage
import StageHost.Text.Quoted
/-
  Stages come in groups around an anchor. A guest offers the groups whose anchors it exports; a
  companion stage without its anchor is refused. A guest that exports `prefilter` alone is
  offered on its own terms. Every other offer is a row of a table (`Combination.all`), which is
  searched for the groups that a guest offers.
-/
namespace StageHost

inductive Group
  | filter
  | score
  | reserve
  | permit
  | bind
deriving DecidableEq, Repr, Inhabited

namespace Group

/-- All groups in their order. -/
def all : List Group := [.filter, .score, .reserve, .permit, .bind]

theorem mem_all (g : Group) : g ∈ all := by cases g <;> decide

/-- The stage that a group stands on. -/
def anchor : Group → Stage
  | .filter => .filter
  | .score => .score
  | .reserve => .reserve
  | .permit => .permit
  | .bind => .bind

/-- The stages that may stand beside the anchor. -/
def companions : Group → List Stage
  | .filter => [.prefilter, .postfilter]
  | .score => [.prescore, .normalizescore]
  | .reserve => [.unreserve]
  | .permit => []
  | .bind => [.prebind, .postbind]

/-- The bit of a group. -/
def bit : Group → UInt8
  | .filter => 1
  | .score => 2
  | .reserve => 4
  | .permit => 8
  | .bind => 16

/-- The name of a group. -/
def name (g : Group) : String := g.anchor.exportName

/-- The interfaces that the scheduler finds at a plugin that offers the group. -/
def interfaces : Group → List Stage
  | .filter => [.prefilter, .filter, .postfilter]
  | .score => [.prescore, .score]
  | .reserve => [.reserve]
  | .permit => [.permit]
  | .bind => [.prebind, .bind, .postbind]

end Group

/-- A set of groups as bits. -/
structure GroupSet where
  bits : UInt8 := 0
deriving DecidableEq, Repr, Inhabited

namespace GroupSet

/-- No group. -/
def empty : GroupSet := {}

/-- The bit of guests that export `prefilter` alone, which goes with no other bit. -/
def prefilterOnly : GroupSet := ⟨32⟩

/-- The set of one group. -/
def of (g : Group) : GroupSet := ⟨g.bit⟩

/-- Whether every bit of the second set is in the first. -/
def contains (s t : GroupSet) : Bool := s.bits &&& t.bits == t.bits

/-- The bits of either set. -/
def union (s t : GroupSet) : GroupSet := ⟨s.bits ||| t.bits⟩

/-- Whether a group is in the set. -/
def has (s : GroupSet) (g : Group) : Bool := s.contains (of g)

/-- The set with one more group. -/
def insert (s : GroupSet) (g : Group) : GroupSet := s.union (of g)

/-- The names of the members. -/
def names (s : GroupSet) : List String :=
  (Group.all.filter s.has).map (·.name)
    ++ (if s.contains prefilterOnly then ["prefilter-only"] else [])

def text (s : GroupSet) : String := Quoted.set s.names

/-- The set of some groups. -/
def ofList (groups : List Group) : GroupSet := groups.foldl insert empty

/-- Whether all bits of a set are those of groups. -/
def Grouped (s : GroupSet) : Prop := s.bits.toNat < 32

theorem grouped_empty : empty.Grouped := by
  unfold Grouped
  decide

theorem Grouped.insert {s : GroupSet} (h : s.Grouped) (g : Group) : (s.insert g).Grouped := by
  have hbit : g.bit.toNat < 32 := by cases g <;> decide
  show (s.bits ||| g.bit).toNat < 32
  rw [UInt8.toNat_or]
  exact Nat.or_lt_two_pow (n := 5) h hbit

end GroupSet

/-! ## Offers -/

/-- The interface that a stage is called through: normalizing belongs to score, and unreserve to
reserve. -/
def Stage.accessor : Stage → Stage
  | .normalizescore => .score
  | .unreserve => .reserve
  | s => s

/-- Groups that are offered together, and what the offer is called. -/
structure Combination where
  name : String
  groups : List Group
deriving DecidableEq, Repr

namespace Combination

/-- All ways to combine groups. -/
def all : List Combination :=
  [⟨"Filter", [.filter]⟩,
   ⟨"Score", [.score]⟩,
   ⟨"Reserve", [.reserve]⟩,
   ⟨"Permit", [.permit]⟩,
   ⟨"Bind", [.bind]⟩,
   ⟨"FilterScore", [.filter, .score]⟩,
   ⟨"FilterReserve", [.filter, .reserve]⟩,
   ⟨"FilterPermit", [.filter, .permit]⟩,
   ⟨"FilterBind", [.filter, .bind]⟩,
   ⟨"ScoreReserve", [.score, .reserve]⟩,
   ⟨"ScorePermit", [.score, .permit]⟩,
   ⟨"ScoreBind", [.score, .bind]⟩,
   ⟨"ReservePermit", [.reserve, .permit]⟩,
   ⟨"ReserveBind", [.reserve, .bind]⟩,
   ⟨"PermitBind", [.permit, .bind]⟩,
   ⟨"FilterScoreReserve", [.filter, .score, .reserve]⟩,
   ⟨"FilterScorePermit", [.filter, .score, .permit]⟩,
   ⟨"FilterScoreBind", [.filter, .score, .bind]⟩,
   ⟨"FilterReservePermit", [.filter, .reserve, .permit]⟩,
   ⟨"FilterReserveBind", [.filter, .reserve, .bind]⟩,
   ⟨"FilterPermitBind", [.filter, .permit, .bind]⟩,
   ⟨"ScoreReservePermit", [.score, .reserve, .permit]⟩,
   ⟨"ScoreReserveBind", [.score, .reserve, .bind]⟩,
   ⟨"ScorePermitBind", [.score, .permit, .bind]⟩,
   ⟨"ReservePermitBind", [.reserve, .permit, .bind]⟩,
   ⟨"FilterScoreReservePermit", [.filter, .score, .reserve, .permit]⟩,
   ⟨"FilterScoreReserveBind", [.filter, .score, .reserve, .bind]⟩,
   ⟨"FilterScorePermitBind", [.filter, .score, .permit, .bind]⟩,
   ⟨"FilterReservePermitBind", [.filter, .reserve, .permit, .bind]⟩,
   ⟨"ScoreReservePermitBind", [.score, .reserve, .permit, .bind]⟩,
   ⟨"FilterScoreReservePermitBind", [.filter, .score, .reserve, .permit, .bind]⟩]

end Combination

/-- What a plugin is offered as. -/
inductive Offer
  | prefilterOnly
  | combined (c : { c : Combination // c ∈ Combination.all })
deriving DecidableEq

namespace Offer

/-- The offer of just some groups: that of `prefilter` alone, or else the first combination that has
these groups. -/
def ofGroups? (groups : GroupSet) : Option Offer :=
  if groups = .prefilterOnly then some .prefilterOnly
  else (Combination.all.attach.find? fun c => groups = .ofList c.1.groups).map .combined

/-- The search finds an offer of any groups. -/
theorem isSome_ofGroups {groups : GroupSet} (h : groups.Grouped) (hne : groups ≠ .empty) :
    (ofGroups? groups).isSome := by
  have hall : ∀ n < 32, GroupSet.mk (.ofNat n) ≠ .empty →
      (ofGroups? ⟨.ofNat n⟩).isSome := by decide
  have hsame : GroupSet.mk (.ofNat groups.bits.toNat) = groups := by
    rw [UInt8.ofNat_toNat]
  have hfound := hall groups.bits.toNat h
  rw [hsame] at hfound
  exact hfound hne

/-- The name of an offer in descriptions. -/
def name : Offer → String
  | .prefilterOnly => "PreFilterOnly"
  | .combined c => c.1.name

/-- Whether the scheduler finds an interface at a plugin that is offered so. -/
def shows : Offer → Stage → Bool
  | .prefilterOnly, s => s == .prefilter || s == .filter
  | .combined c, s => c.1.groups.any fun g => g.interfaces.contains s

/-- Whether a stage can be called through some interface. -/
def reaches (o : Offer) (s : Stage) : Bool := o.shows s.accessor

end Offer

/-- Why a set of stages is no offer. -/
inductive GroupError
  | noStages
  | missingAnchor (stage anchor : Stage)
deriving DecidableEq, Repr

namespace GroupError

def message : GroupError → String
  | .noStages => "at least one of filter/score/reserve/permit/bind must be exported"
  | .missingAnchor stage anchor =>
    stage.exportName ++ " is exported without " ++ anchor.exportName

end GroupError

namespace StageSet

def text (s : StageSet) : String := Quoted.set (s.toList.map (·.exportName))

/-- Whether `prefilter` is exported, and beside it nothing but `enqueue`. -/
def isPrefilterOnly (s : StageSet) : Bool :=
  s.has .prefilter && s.toList.all fun t => t == .prefilter || t == .enqueue

/-- Adds the groups whose anchors are exported, up to the first companion without anchor. -/
def addGroups (s : StageSet) : List Group → GroupSet → Except GroupError GroupSet
  | [], done => .ok done
  | g :: rest, done =>
    if s.has g.anchor then s.addGroups rest (done.insert g)
    else
      match g.companions.find? s.has with
      | some stage => .error (.missingAnchor stage g.anchor)
      | none => s.addGroups rest done

/-- The groups that a set of exported stages offers. -/
def groups (s : StageSet) : Except GroupError GroupSet :=
  if s.isPrefilterOnly then .ok .prefilterOnly
  else
    match s.addGroups Group.all .empty with
    | .error e => .error e
    | .ok found => if found = .empty then .error .noStages else .ok found

theorem grouped_addGroups {s : StageSet} {groups : List Group} {done found : GroupSet}
    (hdone : done.Grouped) (h : s.addGroups groups done = .ok found) : found.Grouped := by
  induction groups generalizing done with
  | nil =>
    cases h
    exact hdone
  | cons g rest ih =>
    unfold addGroups at h
    split at h
    · exact ih (hdone.insert g) h
    · split at h
      · cases h
      · exact ih hdone h

/-- There is an offer of the groups of any set of stages. -/
theorem isSome_offer_of_groups {s : StageSet} {g : GroupSet} (h : s.groups = .ok g) :
    (Offer.ofGroups? g).isSome := by
  unfold groups at h
  split at h
  · cases h
    decide
  · split at h
    · cases h
    · rename_i found hfound
      split at h
      · cases h
      · rename_i hne
        cases h
        exact Offer.isSome_ofGroups (grouped_addGroups GroupSet.grouped_empty hfound) hne

end StageSet
end StageHost
