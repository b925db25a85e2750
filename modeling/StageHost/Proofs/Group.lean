import Mathlib.Data.List.Sublists
import StageHost.Group
/-
  What the stages that a guest exports come to as an offer.
  The groups whose anchors are exported (`StageSet.anchored`) are the offer, unless a companion is
  exported without its anchor (`StageSet.strays`). `addGroups_eq` has the classification in these
  terms, and `loadable_iff` says which exports have an offer at all. The table of combinations has a
  row for every choice of groups (`Combination.exists_row`), and the search in it ends at that row
  (`Offer.ofGroups_combination`). An offer has exactly the stages of its groups
  (`Offer.reaches_combined`).
-/
namespace StageHost

namespace Group

/-- The stages of a group. -/
def members (g : Group) : List Stage := g.anchor :: g.companions

theorem exists_members {s : Stage} (h : s ≠ .enqueue) : ∃ g : Group, s ∈ g.members := by
  cases s with
  | enqueue => exact absurd rfl h
  | prefilter | filter | postfilter => exact ⟨.filter, by decide⟩
  | prescore | score | normalizescore => exact ⟨.score, by decide⟩
  | reserve | unreserve => exact ⟨.reserve, by decide⟩
  | permit => exact ⟨.permit, by decide⟩
  | prebind | bind | postbind => exact ⟨.bind, by decide⟩

/-- A stage is of one group. -/
theorem unique_members {s : Stage} {g g' : Group} (h : s ∈ g.members) (h' : s ∈ g'.members) :
    g = g' := by
  cases g <;> cases g' <;> first | rfl | (cases s <;> revert h h' <;> decide)

/-- A stage is of a group just if the interface that it is called through is. -/
theorem accessor_mem_interfaces {s : Stage} {g : Group} :
    s.accessor ∈ g.interfaces ↔ s ∈ g.members := by
  cases s <;> cases g <;> decide

end Group

/-! ## Combinations of groups -/

namespace Combination

theorem perm_sublists : (all.map (·.groups)).Perm (Group.all.sublists.filter (· ≠ [])) := by
  decide +kernel

/-- The table has a row for all groups, any but none of them. -/
theorem exists_row {groups : List Group} :
    (∃ c ∈ all, c.groups = groups) ↔ groups ∈ Group.all.sublists ∧ groups ≠ [] := by
  rw [← List.mem_map, perm_sublists.mem_iff, List.mem_filter]
  simp

/-- No two rows of the table are of the same groups. -/
theorem nodup_all : (all.map fun c => GroupSet.ofList c.groups).Nodup := by decide +kernel

/-- No combination is that of `prefilter` alone. -/
theorem ne_prefilterOnly {c : Combination} (h : c ∈ all) :
    GroupSet.ofList c.groups ≠ .prefilterOnly := by
  have hall : ∀ c ∈ all, GroupSet.ofList c.groups ≠ .prefilterOnly := by decide +kernel
  exact hall c h

end Combination

namespace Offer

/-- The search ends at the row of a combination, and not before. -/
theorem ofGroups_combination (c : { c : Combination // c ∈ Combination.all }) :
    ofGroups? (.ofList c.1.groups) = some (.combined c) := by
  have hfound : (Combination.all.attach.find? fun d =>
      GroupSet.ofList c.1.groups = .ofList d.1.groups).isSome :=
    List.find?_isSome.2 ⟨c, List.mem_attach _ c, by simp⟩
  obtain ⟨d, hd⟩ := Option.isSome_iff_exists.1 hfound
  have hsame : GroupSet.ofList c.1.groups = .ofList d.1.groups := by
    simpa using List.find?_some hd
  have hrow : c = d := Subtype.ext
    (List.inj_on_of_nodup_map Combination.nodup_all c.2 d.2 hsame)
  unfold ofGroups?
  rw [if_neg (Combination.ne_prefilterOnly c.2), hd, hrow]
  rfl

/-- A combination has the stages of its groups. -/
theorem reaches_combined (c : { c : Combination // c ∈ Combination.all }) (s : Stage) :
    (combined c).reaches s ↔ ∃ g ∈ c.1.groups, s ∈ g.members := by
  unfold reaches shows
  rw [List.any_eq_true]
  simp only [List.contains_iff_mem, Group.accessor_mem_interfaces]

theorem reaches_prefilterOnly (s : Stage) :
    prefilterOnly.reaches s ↔ s = .prefilter ∨ s = .filter := by
  cases s <;> decide

/-- The events to wake up for are behind no interface of a stage. -/
theorem not_reaches_enqueue (o : Offer) : ¬ o.reaches .enqueue := by
  cases o with
  | prefilterOnly => decide
  | combined c =>
    rw [reaches_combined]
    rintro ⟨g, -, hg⟩
    cases g <;> revert hg <;> decide

end Offer

/-! ## The offer of an export set -/

namespace StageSet

/-- The groups whose anchors are exported. -/
def anchored (s : StageSet) : List Group := Group.all.filter fun g => s.has g.anchor

/-- The companions in some groups that are exported without their anchors, with these anchors. -/
def straysIn (s : StageSet) (groups : List Group) : List (Stage × Stage) :=
  groups.flatMap fun g =>
    if s.has g.anchor then [] else (g.companions.filter s.has).map fun t => (t, g.anchor)

/-- All companions that are exported without their anchors, with these anchors, in the order of the
groups and of their companions. -/
def strays (s : StageSet) : List (Stage × Stage) := s.straysIn Group.all

/-- The complaint about stages that are no offer. -/
def complaint (s : StageSet) : GroupError :=
  match s.strays with
  | (stage, anchor) :: _ => .missingAnchor stage anchor
  | [] => .noStages

/-- Whether some stages are an offer: `prefilter` alone or with `enqueue`, or some anchor at least
and no companion without its anchor. -/
def Loadable (s : StageSet) : Prop :=
  (s.toList = [.prefilter] ∨ s.toList = [.enqueue, .prefilter]) ∨
    (∃ g : Group, s.has g.anchor) ∧ ∀ g : Group, ∀ t ∈ g.companions, s.has t → s.has g.anchor

/-- Adding groups comes to those with an anchor, or to the first companion without one. -/
theorem addGroups_eq (s : StageSet) (groups : List Group) (done : GroupSet) :
    s.addGroups groups done = match s.straysIn groups with
      | (stage, anchor) :: _ => .error (.missingAnchor stage anchor)
      | [] => .ok ((groups.filter fun g => s.has g.anchor).foldl .insert done) := by
  induction groups generalizing done with
  | nil => rfl
  | cons g rest ih =>
    unfold addGroups
    by_cases hg : s.has g.anchor
    · have hstrays : s.straysIn (g :: rest) = s.straysIn rest := by simp [straysIn, hg]
      have hkept : (g :: rest).filter (fun g => s.has g.anchor) =
          g :: rest.filter fun g => s.has g.anchor := List.filter_cons_of_pos hg
      rw [if_pos hg, ih, hstrays, hkept, List.foldl_cons]
    · have hstrays : s.straysIn (g :: rest) =
          ((g.companions.filter s.has).map fun t => (t, g.anchor)) ++ s.straysIn rest := by
        simp [straysIn, hg]
      have hleft : (g :: rest).filter (fun g => s.has g.anchor) =
          rest.filter fun g => s.has g.anchor := List.filter_cons_of_neg hg
      rw [if_neg hg, hstrays, hleft, ← List.head?_filter]
      cases g.companions.filter s.has with
      | nil => exact ih done
      | cons t more => rfl

theorem anchored_sublist (s : StageSet) : s.anchored ∈ Group.all.sublists :=
  List.mem_sublists.2 List.filter_sublist

theorem mem_anchored {s : StageSet} {g : Group} : g ∈ s.anchored ↔ s.has g.anchor := by
  simp [anchored, Group.mem_all]

theorem anchored_combination {s : StageSet} (h : s.anchored ≠ []) :
    ∃ c : { c : Combination // c ∈ Combination.all }, c.1.groups = s.anchored := by
  obtain ⟨c, hc, hgroups⟩ := Combination.exists_row.2 ⟨s.anchored_sublist, h⟩
  exact ⟨⟨c, hc⟩, hgroups⟩

theorem ofList_anchored_eq_empty {s : StageSet} :
    GroupSet.ofList s.anchored = .empty ↔ s.anchored = [] := by
  have hall : ∀ groups ∈ Group.all.sublists, GroupSet.ofList groups = .empty ↔ groups = [] := by
    decide +kernel
  exact hall _ s.anchored_sublist

/-- The classification as the groups with an anchor and the companions without one. -/
theorem groups_eq (s : StageSet) :
    s.groups =
      if s.isPrefilterOnly then .ok .prefilterOnly
      else if s.strays = [] ∧ s.anchored ≠ [] then .ok (.ofList s.anchored)
      else .error s.complaint := by
  have hfound := s.addGroups_eq Group.all .empty
  unfold groups complaint strays
  rw [hfound]
  by_cases honly : s.isPrefilterOnly
  · rw [if_pos honly, if_pos honly]
  · rw [if_neg honly, if_neg honly]
    cases hstrays : s.straysIn Group.all with
    | cons stray rest => simp
    | nil =>
      have hempty := s.ofList_anchored_eq_empty
      unfold GroupSet.ofList anchored at hempty
      by_cases hnone : s.anchored = []
      · have hset : (Group.all.filter fun g => s.has g.anchor).foldl GroupSet.insert .empty =
            .empty := hempty.2 hnone
        simp [hset, hnone]
      · have hset : (Group.all.filter fun g => s.has g.anchor).foldl GroupSet.insert .empty ≠
            .empty := fun h => hnone (hempty.1 h)
        simp only [if_neg hset]
        rw [if_pos ⟨trivial, hnone⟩]
        rfl

theorem isPrefilterOnly_iff {s : StageSet} :
    s.isPrefilterOnly ↔ s.toList = [.prefilter] ∨ s.toList = [.enqueue, .prefilter] := by
  constructor
  · intro h
    have hsplit : s.has .prefilter ∧ ∀ t, s.has t → t = .prefilter ∨ t = .enqueue := by
      simpa [isPrefilterOnly] using h
    obtain ⟨hpre, hothers⟩ := hsplit
    have hother : ∀ t, t ≠ .prefilter → t ≠ .enqueue → s.has t = false := by
      intro t hp he
      by_contra ht
      rcases hothers t (by simpa using ht) with rfl | rfl
      · exact hp rfl
      · exact he rfl
    cases henq : s.has .enqueue <;> simp [toList, Stage.all, hpre, henq, hother]
  · intro h
    have hmem : ∀ t, s.has t ↔ t ∈ s.toList := fun t => (s.mem_toList t).symm
    rcases h with h | h <;> simp [isPrefilterOnly, h, hmem]

theorem strays_eq_nil {s : StageSet} :
    s.strays = [] ↔ ∀ g : Group, ∀ t ∈ g.companions, s.has t → s.has g.anchor := by
  constructor
  · intro h g t ht hst
    by_contra hg
    have hmem : (t, g.anchor) ∈ s.strays := by
      unfold strays straysIn
      rw [List.mem_flatMap]
      refine ⟨g, g.mem_all, ?_⟩
      rw [if_neg hg, List.mem_map]
      exact ⟨t, List.mem_filter.2 ⟨ht, hst⟩, rfl⟩
    rw [h] at hmem
    cases hmem
  · intro h
    unfold strays straysIn
    rw [List.flatMap_eq_nil_iff]
    intro g _
    by_cases hg : s.has g.anchor
    · rw [if_pos hg]
    · rw [if_neg hg, List.map_eq_nil_iff, List.filter_eq_nil_iff]
      intro t ht hst
      exact hg (h g t ht hst)

theorem anchored_ne_nil {s : StageSet} : s.anchored ≠ [] ↔ ∃ g : Group, s.has g.anchor := by
  constructor
  · intro h
    obtain ⟨g, hg⟩ := List.exists_mem_of_ne_nil _ h
    exact ⟨g, mem_anchored.1 hg⟩
  · rintro ⟨g, hg⟩
    exact List.ne_nil_of_mem (mem_anchored.2 hg)

theorem loadable_iff {s : StageSet} :
    s.Loadable ↔ s.isPrefilterOnly ∨ s.anchored ≠ [] ∧ s.strays = [] := by
  unfold Loadable
  rw [isPrefilterOnly_iff, anchored_ne_nil, strays_eq_nil]

/-- Stages that are an offer have groups, and the others have a complaint. -/
theorem groups_of_loadable {s : StageSet} (h : s.Loadable) : ∃ groups, s.groups = .ok groups := by
  rw [groups_eq]
  rcases loadable_iff.1 h with honly | ⟨hsome, hnone⟩
  · exact ⟨_, if_pos honly⟩
  · by_cases honly : s.isPrefilterOnly
    · exact ⟨_, if_pos honly⟩
    · rw [if_neg honly, if_pos ⟨hnone, hsome⟩]
      exact ⟨_, rfl⟩

theorem groups_of_not_loadable {s : StageSet} (h : ¬ s.Loadable) :
    s.groups = .error s.complaint := by
  rw [loadable_iff, not_or] at h
  rw [groups_eq, if_neg h.1, if_neg fun hboth => h.2 ⟨hboth.2, hboth.1⟩]

/-- Whether some stages are offered as something. -/
def Offers (s : StageSet) (o : Offer) : Prop :=
  ∃ groups, s.groups = .ok groups ∧ Offer.ofGroups? groups = some o

/-- What the offer of some stages is. -/
theorem Offers.cases {s : StageSet} {o : Offer} (h : s.Offers o) :
    (s.isPrefilterOnly ∧ o = .prefilterOnly) ∨
      (¬ s.isPrefilterOnly ∧ s.strays = [] ∧
        ∃ c : { c : Combination // c ∈ Combination.all },
          o = .combined c ∧ c.1.groups = s.anchored) := by
  obtain ⟨groups, hgroups, ho⟩ := h
  rw [groups_eq] at hgroups
  split at hgroups
  · rename_i honly
    cases hgroups
    cases ho
    exact .inl ⟨honly, rfl⟩
  · rename_i honly
    split at hgroups
    · rename_i hboth
      cases hgroups
      obtain ⟨c, hc⟩ := anchored_combination hboth.2
      rw [← hc, Offer.ofGroups_combination] at ho
      cases ho
      exact .inr ⟨honly, hboth.1, c, rfl, hc⟩
    · cases hgroups

/-- An offer has every exported stage but `enqueue`. -/
theorem Offers.reaches_of_has {s : StageSet} {o : Offer} (h : s.Offers o) {t : Stage}
    (ht : s.has t) (hne : t ≠ .enqueue) : o.reaches t := by
  obtain ⟨honly, rfl⟩ | ⟨-, hnone, c, rfl, hc⟩ := h.cases
  · rw [Offer.reaches_prefilterOnly]
    rw [isPrefilterOnly_iff] at honly
    have hmem := (s.mem_toList t).2 ht
    rcases honly with h | h <;> rw [h] at hmem <;> simp_all
  · rw [Offer.reaches_combined, hc]
    obtain ⟨g, hg⟩ := Group.exists_members hne
    refine ⟨g, mem_anchored.2 ?_, hg⟩
    rcases List.mem_cons.1 hg with rfl | hcomp
    · exact ht
    · exact strays_eq_nil.1 hnone g t hcomp ht

/-- An offer of groups has only stages of groups whose anchors are exported. -/
theorem Offers.has_of_reaches {s : StageSet} {o : Offer} (h : s.Offers o) {t : Stage}
    (ht : o.reaches t) {g : Group} (hg : t ∈ g.members)
    (honly : o ≠ .prefilterOnly ∨ g ≠ .filter) : s.has g.anchor := by
  obtain ⟨-, rfl⟩ | ⟨-, -, c, rfl, hc⟩ := h.cases
  · have hfilter : g = .filter := by
      rcases (Offer.reaches_prefilterOnly t).1 ht with rfl | rfl <;> cases g <;>
        simp_all [Group.members, Group.anchor, Group.companions]
    simp [hfilter] at honly
  · obtain ⟨g', hg', hmem⟩ := (Offer.reaches_combined c t).1 ht
    rw [Group.unique_members hg hmem]
    rw [hc] at hg'
    exact mem_anchored.1 hg'

end StageSet
end StageHost
