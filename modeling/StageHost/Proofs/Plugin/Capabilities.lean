import StageHost.Proofs.Guest.Handles
import StageHost.Proofs.Plugin.Answers
import StageHost.Proofs.Plugin.Interfaces
/-
  What a prepared module can do, and what it is asked to do.
  A module is started if its exports are an offer (`instantiates_iff`). The interfaces then show the
  stages of the groups whose anchors are exported (`Combines`), or those of `prefilter` alone
  (`PrefiltersOnly`), and every exported stage stands behind one of them. Whatever is called
  through them in whatever order, no guest is called on a stage that it does not export: `Settles`
  has all the ways in which a call can be answered instead (`settles_after`).
-/
namespace StageHost

/-- What a stage hands back where the guest does not export it. The others are not skipped. -/
def StageCall.skipped? : StageCall → Option StageAnswer
  | .prefilter .. => some (.restriction .allNodes .success)
  | .filter .. | .prescore .. | .prebind .. => some (.status .success)
  | .postfilter .. => some (.nomination {} ⟨.unschedulable, "no postfilter"⟩)
  | .normalizescore _ _ scores => some (.scores scores .success)
  | .unreserve .. | .postbind .. => some .done
  | .enqueue | .score .. | .reserve .. | .permit .. | .bind .. => none

/-! ## Guests -/

/-- A call that gets to the guest does not fail for want of an export. -/
theorem Guest.exported_of_body {g : Guest} {c : StageCall} {body : Statement}
    (h : g.body? c = some body) (s : Stage) :
    (g.call c).1 ≠ .error (.notExported s) := by
  obtain ⟨result, m, hran⟩ := ran_of_body h
  rw [hran.outcome]
  cases result with
  | ok word => simp
  | error f => cases f <;> simp [CallError.ofFailure]

namespace Plugin

/-- Whether a status tells why no guest could be had. -/
def Refuses (s : Status) : Prop := (∃ e, s = creationStatus e) ∨ ∃ pod, s = reclaimedStatus pod

/-- A stage that the guest does not export is skipped, and no guest takes notice. -/
theorem run_of_skipped {p : Plugin} {c : StageCall} {a : StageAnswer}
    (hx : ¬ p.exports.has c.stage) (ha : c.skipped? = some a) :
    (p.run c).1 = a ∧ (p.run c).2.pool.guests = p.pool.guests := by
  have hreleased : ∀ pod, (p.release pod).pool.guests = p.pool.guests := fun pod =>
    (closes_release p pod).guests
  cases c with
  | prefilter | filter | postfilter | prescore | normalizescore | prebind =>
    cases ha
    dsimp only [StageCall.stage] at hx
    dsimp only [run, prefilter, filter, postfilter, prescore, normalizeScore, prebind]
    rw [if_neg hx]
    exact ⟨rfl, rfl⟩
  | unreserve | postbind =>
    cases ha
    dsimp only [StageCall.stage] at hx
    dsimp only [run, unreserve, postbind]
    rw [if_neg hx]
    exact ⟨rfl, hreleased _⟩
  | enqueue | score | reserve | permit | bind => cases ha

/-- An exported stage for which no guest can be had tells why. -/
theorem run_of_refused {p : Plugin} {c : StageCall} (hx : p.exports.has c.stage)
    (hne : c ≠ .enqueue) (hnone : p.guestOf? c = none) :
    ∃ s, Refuses s ∧ (p.run c).1 = c.answerFailed s := by
  cases turn_run p c with
  | passed hn _ =>
    rcases hn with hn | hn
    · cases c <;> first | exact absurd rfl hne | cases hn
    · exact absurd hx hn
  | @scheduled cycle pod q hk hs _ =>
    rw [guestOf_of_schedules hk hs hx] at hnone
    rcases hp : p.pool.schedule p.create cycle pod.uid with ⟨e | id, pool⟩ <;> rw [hp] at hnone
    · refine ⟨creationStatus e, .inl ⟨e, rfl⟩, ?_⟩
      rw [run_of_schedules hk hs hx, onSchedulingGuest, hp]
      rfl
    · cases hnone
  | @bound cycle pod q hk hs _ =>
    rw [guestOf_of_binds hk hs hx] at hnone
    rw [run_of_binds hk hs hx, onBindingGuest]
    rcases hp : p.pool.claim pod.uid with ⟨id | _ | _, pool⟩ <;> rw [hp] at hnone
    · cases hnone
    · exact ⟨reclaimedStatus pod, .inr ⟨pod, rfl⟩, rfl⟩
    · dsimp only at hnone ⊢
      rcases hd : pool.detach p.create pod.uid with ⟨e | id, pool'⟩ <;> rw [hd] at hnone
      · exact ⟨creationStatus e, .inl ⟨e, rfl⟩, rfl⟩
      · cases hnone

end Plugin

namespace Interfaces

/-! ## Accessors -/

theorem mem_accessors {i : Interfaces} {s : Stage} :
    s ∈ i.accessors ↔ s ∈ interfaceStages ∧ i.offer.shows s := List.mem_filter

/-- A stage is offered if the interface that it is called through is. -/
theorem reaches_iff_accessor (i : Interfaces) {s : Stage} (hne : s ≠ .enqueue) :
    i.offer.reaches s ↔ s.accessor ∈ i.accessors := by
  have hmem : s.accessor ∈ interfaceStages := by cases s <;> first | exact absurd rfl hne | decide
  rw [mem_accessors, and_iff_right hmem]
  rfl

/-- The interfaces of a guest that exports `prefilter` alone: its prefilter, and a filter that
admits every node. -/
structure PrefiltersOnly (i : Interfaces) : Prop where
  offer : i.offer = .prefilterOnly
  accessors : i.accessors = [.prefilter, .filter]
  admits : ∀ calls cycle pod node,
    (i.after calls).run (.filter cycle pod node) = (some (.status .success), i.after calls)

/-- The interfaces of a guest that exports anchors: the stages of their groups, in the one row of
the table that has these groups. -/
structure Combines (i : Interfaces) (exports : StageSet) : Prop where
  offer : ∃ c : { c : Combination // c ∈ Combination.all }, i.offer = .combined c ∧
    ∀ g, g ∈ c.1.groups ↔ exports.has g.anchor
  accessors : ∀ s, s ∈ i.accessors ↔
    s ∈ interfaceStages ∧ ∃ g : Group, exports.has g.anchor ∧ s ∈ g.members

theorem prefiltersOnly_of_offer {i : Interfaces} (h : i.offer = .prefilterOnly) :
    i.PrefiltersOnly := by
  refine ⟨h, ?_, fun calls cycle pod node => ?_⟩
  · rw [accessors, h]
    decide
  · have hafter := (i.offer_after calls).trans h
    rw [run_of_ne (by simp)]
    simp [hafter, Offer.reaches_prefilterOnly, StageCall.stage]

theorem combines_of_offer {i : Interfaces} {exports : StageSet}
    {c : { c : Combination // c ∈ Combination.all }} (h : i.offer = .combined c)
    (hc : c.1.groups = exports.anchored) : i.Combines exports := by
  have hgroups : ∀ g, g ∈ c.1.groups ↔ exports.has g.anchor := fun g => by
    rw [hc]
    exact StageSet.mem_anchored
  refine ⟨⟨c, h, hgroups⟩, fun s => ?_⟩
  rw [mem_accessors]
  refine and_congr_right fun hs => ?_
  -- the interfaces are called through themselves
  have hself : s.accessor = s := by revert hs; cases s <;> decide
  have hreaches : i.offer.shows s ↔ i.offer.reaches s := by rw [Offer.reaches, hself]
  rw [hreaches, h, Offer.reaches_combined]
  simp only [hgroups]

/-! ## Loading -/

/-- Whether loading comes to start the plugin, which then is what is loaded. -/
def Instantiates (module : Prepared) (config : Config) : Prop :=
  (load module config).1.map Interfaces.plugin =
      (Plugin.start module config).1.map (fun _ => (Plugin.start module config).2.takeRecords.2) ∧
    (load module config).2 = (Plugin.start module config).2.takeRecords.1

theorem instantiates_iff (module : Prepared) (config : Config) :
    Instantiates module config ↔ module.exports.Loadable := by
  constructor
  · intro h
    by_contra hno
    have hstart := h.1
    rw [load_of_error (StageSet.groups_of_not_loadable hno)] at hstart
    cases hres : (Plugin.start module config).1 with
    | ok u =>
      rw [hres] at hstart
      cases hstart
    | error e =>
      rw [hres] at hstart
      cases hstart
      -- a plugin that does not start has another complaint
      rcases Plugin.start_error hres with ⟨reason, he⟩ | ⟨g, err, -, -, -, he⟩ <;> cases he
  · intro h
    obtain ⟨groups, hgroups⟩ := StageSet.groups_of_loadable h
    exact load_of_groups hgroups config

/-- Loading never fails because a guest was asked for something that it does not export. -/
theorem load_ne_notExported {p : Program} {name digest : String} {m : Prepared}
    (hm : p.prepare name digest = .ok m) (config : Config) (s : Stage) :
    (load m config).1 ≠ .error (.guest (.notExported s)) := by
  intro h
  by_cases hload : m.exports.Loadable
  · have hstart := ((instantiates_iff m config).2 hload).1
    rw [h] at hstart
    cases hres : (Plugin.start m config).1 with
    | ok u =>
      rw [hres] at hstart
      cases hstart
    | error e =>
      rw [hres] at hstart
      cases hstart
      rcases Plugin.start_error hres with ⟨reason, he⟩ | ⟨g, err, hg, hx, hcall, he⟩
      · cases he
      · cases he
        obtain ⟨body, hbody⟩ := (Guest.lived_of_create hg).exists_body (c := .enqueue) hm hx
        exact Guest.exported_of_body hbody s hcall
  · rw [load_of_error (StageSet.groups_of_not_loadable hload)] at h
    cases h

/-! ## Calls -/

/-- How a call through the interfaces is answered: with the events the plugin started with, by the
filter that admits every node, by skipping a stage that is not exported, by telling why there is no
guest, or with what the stage makes of a guest's call, which found its export. -/
inductive Settles (i : Interfaces) (c : StageCall) : StageAnswer → Prop
  | events (hc : c = .enqueue) : Settles i c (.events i.plugin.events)
  | admitted (ho : i.offer = .prefilterOnly) (hc : c.stage = .filter) (hi : (i.run c).2 = i) :
    Settles i c (.status .success)
  | skipped {a : StageAnswer} (hx : ¬ i.plugin.exports.has c.stage) (ha : c.skipped? = some a)
    (hguests : (i.run c).2.plugin.pool.guests = i.plugin.pool.guests) : Settles i c a
  | refused {s : Status} (hx : i.plugin.exports.has c.stage) (hnone : i.plugin.guestOf? c = none)
    (hs : Plugin.Refuses s) : Settles i c (c.answerFailed s)
  | called {id : Nat} {guest : Guest} (hruns : i.plugin.RunsOn c id)
    (hmet : i.plugin.met? id = some guest)
    (hfound : ∀ s, (guest.call c).1 ≠ .error (.notExported s)) :
    Settles i c (c.answerOf ((guest.call c).1.mapError CallError.status))

/-- A stage on offer that is not exported is one that is skipped. -/
theorem skipped_of_reaches {exports : StageSet} {o : Offer} (h : exports.Offers o)
    {c : StageCall} (hr : o.reaches c.stage) (hx : ¬ exports.has c.stage)
    (ho : ¬ (o = .prefilterOnly ∧ c.stage = .filter)) : ∃ a, c.skipped? = some a := by
  by_cases honly : o = .prefilterOnly
  · rw [honly, Offer.reaches_prefilterOnly] at hr
    cases c <;> simp_all [StageCall.stage, StageCall.skipped?]
  · have hanchor : ∀ g : Group, c.stage ≠ g.anchor := by
      intro g hg
      rw [hg] at hr hx
      exact hx (h.has_of_reaches hr List.mem_cons_self (.inl honly))
    cases c with
    | enqueue => exact absurd hr o.not_reaches_enqueue
    | score => exact absurd rfl (hanchor .score)
    | reserve => exact absurd rfl (hanchor .reserve)
    | permit => exact absurd rfl (hanchor .permit)
    | bind => exact absurd rfl (hanchor .bind)
    | _ => exact ⟨_, rfl⟩

theorem settles_run {p : Program} {name digest : String} {m : Prepared}
    (hm : p.prepare name digest = .ok m) {i : Interfaces} (hi : i.plugin.Reachable)
    (hmodule : i.plugin.module = m) (hoffer : m.exports.Offers i.offer) {c : StageCall}
    {a : StageAnswer} (h : (i.run c).1 = some a) : i.Settles c a := by
  cases i.run_cases c with
  | absent _ _ hrun =>
    rw [hrun] at h
    cases h
  | admitted ho hc hrun =>
    rw [hrun] at h
    cases h
    exact .admitted ho hc (by rw [hrun])
  | passed hr ho hrun =>
    rw [hrun] at h
    cases h
    by_cases hc : c = .enqueue
    · subst hc
      exact .events rfl
    have hreach : i.offer.reaches c.stage := hr.resolve_left hc
    by_cases hx : i.plugin.exports.has c.stage
    · cases hguest : i.plugin.guestOf? c with
      | none =>
        obtain ⟨s, hs, hanswer⟩ := Plugin.run_of_refused hx hc hguest
        rw [hanswer]
        exact .refused hx hguest hs
      | some id =>
        obtain ⟨guest, hmet, hanswer⟩ := Plugin.run_eq_answerOf hi.pool hguest
        have hlived := Plugin.lived_of_met hi hmet
        rw [hmodule] at hlived
        have hx' : m.exports.has c.stage := by
          rw [← hmodule]
          exact hx
        obtain ⟨body, hbody⟩ := hlived.exists_body hm hx'
        rw [hanswer]
        exact .called (Plugin.runsOn_of_guestOf hi.pool hguest) hmet (Guest.exported_of_body hbody)
    · have hx' : ¬ m.exports.has c.stage := by
        rw [← hmodule]
        exact hx
      obtain ⟨a, ha⟩ := skipped_of_reaches hoffer hreach hx' ho
      obtain ⟨hanswer, hguests⟩ := Plugin.run_of_skipped hx ha
      rw [hanswer]
      exact .skipped hx ha (by rw [hrun]; exact hguests)

/-- Every call through the interfaces is answered without asking a guest for what it does not
export. -/
theorem settles_after {p : Program} {name digest : String} {m : Prepared}
    (hm : p.prepare name digest = .ok m) {config : Config} {i : Interfaces}
    (hi : (load m config).1 = .ok i) (calls : List StageCall) {c : StageCall} {a : StageAnswer}
    (h : ((i.after calls).run c).1 = some a) : (i.after calls).Settles c a := by
  obtain ⟨hreach, hmodule, hoffer⟩ := reachable_after hi calls
  exact settles_run hm hreach hmodule hoffer h

theorem isSome_run (i : Interfaces) (c : StageCall) :
    (i.run c).1.isSome ↔ c = .enqueue ∨ i.offer.reaches c.stage := by
  cases i.run_cases c with
  | absent hn hr h => simp [h, hn, hr]
  | admitted ho hc h => simp [h, ho, hc, Offer.reaches_prefilterOnly]
  | passed hr _ h => simp [h, hr]

theorem stage_ne_enqueue {c : StageCall} (h : c ≠ .enqueue) : c.stage ≠ .enqueue := by
  cases c <;> first | exact absurd rfl h | simp [StageCall.stage]

/-- What the exports of a prepared module come to. Loading goes on to make a guest just if they are
an offer, and otherwise complains of the first companion without its anchor, or of there being no
stage. Whatever the groups of the exports are, there is an offer of them, and it is the one that is
loaded. The interfaces loaded then have just the stages of the groups with an anchor, every exported
stage can be called through them, and however they are called, every call is settled without asking
a guest for what it does not export. -/
theorem capabilities_of_prepare {p : Program} {name digest : String} {m : Prepared}
    (hm : p.prepare name digest = .ok m) (config : Config) :
    (∀ s, m.exports.has s ↔ p.Exports s) ∧
    (Instantiates m config ↔ m.exports.Loadable) ∧
    (¬ m.exports.Loadable → load m config = (.error (.groups m.exports.complaint), [])) ∧
    (∀ s, (load m config).1 ≠ .error (.guest (.notExported s))) ∧
    (∀ groups, m.exports.groups = .ok groups → ∀ plugin, (wrap? groups plugin).isSome) ∧
    ∀ i, (load m config).1 = .ok i →
      (∃ groups, m.exports.groups = .ok groups ∧ wrap? groups i.plugin = some i) ∧
      (if m.exports.isPrefilterOnly then i.PrefiltersOnly else i.Combines m.exports) ∧
      (∀ s, m.exports.has s → s ≠ .enqueue → s.accessor ∈ i.accessors) ∧
      ∀ calls c,
        (((i.after calls).run c).1.isSome ↔ c = .enqueue ∨ c.stage.accessor ∈ i.accessors) ∧
        ∀ a, ((i.after calls).run c).1 = some a → (i.after calls).Settles c a := by
  refine ⟨fun s => Program.has_of_prepare hm s, instantiates_iff m config, ?_,
    load_ne_notExported hm config, fun groups => isSome_wrap_of_groups, fun i hi => ?_⟩
  · intro hno
    exact load_of_error (StageSet.groups_of_not_loadable hno) config
  · have hoffer := offers_of_load hi
    refine ⟨(load_ok hi).1, ?_, ?_, fun calls c => ⟨?_, fun a ha => settles_after hm hi calls ha⟩⟩
    · obtain ⟨honly, h⟩ | ⟨honly, -, c, h, hc⟩ := hoffer.cases
      · rw [if_pos honly]
        exact prefiltersOnly_of_offer h
      · rw [if_neg honly]
        exact combines_of_offer h hc
    · intro s hs hne
      exact (i.reaches_iff_accessor hne).1 (hoffer.reaches_of_has hs hne)
    · rw [isSome_run, i.offer_after calls]
      by_cases hc : c = .enqueue
      · simp [hc]
      · rw [i.reaches_iff_accessor (stage_ne_enqueue hc)]

/-- A program that exports some stages, among other things and out of order. -/
def jumbledProgram (stages : List Stage) : Program where
  exports := ⟨"helper", .function .unit .leave⟩ :: ⟨"memory", .store .memory⟩ ::
    stages.map fun s => ⟨s.exportName, .function s.signature .leave⟩

/-- A module that exports `postbind` before `bind` is loaded with the stages of this group; without
`bind` it is refused. -/
theorem jumbled_exports_found :
    (∃ m i, (jumbledProgram [.postbind, .bind]).prepare "jumbled" "" = .ok m ∧
      (load m default).1 = .ok i ∧ i.accessors = [.prebind, .bind, .postbind] ∧
      Instantiates m default ∧ i.Settles (.postbind 1 {} "node") .done) ∧
    ∃ m, (jumbledProgram [.postbind, .score]).prepare "jumbled" "" = .ok m ∧
      load m default = (.error (.groups (.missingAnchor .postbind .bind)), []) := by
  constructor
  · have hprepared : (jumbledProgram [.postbind, .bind]).prepare "jumbled" "" = .ok _ := rfl
    obtain ⟨-, hstarts, -, -, -, hloaded⟩ := capabilities_of_prepare hprepared default
    refine ⟨_, _, hprepared, rfl, by decide, ?_, ?_⟩
    · rw [hstarts, StageSet.loadable_iff]
      decide
    · have hsettles := (hloaded _ rfl).2.2.2 [] (.postbind 1 {} "node")
      exact hsettles.2 _ rfl
  · have hprepared : (jumbledProgram [.postbind, .score]).prepare "jumbled" "" = .ok _ := rfl
    obtain ⟨-, -, hrefused, -, -, -⟩ := capabilities_of_prepare hprepared default
    refine ⟨_, hprepared, hrefused ?_⟩
    rw [StageSet.loadable_iff]
    decide

end Interfaces
end StageHost
