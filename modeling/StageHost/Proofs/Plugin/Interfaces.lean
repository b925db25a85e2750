import StageHost.Plugin.Interfaces
import StageHost.Proofs.Group
import StageHost.Proofs.Plugin.Lives
/-
  Stages called one after the other, on a plugin or through its interfaces.
  A call through the interfaces is none at all, or the filter of a guest that exports `prefilter`
  alone, or the call on the plugin (`run_cases`). So what calls through the interfaces make of the
  plugin, some of them made on the plugin make as well (`plugin_after`). `load_ok` has the plugin
  that the interfaces begin with.
-/
namespace StageHost

namespace Plugin

/-- The plugin after some calls. -/
def after (p : Plugin) (calls : List StageCall) : Plugin :=
  calls.foldl (fun p c => (p.run c).2) p

theorem after_append (p : Plugin) (calls more : List StageCall) :
    p.after (calls ++ more) = (p.after calls).after more := List.foldl_append

theorem Reachable.after {p : Plugin} (hp : p.Reachable) (calls : List StageCall) :
    (p.after calls).Reachable := by
  induction calls generalizing p with
  | nil => exact hp
  | cons c calls ih => exact ih (hp.run c)

/-- The first guest is asked if it has a stage for it, and is free again afterwards. -/
theorem askEvents_withFirst (module : Prepared) (config : Config) (g : Guest) :
    (withFirst module config g).askEvents.1 =
        (if module.exports.has .enqueue then
          (g.call .enqueue).1.map (fun _ => ()) |>.mapError LoadError.guest
        else .ok ()) ∧
      (withFirst module config g).askEvents.2.module = module ∧
      ∃ g', (withFirst module config g).askEvents.2.pool =
        { free := [1], nextId := 2, guests := [(1, g')] } := by
  have hborrow : (withFirst module config g).pool.borrow (withFirst module config g).create =
      (.ok 1, { nextId := 2, guests := [(1, g)] }) := rfl
  have hcall : callGuest { withFirst module config g with
      pool := { nextId := 2, guests := [(1, g)] } } 1 .enqueue =
    ((g.call .enqueue).1, { withFirst module config g with
      pool := { nextId := 2, guests := [(1, (g.call .enqueue).2)] } }) := rfl
  unfold askEvents
  by_cases hx : module.exports.has .enqueue
  · have hx' : (withFirst module config g).exports.has .enqueue := hx
    rw [if_pos hx, if_pos hx', hborrow]
    dsimp only
    rw [hcall]
    cases (g.call .enqueue).1 <;> exact ⟨rfl, rfl, _, rfl⟩
  · have hx' : ¬ (withFirst module config g).exports.has .enqueue := hx
    rw [if_neg hx, if_neg hx']
    exact ⟨rfl, rfl, g, rfl⟩

/-- A plugin starts with one guest, which is free. -/
theorem start_ok {module : Prepared} {config : Config} {p : Plugin}
    (h : start module config = (.ok (), p)) : p.module = module ∧
      ∃ g, p.pool = { free := [1], nextId := 2, guests := [(1, g)] } := by
  obtain ⟨g, -, hask⟩ := askEvents_of_start h
  have hafter := (askEvents_withFirst module config g).2
  rw [hask] at hafter
  exact hafter

/-- A plugin that does not start could not make its first guest, or this failed when it was
asked. -/
theorem start_error {module : Prepared} {config : Config} {e : LoadError}
    (h : (start module config).1 = .error e) :
    (∃ reason, e = .instantiate module.name reason) ∨
      ∃ g err, Guest.create module (.ofConfig module.name config) 1 = .ok g ∧
        module.exports.has .enqueue ∧ (g.call .enqueue).1 = .error err ∧ e = .guest err := by
  rw [start_eq] at h
  cases hg : Guest.create module (.ofConfig module.name config) 1 with
  | error err =>
    rw [hg] at h
    cases h
    exact .inl ⟨_, rfl⟩
  | ok g =>
    rw [hg] at h
    have hask := (askEvents_withFirst module config g).1
    dsimp only at h
    rw [h] at hask
    split at hask
    · rename_i hx
      cases hres : (g.call .enqueue).1 with
      | error err =>
        rw [hres] at hask
        cases hask
        exact .inr ⟨g, err, rfl, hx, hres, rfl⟩
      | ok o =>
        rw [hres] at hask
        cases hask
    · cases hask

theorem Reachable.grows_after {p : Plugin} (hp : p.Reachable) (calls : List StageCall) :
    p.Grows (p.after calls) := by
  induction calls generalizing p with
  | nil => exact .refl p
  | cons c calls ih => exact (grows_run hp.pool c).trans (ih (hp.run c))

theorem Reachable.module_after {p : Plugin} (hp : p.Reachable) (calls : List StageCall) :
    (p.after calls).module = p.module := (hp.grows_after calls).module

end Plugin

namespace Interfaces

theorem wrap_eq_some {groups : GroupSet} {plugin : Plugin} {i : Interfaces}
    (h : wrap? groups plugin = some i) :
    Offer.ofGroups? groups = some i.offer ∧ i.plugin = plugin := by
  obtain ⟨o, ho, rfl⟩ := Option.map_eq_some_iff.1 h
  exact ⟨ho, rfl⟩

/-- The interfaces after some calls. -/
def after (i : Interfaces) (calls : List StageCall) : Interfaces :=
  calls.foldl (fun i c => (i.run c).2) i

theorem after_append (i : Interfaces) (calls more : List StageCall) :
    i.after (calls ++ more) = (i.after calls).after more := List.foldl_append

/-- All that a call through the interfaces can be. -/
inductive Runs (i : Interfaces) (c : StageCall) : Prop
  | absent (hn : c ≠ .enqueue) (hr : ¬ i.offer.reaches c.stage) (h : i.run c = (none, i))
  | admitted (ho : i.offer = .prefilterOnly) (hc : c.stage = .filter)
    (h : i.run c = (some (.status .success), i))
  | passed (hr : c = .enqueue ∨ i.offer.reaches c.stage)
    (ho : ¬ (i.offer = .prefilterOnly ∧ c.stage = .filter))
    (h : i.run c = (some (i.plugin.run c).1, { i with plugin := (i.plugin.run c).2 }))

theorem run_of_ne {c : StageCall} (h : c ≠ .enqueue) (i : Interfaces) : i.run c =
    if i.offer.reaches c.stage then
      if i.offer = .prefilterOnly ∧ c.stage = .filter then (some (.status .success), i)
      else (some (i.plugin.run c).1, { i with plugin := (i.plugin.run c).2 })
    else (none, i) := by
  cases c with
  | enqueue => exact absurd rfl h
  | _ => rfl

theorem run_cases (i : Interfaces) (c : StageCall) : i.Runs c := by
  by_cases hn : c = .enqueue
  · subst hn
    exact .passed (.inl rfl) (by rintro ⟨-, h⟩; cases h) rfl
  · have hrun := run_of_ne hn i
    by_cases hr : i.offer.reaches c.stage
    · rw [if_pos hr] at hrun
      by_cases ho : i.offer = .prefilterOnly ∧ c.stage = .filter
      · rw [if_pos ho] at hrun
        exact .admitted ho.1 ho.2 hrun
      · rw [if_neg ho] at hrun
        exact .passed (.inr hr) ho hrun
    · rw [if_neg hr] at hrun
      exact .absent hn hr hrun

theorem offer_run (i : Interfaces) (c : StageCall) : (i.run c).2.offer = i.offer := by
  cases i.run_cases c with
  | absent _ _ h | admitted _ _ h | passed _ _ h => rw [h]

theorem offer_after (i : Interfaces) (calls : List StageCall) :
    (i.after calls).offer = i.offer := by
  induction calls generalizing i with
  | nil => rfl
  | cons c calls ih => exact (ih (i.run c).2).trans (i.offer_run c)

/-- The plugin behind the interfaces is as if only some of the calls had been made, directly. -/
theorem plugin_after (i : Interfaces) (calls : List StageCall) :
    ∃ passed : List StageCall, passed.Sublist calls ∧
      (i.after calls).plugin = i.plugin.after passed := by
  induction calls generalizing i with
  | nil => exact ⟨[], .refl _, rfl⟩
  | cons c calls ih =>
    obtain ⟨passed, hsub, hplugin⟩ := ih (i.run c).2
    cases i.run_cases c with
    | absent _ _ h | admitted _ _ h =>
      rw [h] at hplugin
      refine ⟨passed, hsub.cons c, ?_⟩
      rw [← hplugin, after, List.foldl_cons, h]
      rfl
    | passed _ _ h =>
      rw [h] at hplugin
      refine ⟨c :: passed, hsub.cons_cons c, ?_⟩
      have hstep : i.plugin.after (c :: passed) = (i.plugin.run c).2.after passed := rfl
      rw [hstep, ← hplugin, after, List.foldl_cons, h]
      rfl

/-! ## Loading -/

/-- Loading with an offer goes on to start the plugin. -/
theorem load_of_groups {module : Prepared} {groups : GroupSet}
    (h : module.exports.groups = .ok groups) (config : Config) :
    (load module config).1.map Interfaces.plugin =
        (Plugin.start module config).1.map (fun _ => (Plugin.start module config).2.takeRecords.2) ∧
      (load module config).2 = (Plugin.start module config).2.takeRecords.1 := by
  unfold load
  split
  · rename_i e he
    rw [h] at he
    cases he
  · rename_i groups' hgroups
    rcases Plugin.start module config with ⟨_ | _, p⟩
    · exact ⟨rfl, rfl⟩
    · obtain ⟨i, hi⟩ := Option.isSome_iff_exists.1 (isSome_wrap_of_groups hgroups p.takeRecords.2)
      refine ⟨?_, rfl⟩
      dsimp only [Except.map]
      rw [Option.get_of_eq_some _ hi, (wrap_eq_some hi).2]

/-- Without an offer no guest is made. -/
theorem load_of_error {module : Prepared} {e : GroupError} (h : module.exports.groups = .error e)
    (config : Config) : load module config = (.error (.groups e), []) := by
  unfold load
  split
  · rename_i e' he
    rw [h] at he
    cases he
    rfl
  · rename_i groups hg
    rw [h] at hg
    cases hg

/-- The interfaces that loading gives are the plugin behind the offer of its groups. -/
theorem load_ok {module : Prepared} {config : Config} {i : Interfaces}
    (h : (load module config).1 = .ok i) :
    (∃ groups, module.exports.groups = .ok groups ∧ wrap? groups i.plugin = some i) ∧
      ∃ p, Plugin.start module config = (.ok (), p) ∧ i.plugin = p.takeRecords.2 := by
  unfold load at h
  split at h
  · cases h
  · rename_i groups hgroups
    rcases hs : Plugin.start module config with ⟨e | _, p⟩ <;> rw [hs] at h
    · cases h
    · have hwrap : wrap? groups p.takeRecords.2 = some i := by
        cases h
        exact (Option.some_get _).symm
      have hplugin := (wrap_eq_some hwrap).2
      exact ⟨⟨groups, hgroups, hplugin ▸ hwrap⟩, p, rfl, hplugin⟩

theorem offers_of_load {module : Prepared} {config : Config} {i : Interfaces}
    (h : (load module config).1 = .ok i) : module.exports.Offers i.offer := by
  obtain ⟨⟨groups, hgroups, hwrap⟩, -⟩ := load_ok h
  exact ⟨groups, hgroups, (wrap_eq_some hwrap).1⟩

/-- The pool that the interfaces begin with. -/
theorem pool_of_load {module : Prepared} {config : Config} {i : Interfaces}
    (h : (load module config).1 = .ok i) :
    ∃ g, i.plugin.pool = { free := [1], nextId := 2, guests := [(1, g)] } := by
  obtain ⟨-, p, hstart, hplugin⟩ := load_ok h
  obtain ⟨-, g, hpool⟩ := Plugin.start_ok hstart
  refine ⟨g.takeTranscript.2, ?_⟩
  rw [hplugin]
  unfold Plugin.takeRecords
  rw [hpool]
  rfl

/-- What loading gives, and what calls keep of it. -/
theorem reachable_after {m : Prepared} {config : Config} {i : Interfaces}
    (h : (load m config).1 = .ok i) (calls : List StageCall) :
    (i.after calls).plugin.Reachable ∧ (i.after calls).plugin.module = m ∧
      m.exports.Offers (i.after calls).offer := by
  obtain ⟨-, p, hstart, hplugin⟩ := load_ok h
  have hreach : i.plugin.Reachable := hplugin ▸ (Plugin.Reachable.start hstart).takeRecords
  have hmodule : i.plugin.module = m := by
    rw [hplugin]
    exact (Plugin.start_ok hstart).1
  obtain ⟨passed, -, hpassed⟩ := i.plugin_after calls
  rw [hpassed, i.offer_after calls]
  exact ⟨hreach.after passed, (hreach.module_after passed).trans hmodule, offers_of_load h⟩

end Interfaces

end StageHost
