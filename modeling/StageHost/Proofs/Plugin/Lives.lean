import StageHost.Proofs.Guest.Life
import StageHost.Proofs.Plugin.Guests
/-
  The guests of a plugin have a past that begins with their making.
  Every guest in the pool was made of the plugin's module, and since then only stages were called on
  it and its transcript was taken (`Reachable.lived`). `Readies` has the plugin as a stage is called
  on a guest: the guests are those from before and some that were just made.
-/
namespace StageHost
namespace Plugin

/-- The plugin as a stage is called on a guest: the same up to what is recorded and to guests just
made. -/
structure Readies (p : Plugin) (id : Nat) (q : Plugin) : Prop where
  pool : q.pool.Reachable CreationError
  module : q.module = p.module
  settings : q.settings = p.settings
  guests : ∃ new, q.pool.guests = new ++ p.pool.guests ∧ ∀ e ∈ new, p.create e.1 = .ok e.2
  there : id ∈ q.pool.ids

theorem readies_schedule {p : Plugin} (hp : p.pool.Reachable CreationError) {cycle : UInt64}
    {pod : Pod} {id : Nat} (h : (p.pool.schedule p.create cycle pod.uid).1.toOption = some id)
    (c : StageCall) : ∃ q, p.Readies id q ∧ p.onSchedulingGuest cycle pod c = q.onGuest id c := by
  have hready := hp.step (.schedule p.create cycle pod.uid)
  have hguests := Pool.guests_schedule p.pool p.create cycle pod.uid
  have hthere := Pool.mem_ids_of_gives hp (.schedule p.create cycle pod.uid) h
  unfold onSchedulingGuest
  rw [Pool.step] at hready hthere
  rcases hs : p.pool.schedule p.create cycle pod.uid with ⟨e | i, pool⟩ <;>
    rw [hs] at h hready hguests hthere <;> cases h
  refine ⟨_, ?_, rfl⟩
  dsimp only at hready hguests hthere ⊢
  by_cases hr : p.retainsWhileScheduling
  · rw [if_pos hr]
    have hids : (pool.retain cycle .tentative).guests = pool.guests := guests_retain _ _ _
    refine ⟨hready.step (.retain cycle .tentative), rfl, rfl, ?_, ?_⟩
    · rw [hids]
      exact hguests
    · rw [Pool.ids, hids]
      exact hthere
  · rw [if_neg hr]
    exact ⟨hready, rfl, rfl, hguests, hthere⟩

/-- The guest of a binding cycle, unless there is none for it. -/
def bindingGuest? (p : Plugin) (pod : Pod) : Option Nat :=
  match p.pool.claim pod.uid with
  | (.held id, _) => some id
  | (.reclaimed, _) => none
  | (.unscheduled, pool) => (pool.detach p.create pod.uid).1.toOption

theorem readies_binding {p : Plugin} (hp : p.pool.Reachable CreationError) {pod : Pod} {id : Nat}
    (h : p.bindingGuest? pod = some id) (c : StageCall) :
    ∃ q, p.Readies id q ∧ p.onBindingGuest pod c = q.onGuest id c := by
  have hready : (p.pool.claim pod.uid).2.Reachable CreationError := hp.step (.claim pod.uid)
  have hsame : (p.pool.claim pod.uid).2.guests = p.pool.guests :=
    congrArg Prod.fst (Pool.roster_claim p.pool pod.uid)
  have hthere : ∀ id, (p.pool.claim pod.uid).1.guest? = some id →
      id ∈ (p.pool.claim pod.uid).2.ids := fun id hid =>
    Pool.mem_ids_of_gives hp (.claim pod.uid) hid
  unfold bindingGuest? at h
  unfold onBindingGuest
  rcases hs : p.pool.claim pod.uid with ⟨i | _ | _, pool⟩ <;> rw [hs] at h hready hsame hthere
  · cases h
    exact ⟨{ p with pool },
      ⟨hready, rfl, rfl, ⟨[], hsame, fun _ he => by cases he⟩, hthere _ rfl⟩, rfl⟩
  · cases h
  · dsimp only at h hready hsame ⊢
    have hready' := hready.step (.detach p.create pod.uid)
    have hguests := Pool.guests_detach pool p.create pod.uid
    have hmade := Pool.mem_ids_of_gives hready (.detach p.create pod.uid) h
    rw [Pool.step] at hready' hmade
    rw [hsame] at hguests
    rcases hd : pool.detach p.create pod.uid with ⟨e | i, pool'⟩ <;>
      rw [hd] at h hready' hguests hmade <;> cases h
    exact ⟨{ p with pool := pool' }, ⟨hready', rfl, rfl, hguests, hmade⟩, rfl⟩

/-- A guest as a call finds it: one of the pool, or one that is made for the call. -/
def met? (p : Plugin) (id : Nat) : Option Guest := (p.pool.guest? id).or (p.create id).toOption

theorem mem_of_guest {p : Pool Guest} {id : Nat} {guest : Guest} (h : p.guest? id = some guest) :
    (id, guest) ∈ p.guests := by
  obtain ⟨l, r, hsplit, -⟩ := List.lookup_eq_some_iff.1 h
  rw [hsplit]
  exact List.mem_append_right _ List.mem_cons_self

theorem guest_of_mem_ids {p : Pool Guest} {id : Nat} (h : id ∈ p.ids) :
    ∃ guest, p.guest? id = some guest := by
  obtain ⟨e, he, rfl⟩ := List.mem_map.1 h
  refine Option.ne_none_iff_exists'.1 fun hnone => ?_
  simpa using List.lookup_eq_none_iff.1 hnone e he

theorem Readies.met {p q : Plugin} {id : Nat} (h : p.Readies id q) :
    ∃ guest, q.pool.guest? id = some guest ∧ p.met? id = some guest := by
  obtain ⟨new, hq, hmade⟩ := h.guests
  obtain ⟨guest, hguest⟩ := guest_of_mem_ids h.there
  refine ⟨guest, hguest, ?_⟩
  have hlookup : q.pool.guest? id = (new.lookup id).or (p.pool.guest? id) := by
    rw [Pool.guest?, hq, List.lookup_append]
    rfl
  rw [hguest] at hlookup
  unfold met?
  cases hold : p.pool.guest? id with
  | some g =>
    -- numbers are not used twice, so the guest is not a new one
    have hnodup := nodup_ids h.pool.accounts
    rw [Pool.ids, hq, List.map_append] at hnodup
    have hnew : new.lookup id = none := by
      refine List.lookup_eq_none_iff.2 fun e he => ?_
      have hne := (List.nodup_append.1 hnodup).2.2 e.1 (List.mem_map_of_mem he) id
        (List.mem_map_of_mem (mem_of_guest hold))
      simpa using Ne.symm hne
    rw [hlookup, hnew, hold]
    rfl
  | none =>
    rw [hold, Option.or_none] at hlookup
    obtain ⟨l, r, hsplit, -⟩ := List.lookup_eq_some_iff.1 hlookup.symm
    have hm : (id, guest) ∈ new := by simp [hsplit]
    rw [hmade _ hm]
    rfl

/-! ## Pasts -/

/-- Whether every guest was made of the plugin's module, and has only been used since. -/
def Tended (p : Plugin) : Prop :=
  ∀ e ∈ p.pool.guests, Guest.Lived p.module p.settings e.1 e.2

/-- Guests just made have a past like the others. -/
theorem Tended.of_new {p q : Plugin} (h : p.Tended) (hmodule : q.module = p.module)
    (hsettings : q.settings = p.settings)
    (hguests : ∃ new, q.pool.guests = new ++ p.pool.guests ∧
      ∀ e ∈ new, p.create e.1 = .ok e.2) : q.Tended := by
  obtain ⟨new, hq, hmade⟩ := hguests
  intro e he
  rw [hq, List.mem_append] at he
  rw [hmodule, hsettings]
  rcases he with he | he
  · exact Guest.lived_of_create (hmade e he)
  · exact h e he

theorem Tended.of_guests {p q : Plugin} (h : p.Tended) (hmodule : q.module = p.module)
    (hsettings : q.settings = p.settings) (hguests : q.pool.guests = p.pool.guests) : q.Tended :=
  h.of_new hmodule hsettings ⟨[], hguests, fun _ he => by cases he⟩

/-- A call is a use of the guest. -/
theorem Tended.callGuest {p : Plugin} (h : p.Tended) (hids : p.pool.ids.Nodup) (id : Nat)
    (c : StageCall) : (p.callGuest id c).2.Tended := by
  rw [callGuest_snd hids]
  intro e he
  obtain ⟨e', he', rfl⟩ := List.mem_map.1 he
  by_cases hid : e'.1 = id
  · rw [if_pos hid]
    exact (h e' he').use (.call c)
  · rw [if_neg hid]
    exact h e' he'

theorem Tended.onSchedulingGuest {p : Plugin} (h : p.Tended) (hp : p.pool.Reachable CreationError)
    (cycle : UInt64) (pod : Pod) (c : StageCall) : (p.onSchedulingGuest cycle pod c).2.Tended := by
  have hguests := Pool.guests_schedule p.pool p.create cycle pod.uid
  cases hs : (p.pool.schedule p.create cycle pod.uid).1.toOption with
  | some id =>
    obtain ⟨q, hready, hcall⟩ := readies_schedule hp hs c
    rw [hcall, onGuest_snd]
    exact (h.of_new hready.module hready.settings hready.guests).callGuest
      (nodup_ids hready.pool.accounts) id c
  | none =>
    unfold Plugin.onSchedulingGuest
    rcases hr : p.pool.schedule p.create cycle pod.uid with ⟨e | id, pool⟩ <;> rw [hr] at hs hguests
    · exact h.of_new rfl rfl hguests
    · cases hs

theorem Tended.onBindingGuest {p : Plugin} (h : p.Tended) (hp : p.pool.Reachable CreationError)
    (pod : Pod) (c : StageCall) : (p.onBindingGuest pod c).2.Tended := by
  have hsame : (p.pool.claim pod.uid).2.guests = p.pool.guests :=
    congrArg Prod.fst (Pool.roster_claim p.pool pod.uid)
  cases hs : p.bindingGuest? pod with
  | some id =>
    obtain ⟨q, hready, hcall⟩ := readies_binding hp hs c
    rw [hcall, onGuest_snd]
    exact (h.of_new hready.module hready.settings hready.guests).callGuest
      (nodup_ids hready.pool.accounts) id c
  | none =>
    unfold bindingGuest? at hs
    unfold Plugin.onBindingGuest
    rcases hr : p.pool.claim pod.uid with ⟨id | _ | _, pool⟩ <;> rw [hr] at hs hsame
    · cases hs
    · exact h.of_guests rfl rfl hsame
    · have hguests := Pool.guests_detach pool p.create pod.uid
      dsimp only at hs hsame ⊢
      rw [hsame] at hguests
      rcases hd : pool.detach p.create pod.uid with ⟨e | id, pool'⟩ <;> rw [hd] at hs hguests
      · exact h.of_new rfl rfl hguests
      · cases hs

theorem Tended.run {p : Plugin} (h : p.Tended) (hp : p.pool.Reachable CreationError)
    (c : StageCall) : (p.run c).2.Tended := by
  cases turn_run p c with
  | passed _ ha => exact h.of_guests ha.module ha.settings ha.guests
  | scheduled _ _ ha =>
    exact (h.onSchedulingGuest hp _ _ c).of_guests ha.module ha.settings ha.guests
  | bound _ _ ha => exact (h.onBindingGuest hp _ c).of_guests ha.module ha.settings ha.guests

theorem tended_askEvents {p : Plugin} (h : p.Tended) (hp : p.pool.Reachable CreationError) :
    p.askEvents.2.Tended := by
  have hborrow := hp.accounts.borrow p.create
  have hguests := Pool.guests_borrow p.pool p.create
  unfold askEvents
  split
  · rcases hb : p.pool.borrow p.create with ⟨e | id, pool⟩ <;> rw [hb] at hborrow hguests
    · exact h.of_new rfl rfl hguests
    · have hcall := Tended.callGuest (p := { p with pool }) (h.of_new rfl rfl hguests)
        (nodup_ids hborrow) id .enqueue
      dsimp only
      rcases hc : Plugin.callGuest { p with pool } id .enqueue with ⟨e | o, q⟩ <;>
        rw [hc] at hcall <;> exact hcall
  · exact h

/-- A plugin with nothing but its first guest. -/
def withFirst (module : Prepared) (config : Config) (g : Guest) : Plugin where
  module := module
  settings := .ofConfig module.name config
  pool := { free := [1], nextId := 2, guests := [(1, g)] }

/-- A plugin starts by making a guest and asking it for the events. -/
theorem start_eq (module : Prepared) (config : Config) :
    start module config =
      match Guest.create module (.ofConfig module.name config) 1 with
      | .ok g => (withFirst module config g).askEvents
      | .error e => (.error (.instantiate module.name e.message),
          { module, settings := .ofConfig module.name config, pool := { nextId := 2 },
            lost := e.transcript }) := by
  unfold start Pool.prewarm Pool.make Plugin.create
  dsimp only [Pool.takeId]
  cases Guest.create module (.ofConfig module.name config) 1 <;> rfl

/-- A plugin that started has made a guest and asked it. -/
theorem askEvents_of_start {module : Prepared} {config : Config} {p : Plugin}
    (h : start module config = (.ok (), p)) :
    ∃ g, Guest.create module (.ofConfig module.name config) 1 = .ok g ∧
      (withFirst module config g).askEvents = (.ok (), p) := by
  rw [start_eq] at h
  cases hc : Guest.create module (.ofConfig module.name config) 1 with
  | error e =>
    rw [hc] at h
    cases h
  | ok g =>
    rw [hc] at h
    exact ⟨g, rfl, h⟩

theorem reachable_withFirst (module : Prepared) (config : Config) (g : Guest) :
    (withFirst module config g).pool.Reachable CreationError :=
  ⟨[.prewarm fun _ => .ok g], rfl⟩

theorem tended_withFirst {module : Prepared} {config : Config} {g : Guest}
    (h : Guest.create module (.ofConfig module.name config) 1 = .ok g) :
    (withFirst module config g).Tended := by
  intro e he
  obtain rfl := List.mem_singleton.1 he
  exact Guest.lived_of_create h

/-- Every guest of a plugin was made of its module, and since then only stages were called on it
and its transcript was taken. -/
theorem Reachable.lived {p : Plugin} (hp : p.Reachable) : p.Tended := by
  induction hp with
  | start h =>
    obtain ⟨g, hg, hask⟩ := askEvents_of_start h
    have htended := tended_askEvents (tended_withFirst hg) (reachable_withFirst _ _ g)
    rw [hask] at htended
    exact htended
  | run hp c ih => exact ih.run hp.pool c
  | takeRecords _ ih =>
    intro e he
    obtain ⟨e', he', rfl⟩ := List.mem_map.1 he
    exact (ih e' he').use .takeTranscript

/-- The guest that a call meets has a past too. -/
theorem lived_of_met {p : Plugin} (hp : p.Reachable) {id : Nat} {guest : Guest}
    (h : p.met? id = some guest) : Guest.Lived p.module p.settings id guest := by
  unfold met? at h
  cases hold : p.pool.guest? id with
  | some g =>
    rw [hold] at h
    cases h
    exact hp.lived _ (mem_of_guest hold)
  | none =>
    rw [hold, Option.none_or] at h
    refine Guest.lived_of_create ?_
    rcases hc : p.create id with e | g <;> rw [hc] at h <;> cases h
    exact hc

end Plugin
end StageHost
