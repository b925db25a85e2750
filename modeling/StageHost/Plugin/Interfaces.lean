import StageHost.Plugin.Basic
/-
  A plugin behind the interfaces of what its guest offers.
-/
namespace StageHost

structure Interfaces where
  offer : Offer
  plugin : Plugin

namespace Interfaces

/-- Puts a plugin behind the offer of some groups. There is none of no group, nor of `prefilter`
alone together with groups. -/
def wrap? (groups : GroupSet) (plugin : Plugin) : Option Interfaces :=
  (Offer.ofGroups? groups).map fun offer => { offer, plugin }

/-- The complaint about groups that there is no offer of. -/
def wrapMessage (groups : GroupSet) : String := "no interface group for " ++ groups.text

theorem isSome_wrap_of_groups {s : StageSet} {groups : GroupSet} (h : s.groups = .ok groups)
    (plugin : Plugin) : (wrap? groups plugin).isSome := by
  rw [wrap?, Option.isSome_map]
  exact StageSet.isSome_offer_of_groups h

/-- The name of the offer. -/
def kind (i : Interfaces) : String := i.offer.name

/-- The interfaces as descriptions show them. -/
def text (i : Interfaces) : String :=
  "Interfaces \x7b kind: " ++ Quoted.quote i.kind ++ ", plugin: " ++ Quoted.quote i.plugin.name
    ++ " \x7d"

/-- All interfaces. -/
def interfaceStages : List Stage :=
  [.prefilter, .filter, .postfilter, .prescore, .score, .reserve, .permit, .prebind, .bind,
   .postbind]

/-- The interfaces present. -/
def accessors (i : Interfaces) : List Stage := interfaceStages.filter i.offer.shows

/-- Calls a stage, if its interface is present. A guest that exports `prefilter` alone gets a filter
that admits every node. -/
def run (i : Interfaces) (c : StageCall) : Option StageAnswer × Interfaces :=
  match c with
  | .enqueue => (some (.events i.plugin.events), i)
  | c =>
    if i.offer.reaches c.stage then
      if i.offer = .prefilterOnly ∧ c.stage = .filter then (some (.status .success), i)
      else
        let (answer, plugin) := i.plugin.run c
        (some answer, { i with plugin })
    else (none, i)

/-! ## Loading -/

/-- Puts a plugin behind the groups that its guest offers. -/
def resolve (plugin : Plugin) : Except GroupError Interfaces :=
  match h : plugin.exports.groups with
  | .error e => .error e
  | .ok groups => .ok ((wrap? groups plugin).get (isSome_wrap_of_groups h plugin))

/-- The plugin of a prepared module behind its groups, and the log records until then. A module
without an offer is refused before any guest is made. -/
def load (module : Prepared) (config : Config) : Except LoadError Interfaces × List LogRecord :=
  match h : module.exports.groups with
  | .error e => (.error (.groups e), [])
  | .ok groups =>
    let (result, plugin) := Plugin.start module config
    let (records, plugin) := plugin.takeRecords
    match result with
    | .ok _ => (.ok ((wrap? groups plugin).get (isSome_wrap_of_groups h plugin)), records)
    | .error e => (.error e, records)

end Interfaces
end StageHost
