import PubSub.Registry.Basic
/-!
# Calls on a registry

Callers declare topics and clear the registry. A refused declaration leaves the registry as it was. The registries
that a run of calls leads to are all there are.
-/
namespace PubSub

inductive Call
  | register (d : Declaration)
  | clear

namespace Registry

/-- The topic that a call declares, or what refused it, and the registry afterwards. -/
def call (r : Registry) : Call → Except ConfigError (Option TopicKey) × Registry
  | .register d =>
    match r.register d with
    | .ok (key, r) => (.ok (some key), r)
    | .error error => (.error error, r)
  | .clear => (.ok none, empty)

/-- The registry after some calls, one after another. -/
def callAll (r : Registry) (cs : List Call) : Registry := cs.foldl (fun r c => (r.call c).2) r

end Registry

end PubSub
