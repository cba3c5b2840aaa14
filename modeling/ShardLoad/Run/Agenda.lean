import ShardLoad.Call
import ShardLoad.Entropy.Source
import ShardLoad.Entropy.Weights
import ShardLoad.Shard.Selector

/-!
# What a user is going to call

Which calls a user makes does not depend on how they turn out or on what other
users do.  They follow from the plan that all users share and from the user's own
generator and selector: a step of the mix is chosen, then a shard, then the
request is made up, in this order, all from the same generator.

* `Plan`: what all users share.
* `Agenda.next`: the next call of a user.
-/

namespace ShardLoad

/-- What all users share about their calls. -/
structure Plan where
  /-- The operations of the steps. -/
  operations : List Operation
  /-- The weights of the steps. -/
  weights : Entropy.Weights
  builder : Builder

/-- One call with the endpoint it goes to. -/
structure Assignment where
  endpoint : Endpoint
  call : Call
  deriving Repr, DecidableEq

/-- What the next calls of a user follow from. -/
structure Agenda where
  source : Entropy.Source
  selector : Selector
  deriving Repr, DecidableEq

namespace Agenda

/-- The next call. -/
def next (plan : Plan) (a : Agenda) : Assignment × Agenda :=
  let (step, source) := plan.weights.choose a.source
  let (endpoint, selector, source) := a.selector.pick source
  let (call, source) := plan.builder.build (plan.operations.getD step .transaction) source
  (⟨endpoint, call⟩, ⟨source, selector⟩)

end Agenda
end ShardLoad
