/-!
# Chains

From a table to its parent and on to the parent's parent, from a proxy column to the column it
refers to and on from there: both are chains in which each link is found from the one before
it. `follow` walks such a chain until a link answers or fails, and reports the first link that
is met twice, since from there on the chain only repeats itself.

The walk keeps the links that it has not met yet. They grow fewer with every step, so that it
ends; `unseen` must hold every link but the first for the report to be right.
-/

namespace LayeredSchema

/-- What a link of a chain leads to. -/
inductive Link (α β : Type) where
  | stop (answer : β)
  | next (link : α)

/-- Follows a chain from a link, where `unseen` are the links that have not been met. -/
def follow {α β ε : Type} [DecidableEq α] (step : α → Except ε (Link α β))
    (revisited : α → ε) (unseen : List α) (link : α) : Except ε β :=
  match step link with
  | .error e => .error e
  | .ok (.stop answer) => .ok answer
  | .ok (.next other) =>
    if other ∈ unseen then follow step revisited (unseen.erase other) other
    else .error (revisited other)
termination_by unseen.length
decreasing_by
  rename_i h
  have := List.length_erase_of_mem h
  have := List.length_pos_of_mem h
  omega

end LayeredSchema
