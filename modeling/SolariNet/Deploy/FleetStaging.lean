/-
# The newest staging wins

`prov-stage.py` opens its run, cancels every other open run of the machine, and takes the lock of
the MAC some time later.  It does not look at its own run again before it starts
`fleet-provision.sh`, and it cancels newer runs as well as older ones.

    staging of run 1          staging of run 2
    opens run 1
                              opens run 2, cancels run 1
                              lock, boot profile of run 2, unlock
    lock, boot profile of run 1, unlock
-/
import SolariNet.Deploy.FleetProfiles

namespace SolariNet.Fleet

open Lib Lib.Prog

variable {ι : Type} [DecidableEq ι]

set_option maxRecDepth 20000

end SolariNet.Fleet
