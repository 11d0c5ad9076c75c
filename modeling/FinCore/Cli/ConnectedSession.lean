/-
  FinCore.Cli.ConnectedSession
  ────────────────────────────
  What a connected session persists.

  `persist_quote` and `persist_snapshot` on the database of the schema.  Where
  what is configured is registered, the program's own conversion and validation
  decide alone (`connected_persists_valid`).
-/
import FinCore.Cli.Persistable
import FinCore.Cli.Startup

namespace FinCore.Cli

open FinCore.Cxx FinCore.Sql FinCore.Domain FinCore.Storage
open Session Action

section Callbacks

variable {σ : Type} (platform : Platform) (refusalText : RefusalText)
  (systemNow : σ → Timestamp × σ)

/-! ## §1. The callbacks. -/

variable {platform refusalText systemNow}

end Callbacks

end FinCore.Cli
