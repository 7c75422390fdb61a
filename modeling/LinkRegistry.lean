import LinkRegistry.Config
import LinkRegistry.Json.Printer
import LinkRegistry.SignatureCheck
import LinkRegistry.View.Records
import LinkRegistry.Proofs.Envelope.Verdict
import LinkRegistry.Proofs.LinkStore.Clearing
import LinkRegistry.Proofs.LinkStore.LateRun
import LinkRegistry.Proofs.LinkStore.Migrated
import LinkRegistry.Proofs.LinkStore.Saving
import LinkRegistry.Proofs.LinkStore.Unmarked
import LinkRegistry.Proofs.Migration.Collisions
import LinkRegistry.Proofs.Migration.Refusals
import LinkRegistry.Proofs.Migration.Repeated
import LinkRegistry.Proofs.Migration.Vacated
import LinkRegistry.Proofs.Store.Backend
import LinkRegistry.Proofs.Binary.Damage
import LinkRegistry.Proofs.Migration.Accounts
import LinkRegistry.Proofs.Address.Belonging
import LinkRegistry.Proofs.Address.Encoded
import LinkRegistry.Proofs.Migration.Damaged
import LinkRegistry.Proofs.Envelope.Selector
import LinkRegistry.Proofs.Json.Rendering
import LinkRegistry.Proofs.View.Fields
import LinkRegistry.Proofs.Proof.LegacyForm
import LinkRegistry.Proofs.View.Describing
import LinkRegistry.Proofs.View.Records
