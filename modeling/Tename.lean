import Tename.Cli.Keyring
import Tename.Harness.Completions
import Tename.Harness.Containers
import Tename.Harness.Extending
import Tename.Harness.Failures
import Tename.Harness.Files
import Tename.Harness.Inheritance
import Tename.Harness.Pace
import Tename.Harness.Reuse
import Tename.Harness.Stopping
import Tename.Harness.Utterances
import Tename.Proxy.Guarantees
import Tename.Router.Pricing
import Tename.Sandbox.Editing
import Tename.Sandbox.Provisioning
import Tename.Sandbox.Service
import Tename.Sdk.SyncSessions
import Tename.Sessions.Emission
import Tename.Sessions.Idempotency
import Tename.Sessions.Linearization
import Tename.Sessions.Readers
import Tename.Sessions.Repeating
import Tename.Vault.AnyFile
import Tename.Vault.Concurrency
import Tename.Vault.Rekeying
