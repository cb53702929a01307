import QsBitwarden.Agent.Conservation
import QsBitwarden.Agent.ControlInput
import QsBitwarden.Agent.Frames
import QsBitwarden.Agent.Guarantees
import QsBitwarden.Agent.KeyEncoding
import QsBitwarden.Agent.Listing
import QsBitwarden.Agent.Payload
import QsBitwarden.Agent.SignData
import QsBitwarden.Agent.Waiting
import QsBitwarden.Panel.Commands
import QsBitwarden.Panel.FileNames
import QsBitwarden.Panel.Freshness
import QsBitwarden.Panel.ItemFilter
import QsBitwarden.Panel.ItemSearch
import QsBitwarden.Panel.ItemSecrets
import QsBitwarden.Panel.LoadEpochs
import QsBitwarden.Panel.MaskedField
import QsBitwarden.Panel.SecretBits
import QsBitwarden.Panel.SessionToken
import QsBitwarden.Panel.SshWaiting
import QsBitwarden.Runs.VaultProcess
import QsBitwarden.UnlockKey.Binding
import QsBitwarden.Vault.Isolation
import QsBitwarden.Vault.Pinentry
import QsBitwarden.Vault.Signals
