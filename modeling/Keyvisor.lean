import Keyvisor.Foundation.BigEndian
import Keyvisor.Foundation.Reader
import Keyvisor.Core
import Keyvisor.Foundation.Text
import Keyvisor.RecordCodec
import Keyvisor.Protocol
import Keyvisor.KeyStore
import Keyvisor.Foundation.Mutex
import Keyvisor.History
import Keyvisor.Agent
import Keyvisor.Approval
import Keyvisor.Connection
import Keyvisor.Esapi
import Keyvisor.Pending
import Keyvisor.Signature
import Keyvisor.Journal
import Keyvisor.Release
import Keyvisor.Durability
import Keyvisor.Tampering
import Keyvisor.Foundation.Entries
import Keyvisor.Management
import Keyvisor.Revocation
import Keyvisor.Creation
import Keyvisor.Dialogue
import Keyvisor.Exec
import Keyvisor.Selection
import Keyvisor.Configuration
import Keyvisor.ControlInput
import Keyvisor.Foundation.Percent
import Keyvisor.Foundation.Table
import Keyvisor.Guard
import Keyvisor.Identities
import Keyvisor.PinInput
import Keyvisor.PublicKey
import Keyvisor.Tsv
import Keyvisor.Authority
import Keyvisor.Coexistence
import Keyvisor.PinRequest
import Keyvisor.PinSystem
import Keyvisor.ConfigCommands
import Keyvisor.Monitoring
import Keyvisor.SecretEntry
import Keyvisor.AuthorizeCommand
import Keyvisor.KeyCommands
import Keyvisor.KeySession
import Keyvisor.Telling
