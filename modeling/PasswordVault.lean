import PasswordVault.Crypto.Gcm
import PasswordVault.Crypto.Pbkdf2
import PasswordVault.Envelope.Armor
import PasswordVault.Failure.Account
import PasswordVault.Padding
import PasswordVault.Proofs.Argument.Secrets
import PasswordVault.Proofs.Crypto.Gcm
import PasswordVault.Proofs.Envelope.Armor
import PasswordVault.Proofs.Envelope.Layout
import PasswordVault.Proofs.Octets.Bits
import PasswordVault.Proofs.Padding
import PasswordVault.Proofs.SecretKey.Live
import PasswordVault.Proofs.StoredPassword.Decoding
import PasswordVault.Proofs.StoredPassword.Locking
import PasswordVault.Proofs.StoredPassword.RoundTrip
import PasswordVault.Proofs.Suite.Faithful
import PasswordVault.Proofs.Text.Base64.Grammar
import PasswordVault.Proofs.Text.Coding
import PasswordVault.Proofs.Vault.Runs
import PasswordVault.Release
import PasswordVault.SecretKey
import PasswordVault.Session
import PasswordVault.StoredPassword
import PasswordVault.Suite.Scripted
import PasswordVault.TextPassword
import PasswordVault.Wiping
import PasswordVault.Proofs.SecretKey.Holding
import PasswordVault.Proofs.SecretKey.Generation
import PasswordVault.Proofs.Suite.Sealing
import PasswordVault.Proofs.SecretKey.Spending
import PasswordVault.Proofs.StoredPassword.Tampering
import PasswordVault.Proofs.StoredPassword.Canonical
import PasswordVault.Proofs.StoredPassword.KeyReuse
import PasswordVault.Proofs.SecretKey.Derivation
import PasswordVault.Proofs.StoredPassword.Dialogues
import PasswordVault.Proofs.StoredPassword.Protocol
import PasswordVault.Proofs.StoredPassword.WrongTypes
import PasswordVault.Proofs.Suite.Discretion
import PasswordVault.Proofs.StoredPassword.Discretion
import PasswordVault.Proofs.SecretKey.Ending
import PasswordVault.Proofs.Session.Commands
import PasswordVault.Proofs.Session.Paths
import PasswordVault.Proofs.Session.KeyLife
import PasswordVault.Proofs.SecretKey.Growth
import PasswordVault.Proofs.StoredPassword.Growth
import PasswordVault.Proofs.Session.Frame
import PasswordVault.Proofs.Session.Routes
import PasswordVault.Proofs.Session.Destruction
import PasswordVault.Proofs.Session.Isolation
import PasswordVault.Proofs.StoredPassword.Naming
import PasswordVault.Proofs.StoredPassword.Resolving
import PasswordVault.Proofs.StoredPassword.Producing
import PasswordVault.Proofs.Vault.Keeping
import PasswordVault.Proofs.Session.Iterations
import PasswordVault.Proofs.Suite.Primitives
import PasswordVault.Proofs.TextPassword.Confinement
import PasswordVault.Proofs.SecretKey.Clearing
import PasswordVault.Proofs.StoredPassword.Clearing
import PasswordVault.Proofs.Text.Hexadecimal.Grammar
import PasswordVault.Proofs.StoredPassword.Blocks
import PasswordVault.Proofs.StoredPassword.Equality
import PasswordVault.Proofs.StoredPassword.Spelling
import PasswordVault.Proofs.StoredPassword.Lengths
