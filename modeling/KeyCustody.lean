import KeyCustody.Octets
import KeyCustody.Text.Hex
import KeyCustody.Text.Base64
import KeyCustody.Hash.Block
import KeyCustody.Hash.Sha1
import KeyCustody.Hash.Sha2
import KeyCustody.Hash.Sha256
import KeyCustody.Hash.Sha512
import KeyCustody.Hash.Digest
import KeyCustody.Hash.Hmac
import KeyCustody.Cipher.Aes
import KeyCustody.Cipher.KeyWrap
import KeyCustody.Modular
import KeyCustody.Der.Element
import KeyCustody.Der.Identifier
import KeyCustody.Der.KeyDocument
import KeyCustody.Pem
import KeyCustody.Rsa.Key
import KeyCustody.Rsa.Padding
import KeyCustody.Rsa.Operations
import KeyCustody.Residue
import KeyCustody.P256.Curve
import KeyCustody.P256.Key
import KeyCustody.P256.Signature
import KeyCustody.Ed25519.Curve
import KeyCustody.Ed25519.Key
import KeyCustody.Text.Visible
import KeyCustody.Text.Quoted
import KeyCustody.Text.Record
import KeyCustody.Text.TimeSpan
import KeyCustody.KmsType
import KeyCustody.CryptoError
import KeyCustody.Package
import KeyCustody.ArmoredKey
import KeyCustody.SignatureAlgorithm
import KeyCustody.KeyError
import KeyCustody.PrivateKey
import KeyCustody.Remote.Dialogue
import KeyCustody.Engine.Signer
import KeyCustody.Engine.InProcess
import KeyCustody.Remote.Aws
import KeyCustody.Remote.ResourceName
import KeyCustody.Remote.Gcp
import KeyCustody.Engine.Registry
import KeyCustody.Number.Binary64
import KeyCustody.Poll
import KeyCustody.Import
import KeyCustody.Session
import KeyCustody.Text.Segments
import KeyCustody.Text.Whitespace
import KeyCustody.Text.JsonString
import KeyCustody.Files.Path
import KeyCustody.Files.Tree
import KeyCustody.Text.Reader
import KeyCustody.Settings.Value
import KeyCustody.Toml.Number
import KeyCustody.Toml.Text
import KeyCustody.Toml.Table
import KeyCustody.Toml.Document
import KeyCustody.Settings.Variable
import KeyCustody.Settings.Layer
import KeyCustody.Command.Failure
import KeyCustody.Settings
import KeyCustody.Command.Host
import KeyCustody.Command.Sign
import KeyCustody.Command.Wrap
import KeyCustody.Command.Info
import KeyCustody.Command.Arguments
import KeyCustody.Command.Program
import KeyCustody.Main
import KeyCustody.Proofs.Cipher.Aes
import KeyCustody.Proofs.Cipher.Lock
import KeyCustody.Proofs.Octets
import KeyCustody.Proofs.Cipher.KeyWrap
import KeyCustody.Proofs.Modular
import KeyCustody.Proofs.Rsa.Permutation
import KeyCustody.Proofs.Rsa.FixedSignature
import KeyCustody.Proofs.Der.Element
import KeyCustody.Proofs.Der.KeyDocument
import KeyCustody.Proofs.Rsa.Encryption
import KeyCustody.Proofs.Rsa.KeyDocument
import KeyCustody.Proofs.Rsa.SaltedSignature
import KeyCustody.Proofs.Package
import KeyCustody.Proofs.Primality
import KeyCustody.Proofs.Residue
import KeyCustody.Proofs.Doubling
import KeyCustody.Proofs.P256.Field
import KeyCustody.Proofs.P256.Group
import KeyCustody.Proofs.P256.Weighted
import KeyCustody.Proofs.P256.KeyDocument
import KeyCustody.Proofs.P256.Signature
import KeyCustody.Proofs.Edwards
import KeyCustody.Proofs.Ed25519.Field
import KeyCustody.Proofs.Ed25519.Group
import KeyCustody.Proofs.Ed25519.Homogeneous
import KeyCustody.Proofs.Ed25519.Encoding
import KeyCustody.Proofs.Ed25519.KeyDocument
import KeyCustody.Proofs.Ed25519.Signature
import KeyCustody.Proofs.PrivateKey
import KeyCustody.Proofs.Text.Base64
import KeyCustody.Proofs.Pem.Lines
import KeyCustody.Proofs.Pem.Document
import KeyCustody.Proofs.Text.Utf8
import KeyCustody.Proofs.ArmoredKey
import KeyCustody.Proofs.Host
import KeyCustody.Proofs.KeyFile
import KeyCustody.Proofs.ExportedKey
import KeyCustody.Proofs.Engine.Registry
import KeyCustody.Proofs.Session
import KeyCustody.Proofs.Text.Segments
import KeyCustody.Proofs.Remote.ResourceName
import KeyCustody.Proofs.Remote.Signing
import KeyCustody.Proofs.Remote.Wire
import KeyCustody.Proofs.Remote.Interleaving
import KeyCustody.Proofs.Association
import KeyCustody.Proofs.Files.Path
import KeyCustody.Proofs.Files.Tree
import KeyCustody.Proofs.Command.Wrap
import KeyCustody.Proofs.Command.Sign
import KeyCustody.Proofs.Command.Output
import KeyCustody.Proofs.Command.Contact
import KeyCustody.Proofs.Poll
import KeyCustody.Proofs.Text.Whitespace
import KeyCustody.Proofs.Settings.Layer
import KeyCustody.Proofs.Settings.Variable
import KeyCustody.Proofs.Settings
import KeyCustody.Proofs.Command.KeyName
import KeyCustody.Proofs.Rsa.CanonicalDocument
import KeyCustody.Proofs.Poll.Delay
import KeyCustody.Proofs.Engine.InProcess
import KeyCustody.Proofs.Engine.Lifetime
import KeyCustody.Proofs.Remote.Directory
import KeyCustody.Proofs.Command.WrappingKey
import KeyCustody.Proofs.Pem.Truncation
import KeyCustody.Proofs.Truncation
import KeyCustody.Proofs.PublicDocument
import KeyCustody.Proofs.Command.Info
import KeyCustody.Proofs.Number.Binary64
import KeyCustody.Proofs.Poll.Fixed
import KeyCustody.Proofs.Poll.Ending
import KeyCustody.Proofs.Poll.Attempts
