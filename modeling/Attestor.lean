import Attestor.Asset.Account
import Attestor.Asset.Amount
import Attestor.Asset.Codec
import Attestor.Asset.Currency
import Attestor.Asset.Decimal
import Attestor.Asset.Error
import Attestor.Bridge
import Attestor.Bridge.Codec
import Attestor.Bridge.Role
import Attestor.Bytes
import Attestor.Config
import Attestor.Config.Mode
import Attestor.Decode.Basic
import Attestor.Decode.Error
import Attestor.Decode.Record
import Attestor.Ed25519
import Attestor.Ed25519.Curve
import Attestor.Ed25519.Field
import Attestor.FileTree
import Attestor.Hash.Blake3
import Attestor.Hash.Sha256
import Attestor.Hash.Sha512
import Attestor.Json.Basic
import Attestor.Json.Number
import Attestor.Json.Printer
import Attestor.Json.Reader
import Attestor.Main
import Attestor.Path
import Attestor.Program
import Attestor.Program.Files
import Attestor.Program.Run
import Attestor.Proofs.AmountText
import Attestor.Proofs.AnyOrder
import Attestor.Proofs.Base58Reading
import Attestor.Proofs.BatchEffect
import Attestor.Proofs.Bookkeeping
import Attestor.Proofs.CodecReading
import Attestor.Proofs.Commit
import Attestor.Proofs.Coverage
import Attestor.Proofs.DecimalExact
import Attestor.Proofs.DecimalNormal
import Attestor.Proofs.DecimalParts
import Attestor.Proofs.DecimalReading
import Attestor.Proofs.DecimalSpelling
import Attestor.Proofs.DecimalValue
import Attestor.Proofs.Delivery
import Attestor.Proofs.EventCommit
import Attestor.Proofs.ExactLookup
import Attestor.Proofs.FirstDelivery
import Attestor.Proofs.HexReading
import Attestor.Proofs.InStep
import Attestor.Proofs.InTurn
import Attestor.Proofs.InsertDecision
import Attestor.Proofs.JsonForms
import Attestor.Proofs.JsonReading
import Attestor.Proofs.KeyDecoding
import Attestor.Proofs.KeyReading
import Attestor.Proofs.Legible
import Attestor.Proofs.Lookup
import Attestor.Proofs.MessageReading
import Attestor.Proofs.NumberReading
import Attestor.Proofs.Offers
import Attestor.Proofs.OnDuty
import Attestor.Proofs.OneAnswer
import Attestor.Proofs.Partitions
import Attestor.Proofs.Provenance
import Attestor.Proofs.Recovery
import Attestor.Proofs.Redelivery
import Attestor.Proofs.Rejections
import Attestor.Proofs.Relay
import Attestor.Proofs.RequestEffect
import Attestor.Proofs.RoleLoops
import Attestor.Proofs.RoleParts
import Attestor.Proofs.RowReading
import Attestor.Proofs.SignedAlike
import Attestor.Proofs.Site
import Attestor.Proofs.SoleEngine
import Attestor.Proofs.TableChanges
import Attestor.Proofs.WholeEvents
import Attestor.Proofs.WindingDown
import Attestor.Proofs.WriteOnce
import Attestor.Request.Query
import Attestor.Request.Response
import Attestor.Request.Service
import Attestor.Signing.Identity
import Attestor.Signing.KeyText
import Attestor.Store
import Attestor.Store.Batch
import Attestor.Store.Damage
import Attestor.Store.Database
import Attestor.Store.Error
import Attestor.Store.Location
import Attestor.Store.Row
import Attestor.Store.Snapshot
import Attestor.Text.Base58
import Attestor.Text.Blank
import Attestor.Text.Graphic
import Attestor.Text.Hex
import Attestor.Text.Integer
import Attestor.Text.Quoted
import Attestor.Text.Shortest
import Attestor.Toml.Document
import Attestor.Toml.Number
import Attestor.Toml.Table
import Attestor.Toml.Text
import Attestor.Transfer.Attestation
import Attestor.Transfer.Event
import Attestor.Transfer.Key
import Attestor.Transfer.Message
import Attestor.Width
import Attestor.Witness.Engine
import Attestor.Witness.Loop
import Attestor.Witness.Node
