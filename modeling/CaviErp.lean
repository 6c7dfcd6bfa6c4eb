import CaviErp.Base.Proofs.QuarantineProofs
import CaviErp.Beacon.Proofs.EscalationProofs
import CaviErp.Beacon.Proofs.IsolationProofs
import CaviErp.Beacon.Proofs.ReportProofs
import CaviErp.Forge.Proofs.AcceptanceProofs
import CaviErp.Forge.Proofs.AuditLogProofs
import CaviErp.Forge.Proofs.BatchProofs
import CaviErp.Forge.Proofs.DiffTextProofs
import CaviErp.Forge.Proofs.DisciplineProofs
import CaviErp.Forge.Proofs.DispatchProofs
import CaviErp.Forge.Proofs.IsolationProofs
import CaviErp.Forge.Proofs.ParkingProofs
import CaviErp.Forge.Proofs.PostingProofs
import CaviErp.Forge.Proofs.RedeliveryProofs
import CaviErp.Forge.Proofs.RetryProofs
import CaviErp.Forge.Proofs.RevenueProofs
import CaviErp.Forge.Proofs.ReviewProofs
import CaviErp.Forge.Proofs.TransportProofs
import CaviErp.Ledger.Proofs.ReconcileProofs
import CaviErp.Ledger.Proofs.RedeliveryProofs
import CaviErp.Ledger.Proofs.TransactionProofs
import CaviErp.Ledger.Query
import CaviErp.Mapper.Proofs.CoercionProofs
import CaviErp.Shared.Proofs.AuditExportProofs
import CaviErp.Shared.Proofs.EditProofs
import CaviErp.Shared.Proofs.TenantRowsProofs
import CaviErp.Vault.Proofs.ServiceProofs
import CaviErp.Lib.Bfs
import CaviErp.Mapper.Paths
import CaviErp.Mapper.Proofs.PathProofs
import CaviErp.Lib.Decimal
import CaviErp.Mapper.NetsuiteRecords
import CaviErp.Mapper.Proofs.LosslessProofs
import CaviErp.Mapper.Gaps
import CaviErp.Mapper.Proofs.NetsuiteProofs
import CaviErp.Lib.ReadThrough
import CaviErp.Beacon.Proofs.DedupProofs
import CaviErp.Beacon.Proofs.ConservationProofs
import CaviErp.Lib.Percent
import CaviErp.Vault.OAuth
import CaviErp.Vault.Proofs.OAuthProofs
import CaviErp.Lib.Encodings
import CaviErp.Vault.Http
import CaviErp.Vault.Proofs.HttpProofs
import CaviErp.Lib.Proofs.DecimalProofs
import CaviErp.Ticker.Ticker
import CaviErp.Ticker.Proofs.TickerProofs
import CaviErp.Lib.Alike
import CaviErp.Lib.Proofs.AlikeProofs
import CaviErp.Mapper.Erp
import CaviErp.Shared.Proofs.FingerprintProofs
import CaviErp.Lib.DecimalContext
import CaviErp.Lib.Proofs.NumeralProofs
import CaviErp.Mapper.Proofs.PriceProofs
import CaviErp.Lib.Proofs.RoundingProofs
import CaviErp.Lib.Proofs.DecimalContextProofs
import CaviErp.Ticker.Conversion
import CaviErp.Ticker.Proofs.ConversionProofs
import CaviErp.Ticker.Agent
import CaviErp.Lib.Proofs.InverseProofs
import CaviErp.Ticker.Proofs.QuoteProofs
import CaviErp.Lib.Js
import CaviErp.Lib.Proofs.JsProofs
import CaviErp.Forge.Connection
import CaviErp.Forge.Proofs.ConnectionProofs
import CaviErp.Forge.Workflow
import CaviErp.Forge.Proofs.WorkflowProofs
import CaviErp.Scripts.Migrate
import CaviErp.Scripts.History
import CaviErp.Scripts.Proofs.MigrateProofs
import CaviErp.Scripts.Proofs.RollbackProofs
import CaviErp.Lib.Bus
import CaviErp.Lib.Proofs.BusProofs
import CaviErp.Base.Outbox
import CaviErp.Base.Proofs.OutboxProofs
import CaviErp.Fleet.Fleet
import CaviErp.Fleet.Flow
import CaviErp.Fleet.Proofs.SpeechProofs
import CaviErp.Fleet.Proofs.FlowProofs
import CaviErp.Fleet.Proofs.GateProofs
import CaviErp.Fleet.Proofs.PostingProofs
import CaviErp.Fleet.Proofs.LogProofs
import CaviErp.Fleet.Proofs.LineageProofs
import CaviErp.Fleet.Proofs.StormProofs
import CaviErp.Vault.Keyring
import CaviErp.Vault.Proofs.KeyringProofs
import CaviErp.Vault.Proofs.HistoryProofs
import CaviErp.Fleet.Proofs.RequestProofs
import CaviErp.Fleet.Proofs.AnswerProofs
import CaviErp.Scripts.Bootstrap
import CaviErp.Scripts.Proofs.BootstrapProofs
import CaviErp.Scripts.Proofs.StatusProofs
