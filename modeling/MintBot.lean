import MintBot.Spend.FleetCap
import MintBot.Spend.RunCap
import MintBot.Store.EventCache
import MintBot.Store.SecretKeys
import MintBot.Coordinator.Resolution
import MintBot.Lifecycle.ReleasedMoney
import MintBot.Lifecycle.BroadcastResults
import MintBot.Lifecycle.ReceiptObservations
import MintBot.Lifecycle.SwitchedOff
import MintBot.Engine.LiveSigning
import MintBot.Engine.SubmittedHash
import MintBot.Adapter.ExecuteAgreement
import MintBot.Adapter.ReconcileAgreement
import MintBot.Funding.BalanceGate
import MintBot.Watcher.Adoption
import MintBot.Watcher.Falls
import MintBot.Durable.Store
import MintBot.Jobs.Store
import MintBot.Coordinator.KillSwitch
import MintBot.Telegram.Polling
import MintBot.Discovery.Emitted
import MintBot.Discovery.Restart
import MintBot.LiveRequest.Processors
import MintBot.Fire.Firing
import MintBot.Adapter.RobinhoodVerdict
import MintBot.Owner.KillRelease
import MintBot.Evidence.Decisions
import MintBot.Library.Script
import MintBot.Enabling.Decision
import MintBot.Replication.Once
import MintBot.Engine.ReplacementCeiling
import MintBot.Allowlist.Check
import MintBot.Engine.FireLanes
import MintBot.Engine.DropRecheck
import MintBot.Engine.RecoveryFacts
import MintBot.Adapter.EthereumVerdict
import MintBot.Settlement.Boundary
import MintBot.Settlement.SummaryRuns
import MintBot.Funding.ExcessReminders
import MintBot.Engine.ReorgHistory
import MintBot.Funding.QuantityPlan
import MintBot.LiveRequest.StatedMaximum
import MintBot.Replication.FreshContracts
import MintBot.Store.SettlementOrder
import MintBot.Store.StoredFees
import MintBot.Fire.FundingSplit
import MintBot.Health.Warnings
import MintBot.Database.AmountGuard
import MintBot.Session.Base32
import MintBot.Owner.ToldOnce
import MintBot.Dashboard.NewestFacts
import MintBot.Authority.Independent
import MintBot.Notifications.Kept
import MintBot.Notifications.Backoff
import MintBot.Notifications.OneAtATime
import MintBot.Notifications.AtMostOnce
import MintBot.Treasury.Corroborated
