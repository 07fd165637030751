import SessionCluster.Node.Boot
import SessionCluster.Node.Gateway
import SessionCluster.Rehearsal.Reading
import SessionCluster.Report.Node
import SessionCluster.Settings.Environment
import SessionCluster.Settings.Report
import SessionCluster.Table.Changes
import SessionCluster.Proofs.Accounts
import SessionCluster.Proofs.AllOrNothing
import SessionCluster.Proofs.Atomicity
import SessionCluster.Proofs.CacheUnseen
import SessionCluster.Proofs.ChangeBudget
import SessionCluster.Proofs.Contest
import SessionCluster.Proofs.DeliveryOrder
import SessionCluster.Proofs.Dispatching
import SessionCluster.Proofs.Evictions
import SessionCluster.Proofs.Refusals
import SessionCluster.Proofs.Staleness
import SessionCluster.Proofs.SweepsUnseen
import SessionCluster.Proofs.TableRuns
import SessionCluster.Proofs.Versions
import SessionCluster.Proofs.Warnings
import SessionCluster.Proofs.Draining
import SessionCluster.Proofs.Limits
import SessionCluster.Proofs.Touches
import SessionCluster.Proofs.KeysApart
import SessionCluster.Proofs.PublishedEnvelopes
import SessionCluster.Proofs.OldestFirst
import SessionCluster.Proofs.Attempts
import SessionCluster.Proofs.Lifetimes
import SessionCluster.Proofs.SettingsCheck
import SessionCluster.Proofs.RetryAgreement
import SessionCluster.Proofs.Vigils
import SessionCluster.Proofs.TimeLeft
import SessionCluster.Proofs.StoreContract
import SessionCluster.Proofs.SizeRefusals
