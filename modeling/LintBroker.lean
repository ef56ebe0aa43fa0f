import LintBroker.Bus.Exchange
import LintBroker.Record.Given
import LintBroker.Service.Host
import LintBroker.Service.Hub
import LintBroker.Service.Kind
import LintBroker.Session.Plan
import LintBroker.Session.Run
import LintBroker.Setting.Desk
import LintBroker.Text.Phrase
import LintBroker.Proofs.Computation
import LintBroker.Proofs.Consultations
import LintBroker.Proofs.Deliveries
import LintBroker.Proofs.Quiet
import LintBroker.Proofs.Life
import LintBroker.Proofs.Tasks
import LintBroker.Proofs.Transition
import LintBroker.Proofs.Registrations
import LintBroker.Proofs.Coherence
import LintBroker.Proofs.Actions
import LintBroker.Proofs.RoundWalk
import LintBroker.Proofs.DispatchWalk
import LintBroker.Proofs.Walk
import LintBroker.Proofs.Moments
import LintBroker.Proofs.UpdateOrder
import LintBroker.Proofs.Readings
import LintBroker.Proofs.Launches
import LintBroker.Proofs.Endings
import LintBroker.Proofs.LatestAnswer
import LintBroker.Proofs.Tickets
import LintBroker.Proofs.Roster
import LintBroker.Proofs.Hearing
import LintBroker.Proofs.Contrast
import LintBroker.Proofs.Isolation
import LintBroker.Proofs.Accounting
import LintBroker.Proofs.Invocations
import LintBroker.Proofs.SettingLayers
import LintBroker.Proofs.SettingConversion
import LintBroker.Proofs.Breaches
import LintBroker.Proofs.Disposal
import LintBroker.Proofs.Completion
import LintBroker.Proofs.CallOrder
import LintBroker.Proofs.Sharing
import LintBroker.Proofs.Settling
import LintBroker.Proofs.Selection
import LintBroker.Proofs.Interchange
import LintBroker.Proofs.Confluence
import LintBroker.Proofs.Verdicts
import LintBroker.Proofs.Abstention
import LintBroker.Proofs.Collaborators
import LintBroker.Proofs.DisabledProviders
import LintBroker.Proofs.SettingAgreement
import LintBroker.Proofs.RunningMaxima
import LintBroker.Proofs.Phrases
