import RlClient.Machine
import RlClient.ClientFrame
import RlClient.Submission
import RlClient.Lifecycle
import RlClient.Simulation
import RlClient.Ranking
import RlClient.History
import RlClient.Selection
import RlClient.Completion
import RlClient.Schedule
import RlClient.Timing
import RlClient.Expiry
import RlClient.Preference
import RlClient.Attempts
import RlClient.Transmission
import RlClient.Delivery
import RlClient.Ingress
import RlClient.Since
import RlClient.Steering
import RlClient.Rebind
import RlClient.ArrivalOrder
import RlClient.Sealing
import RlClient.Microsteps
import RlClient.Bookkeeping
import RlClient.RefreshChains
import RlClient.RefreshSafety
import RlClient.RefreshMembership
import RlClient.ResponseGrammar
import RlClient.Codes
import RlClient.RequestCodec
import RlClient.Exchange
import RlClient.Bech32
import RlClient.Numerals
import RlClient.Bech32Codec
import RlClient.Credential
import RlClient.Refusal
import RlClient.Isolation
import RlClient.Horizon
import RlClient.Conformance
import RlClient.Pacing
import RlClient.DatagramSize
import RlClient.ServerLabel
import RlClient.Workflow
import RlClient.Denial
import RlClient.RuntimeOptions
import RlClient.PartialDecode
import RlClient.ForcedInterval
import RlClient.PortScan
import RlClient.SocketRebind
import RlClient.ContentId
import RlClient.LatencyHistogram
import RlClient.Regrouping
import RlClient.Reflection
import RlClient.Pacer
import RlClient.PartialDelivery
import RlClient.BurstErrors
import RlClient.Borrowing
import RlClient.Admission
import RlClient.AdmissionLifecycle
import RlClient.Answer
import RlClient.Network
import RlClient.Agreement
import RlClient.Allowance
import RlClient.Accounts
import RlClient.Runtime
import RlClient.SocketCustody
import RlClient.PortStability
import RlClient.FailClosed
