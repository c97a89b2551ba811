import AgentBridge.Authority.Delegation
import AgentBridge.Budget.Caps
import AgentBridge.Quota.Enforced
import AgentBridge.Queued.Joint
import AgentBridge.Queued.Lifetime
import AgentBridge.Authority.Noninterference
import AgentBridge.Approvals.OneShot
import AgentBridge.Lifecycle.Owners
import AgentBridge.Fencing.Epochs
import AgentBridge.Nonce.Claims
import AgentBridge.Streams.Leases
import AgentBridge.Lifecycle.Stream
import AgentBridge.Proxy.Connect
import AgentBridge.Ownership.Views
import AgentBridge.Queued.Settlement
import AgentBridge.Protocols.Payloads
import AgentBridge.Gateway.Signed
import AgentBridge.Audit.Records
import AgentBridge.Witness.Bundle
import AgentBridge.Witness.Order
import AgentBridge.Audit.Capacity
import AgentBridge.Lifecycle.Guards
import AgentBridge.Audit.Memory
import AgentBridge.Budget.Agreement
import AgentBridge.Policy.Rules
import AgentBridge.Proxy.Cursor
import AgentBridge.Queued.Admission
import AgentBridge.Signing.Registry
