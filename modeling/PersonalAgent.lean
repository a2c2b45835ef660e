import PersonalAgent.Agent.Attempts
import PersonalAgent.Agent.Delegation
import PersonalAgent.Agent.Dependencies
import PersonalAgent.Agent.Receipts
import PersonalAgent.Audio.Arbiter
import PersonalAgent.Audio.Partials
import PersonalAgent.Audio.PhraseEntry
import PersonalAgent.Audio.Revisions
import PersonalAgent.Automation.Draining
import PersonalAgent.Automation.Panics
import PersonalAgent.Automation.Slots
import PersonalAgent.Connectors.Rest
import PersonalAgent.Context.Receipts
import PersonalAgent.Core.Budget
import PersonalAgent.Core.Conversation
import PersonalAgent.Core.Rebuild
import PersonalAgent.Core.Record
import PersonalAgent.Core.ReleaseHashes
import PersonalAgent.Core.SupervisorWrites
import PersonalAgent.Core.UsageMonoid
import PersonalAgent.Core.UsagePages
import PersonalAgent.Desktop.NativeUndo
import PersonalAgent.Desktop.Terminal
import PersonalAgent.Goals.Flushing
import PersonalAgent.Llm.Accounting
import PersonalAgent.Llm.Redaction
import PersonalAgent.Llm.RetryAdvice
import PersonalAgent.Mcp.Bindings
import PersonalAgent.Mcp.Consent
import PersonalAgent.Mcp.DisplayedCommand
import PersonalAgent.Mcp.Persistence
import PersonalAgent.Memories.Conflicts
import PersonalAgent.Memories.Isolation
import PersonalAgent.Memories.RoundTrip
import PersonalAgent.Migration.Retries
import PersonalAgent.Migration.Secrecy
import PersonalAgent.Plugins.ConnectorAuthority
import PersonalAgent.Plugins.PairingSafety
import PersonalAgent.Runtime.StreamPrivacy
import PersonalAgent.Storage.MemorySaves
import PersonalAgent.Storage.Upgrade
import PersonalAgent.Tools.Scanners
import PersonalAgent.Tools.Secrets
import PersonalAgent.Tools.Spending
