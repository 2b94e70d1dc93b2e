import NullRouter.Auth.Browser
import NullRouter.Auth.Isolation
import NullRouter.Bespoke.CodexBody
import NullRouter.Bespoke.CursorAgent
import NullRouter.Bespoke.KiroConversation
import NullRouter.Bespoke.KiroTools
import NullRouter.Bespoke.PerplexityThreads
import NullRouter.CliTools.YamlBlock
import NullRouter.Gateway.Bypass
import NullRouter.Gateway.IdentityHeaders
import NullRouter.Gateway.RetryHints
import NullRouter.Logship.Secrets
import NullRouter.Mcp.Bridge
import NullRouter.Mcp.LeavesOut
import NullRouter.Mcp.Stdio
import NullRouter.Mitm.Hosts
import NullRouter.Procctl.Allowance
import NullRouter.Procctl.StateDir
import NullRouter.Pxpipe.Replies
import NullRouter.Runtime.AccountLoop
import NullRouter.Runtime.Aliases
import NullRouter.Runtime.ComboRotation
import NullRouter.Runtime.Fusion
import NullRouter.Runtime.PanelCollection
import NullRouter.Runtime.Redaction
import NullRouter.Runtime.Refresh
import NullRouter.Runtime.Replay
import NullRouter.Runtime.RetryLoop
import NullRouter.Runtime.Routable
import NullRouter.Runtime.TransportChoice
import NullRouter.Runtime.UsageTotals
import NullRouter.State.ConsoleLogs
import NullRouter.State.DateTexts
import NullRouter.State.Durability
import NullRouter.State.LegacyImport
import NullRouter.State.PartialUpdates
import NullRouter.State.ProxyBinding
import NullRouter.State.RoundRobin
import NullRouter.State.Tables
import NullRouter.State.UsageLog
import NullRouter.State.UsageTables
import NullRouter.State.Users
import NullRouter.Stream.CallFragments
import NullRouter.Stream.ClaudeArguments
import NullRouter.Stream.CommandCodeCalls
import NullRouter.Stream.ComposerAnswer
import NullRouter.Stream.CursorSchemas
import NullRouter.Stream.Framing
import NullRouter.Stream.OllamaRelay
import NullRouter.Stream.PerplexityRelay
import NullRouter.Stream.ReplyAgreement
import NullRouter.Translate.ClaudeLifecycle
import NullRouter.Translate.CustomTools
import NullRouter.Translate.Instructions
import NullRouter.Translate.Request.ClaudeMerging
import NullRouter.Translate.Request.ClaudeReplies
import NullRouter.Translate.Request.GeminiPairing
import NullRouter.Translate.Request.GeminiReplies
import NullRouter.Translate.Request.ResponsesTurns
import NullRouter.Translate.ResponsePlaces
import NullRouter.Translate.ResponseTextsRun
import NullRouter.Translate.ThinkingOrder
import NullRouter.Translate.UnreadMedia
