import Koul.Lib.Checked
import Koul.Lib.FirstMatch
import Koul.Lib.FixedWindow
import Koul.Lib.Grain
import Koul.Lib.Js
import Koul.Lib.Spaced
import Koul.Lib.Stutter
import Koul.Lib.Transactional
import Koul.Lib.TruncMul
import Koul.Lib.Zod
import Koul.Soroban
import Koul.Router.Types
import Koul.Router.Amounts
import Koul.Router.Host
import Koul.Router.Validation
import Koul.Router.Reads
import Koul.Router.PlanBounds
import Koul.Router.Run
import Koul.Router.Entry
import Koul.Router.Refinement
import Koul.Router.Registry
import Koul.Router.Cooldown
import Koul.Router.SwapFloor
import Koul.Router.Overflow
import Koul.Policy.Enforce
import Koul.Policy.RateLimit
import Koul.Policy.Session
import Koul.Policy.Exclusivity
import Koul.Core.Schema
import Koul.Core.Validate
import Koul.Core.Json
import Koul.Core.Codec
import Koul.Core.Printed
import Koul.Core.Agreement
import Koul.Core.ScVal
import Koul.Core.RoundTrip
import Koul.Core.Permissions
import Koul.Agent.Session
import Koul.Agent.Grant
import Koul.Agent.Tree
import Koul.Agent.Confinement
import Koul.Web.Rules
import Koul.Web.Adapter
import Koul.Web.Fold
import Koul.Web.BestPool
import Koul.Web.ReadBack
import Koul.Lib.Interleaving
import Koul.Competition.Entry
import Koul.Competition.Cap
import Koul.Competition.Unique
import Koul.Lib.Grouped
import Koul.Lib.Paged
import Koul.Competition.Scoring
import Koul.Competition.Indexer
import Koul.Competition.Runs
import Koul.Competition.ExactlyOnce
import Koul.Competition.PriceMoves
import Koul.Core.Read
import Koul.Web.Events
import Koul.Web.Chat
import Koul.Web.Store
import Koul.Lib.Heard
import Koul.Lib.Stellar
import Koul.Anchor.Types
import Koul.Anchor.Submit
import Koul.Anchor.Landing
import Koul.Anchor.Locked
import Koul.Anchor.Funds
import Koul.Anchor.Lost
import Koul.Lib.Overlap
import Koul.Traction.State
import Koul.Traction.Once
import Koul.Traction.Summary
import Koul.Traction.Ledger
import Koul.Router.FailSafe
import Koul.Lib.Alone
import Koul.Competition.EntryAlone
import Koul.Competition.Ranking
import Koul.Core.StripFx
import Koul.Web.History
import Koul.Web.NowOn
import Koul.Web.Limits
import Koul.Lib.Url
import Koul.Web.AppHost
import Koul.Lib.Utf8
import Koul.Lib.Base64
import Koul.Lib.JsonText
import Koul.Web.Library
import Koul.Lib.Chunks
import Koul.Lib.Utf16
import Koul.Competition.Requests
import Koul.Lib.Der
import Koul.Web.PasskeyProof
import Koul.Anchor.Amount
import Koul.Lib.Fresh
import Koul.Web.UniqueName
import Koul.Relay.Sponsor
import Koul.Relay.Once
import Koul.Relay.Payer
import Koul.Lib.Crew
import Koul.Keeper.Types
import Koul.Keeper.Pass
import Koul.Keeper.Rules
import Koul.Keeper.Runs
import Koul.Lib.Embedded
import Koul.Lib.Tokens
import Koul.Web.RateLimit
import Koul.Web.Assertion
import Koul.Competition.Register
import Koul.Competition.Signed
import Koul.Core.Parse
import Koul.Lib.Padded
import Koul.Traction.Collector
import Koul.Traction.Collected
import Koul.Lib.Form
import Koul.Web.Invite
import Koul.Web.Admitted
import Koul.Web.Waitlist
import Koul.Web.Invited
import Koul.Web.Kept
import Koul.Web.KeptWindows
