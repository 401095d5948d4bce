import ArbBot.Lib.OrdDict
import ArbBot.Lib.Machine
import ArbBot.Lib.Books
import ArbBot.Lib.Loop
import ArbBot.Lib.Ladder
import ArbBot.Lib.Smoothing
import ArbBot.Lib.Leveling
import ArbBot.Lib.TradeGraph
import ArbBot.Lib.Separated
import ArbBot.Lib.Numerals
import ArbBot.Models
import ArbBot.Executor.Execute
import ArbBot.Executor.Rebalance
import ArbBot.Executor.Inversion
import ArbBot.Executor.Accounts
import ArbBot.Executor.Ledger
import ArbBot.Executor.Overdraft
import ArbBot.Executor.Inventory
import ArbBot.Executor.RiskGate
import ArbBot.Executor.Answers
import ArbBot.Executor.Cooldown
import ArbBot.Executor.Balancing
import ArbBot.Executor.Upkeep
import ArbBot.Exchanges.Gateway
import ArbBot.Exchanges.Impact
import ArbBot.Engine.Build
import ArbBot.Engine.Scan
import ArbBot.Engine.Statistics
import ArbBot.Engine.Inversion
import ArbBot.Engine.Filters
import ArbBot.Engine.DepthPrices
import ArbBot.Engine.Averages
import ArbBot.Engine.Order
import ArbBot.Engine.Caps
import ArbBot.Engine.Acyclic
import ArbBot.Engine.Costs
import ArbBot.Engine.Tally
import ArbBot.Engine.Restart
import ArbBot.Engine.Units
import ArbBot.Main.Cycle
import ArbBot.Main.System
import ArbBot.Executor.Requotes
import ArbBot.Exchanges.Walk
import ArbBot.Executor.BlockReason
import ArbBot.Executor.Rehearsal
import ArbBot.Exchanges.Sources
import ArbBot.Exchanges.Streams
import ArbBot.Exchanges.Symbols
import ArbBot.Engine.Charges
import ArbBot.Exchanges.Fetch
import ArbBot.Exchanges.Feeds
import ArbBot.Exchanges.Fees
import ArbBot.Lib.Script
import ArbBot.Main.Runtime
import ArbBot.Main.Config
import ArbBot.Main.Bot
import ArbBot.Main.Refinement
import ArbBot.Main.Audit
import ArbBot.Main.Safety
import ArbBot.Main.Alerts
import ArbBot.Main.Dashboard
import ArbBot.Main.Replay
import ArbBot.Main.Turnover
import ArbBot.Main.Value
import ArbBot.Main.MakerFills
import ArbBot.Executor.Units
import ArbBot.Exchanges.Units
import ArbBot.Main.Units
