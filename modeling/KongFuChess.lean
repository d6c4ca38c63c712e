import KongFuChess.Library.Grid
import KongFuChess.Library.Transition
import KongFuChess.Library.Matching
import KongFuChess.Library.Journal
import KongFuChess.Library.Search
import KongFuChess.Library.Table
import KongFuChess.Library.WaitingList
import KongFuChess.Library.Footprint
import KongFuChess.Library.Reader
import KongFuChess.Library.Commands
import KongFuChess.Model.Board
import KongFuChess.Io.Algebraic
import KongFuChess.Io.BoardSetup
import KongFuChess.Io.BoardParser
import KongFuChess.Io.TokenGrids
import KongFuChess.Io.BoardPrinter
import KongFuChess.Rules.Movement
import KongFuChess.Rules.Chess
import KongFuChess.Rules.Reads
import KongFuChess.Realtime.Arbiter
import KongFuChess.Realtime.Arrival
import KongFuChess.Engine.MoveLog
import KongFuChess.Engine.GameEngine
import KongFuChess.Engine.Operations
import KongFuChess.Engine.Run
import KongFuChess.Engine.Lifecycle
import KongFuChess.Engine.Turns
import KongFuChess.Engine.Airborne
import KongFuChess.Engine.Identity
import KongFuChess.Engine.Census
import KongFuChess.Engine.Material
import KongFuChess.Engine.EventPairing
import KongFuChess.Engine.GameOver
import KongFuChess.Engine.Independence
import KongFuChess.Engine.TickSize
import KongFuChess.Engine.Commute
import KongFuChess.Engine.Delay
import KongFuChess.Engine.Final
import KongFuChess.Engine.Uncontested
import KongFuChess.Engine.Accounts
import KongFuChess.Engine.Contest
import KongFuChess.Engine.Landings
import KongFuChess.Engine.Cooldowns
import KongFuChess.Engine.Premoves
import KongFuChess.Engine.Promotion
import KongFuChess.Engine.PawnCaptures
import KongFuChess.Engine.Poised
import KongFuChess.Engine.Solo
import KongFuChess.Engine.Settling
import KongFuChess.Engine.Journeys
import KongFuChess.Input.Controller
import KongFuChess.Input.Session
import KongFuChess.Input.Bounds
import KongFuChess.Input.Attached
import KongFuChess.Symmetry.Rules
import KongFuChess.Symmetry.Arrivals
import KongFuChess.Symmetry.Engine
import KongFuChess.Network.JsonUtil
import KongFuChess.Network.JsonObject
import KongFuChess.Network.ServerMessages
import KongFuChess.Network.LobbyMessages
import KongFuChess.Network.Wire
import KongFuChess.Network.ClientGameSync
import KongFuChess.Network.Fallback
import KongFuChess.Network.Delivery
import KongFuChess.Network.OnTime
import KongFuChess.Network.Convergence
import KongFuChess.Network.Retelling
import KongFuChess.Network.ScoreSheet
import KongFuChess.Online.MatchmakingQueue
import KongFuChess.Online.SessionManager
import KongFuChess.Online.Reconnect
import KongFuChess.Online.DisconnectManager
import KongFuChess.Server.Handlers
import KongFuChess.Server.Run
import KongFuChess.Server.Sent
import KongFuChess.Server.Names
import KongFuChess.Server.Grace
import KongFuChess.Server.Logins
import KongFuChess.Server.Match
import KongFuChess.Server.Queue
import KongFuChess.Server.News
import KongFuChess.Events.EventBus
import KongFuChess.Server.Lifecycle
import KongFuChess.Network.Escapes
import KongFuChess.Network.LobbyWire
import KongFuChess.Network.ClientCommands
import KongFuChess.Network.NetworkInput
import KongFuChess.Server.Host
import KongFuChess.Lobby.ShellLogin
import KongFuChess.Lobby.ShellLobby
import KongFuChess.Lobby.Told
import KongFuChess.Lobby.Entrance
import KongFuChess.Db.UserStore
import KongFuChess.Elo.EloRating
import KongFuChess.App.Ratings
import KongFuChess.View.DisconnectOverlay
import KongFuChess.App.GameLoop
import KongFuChess.App.Verdict
import KongFuChess.App.Broadcast
import KongFuChess.App.Queues
import KongFuChess.App.HostElection
import KongFuChess.Network.LocalWsClient
import KongFuChess.App.Handshake
import KongFuChess.Texttests.ScriptParser
import KongFuChess.Texttests.ScriptRunner
import KongFuChess.Texttests.Turns
