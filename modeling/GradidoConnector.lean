import GradidoConnector.Base.Machine
import GradidoConnector.Base.Table
import GradidoConnector.Base.Like
import GradidoConnector.Base.ExpireCache
import GradidoConnector.Base.Act
import GradidoConnector.Base.Mpfr
import GradidoConnector.PendingTransactions
import GradidoConnector.Tables
import GradidoConnector.Session
import GradidoConnector.Accounts
import GradidoConnector.SessionManager
import GradidoConnector.Authentication
import GradidoConnector.TokenBinding
import GradidoConnector.TokenLifetime
import GradidoConnector.SessionIsolation
import GradidoConnector.JsonTransactionListener
import GradidoConnector.Backup
import GradidoConnector.Server
import GradidoConnector.GradidoNodeRPC
import GradidoConnector.JsonTransaction
import GradidoConnector.HandlerTrace
import GradidoConnector.JsonTransferTransaction
import GradidoConnector.EffectTrace
import GradidoConnector.AllOrNothing
import GradidoConnector.Recipient
import GradidoConnector.AccountStore
import GradidoConnector.Backends
import GradidoConnector.Base.Threads
import GradidoConnector.PasswordEncryptionRateLimiter
import GradidoConnector.Base.Members
import GradidoConnector.JsonListTransactions
import GradidoConnector.BadTokens
import GradidoConnector.Base.Base64
import GradidoConnector.MemoRoundTrip
import GradidoConnector.JsonPackTransaction
import GradidoConnector.CrossGroup
import GradidoConnector.Phases
import GradidoConnector.ErrorReports
import GradidoConnector.AmountLimits
import GradidoConnector.Base.Linearize
import GradidoConnector.LoginSteps
import GradidoConnector.LoginViews
import GradidoConnector.ConcurrentLogins
import GradidoConnector.Notifications
import GradidoConnector.ArchiveDecision
import GradidoConnector.Dates
import GradidoConnector.NodeAnswers
import GradidoConnector.UserNames
import GradidoConnector.Listing
import GradidoConnector.JsonOpenConnection
import GradidoConnector.JsonSendTransactionIota
import GradidoConnector.HexFields
import GradidoConnector.Base.Resume
import GradidoConnector.VersionsManager
import GradidoConnector.VerifyPassword
import GradidoConnector.Publication
import GradidoConnector.Base.CharClass
import GradidoConnector.Base64Guard
import GradidoConnector.Base.Refinement
import GradidoConnector.Base.Throws
import GradidoConnector.JsonLogin
import GradidoConnector.JsonGetPendingTransactions
import GradidoConnector.JsonRequestHandlerFactory
import GradidoConnector.HandlerWalk
import GradidoConnector.Signatures
import GradidoConnector.Connector
import GradidoConnector.Authorization
import GradidoConnector.Paths
import GradidoConnector.PendingList
import GradidoConnector.Availability
import GradidoConnector.ApolloDecay
import GradidoConnector.Base.Lease
import GradidoConnector.SessionLifetime
import GradidoConnector.Integrity
import GradidoConnector.WaitingTime
import GradidoConnector.Startup
import GradidoConnector.Deployment
