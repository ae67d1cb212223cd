import StumpfworksFramework.ByteStrings
import StumpfworksFramework.ByteReaders
import StumpfworksFramework.Base64Url
import StumpfworksFramework.Runs
import StumpfworksFramework.FiniteMaps
import StumpfworksFramework.OneShotMaps
import StumpfworksFramework.Instants
import StumpfworksFramework.BerGrammar
import StumpfworksFramework.OidcClients
import StumpfworksFramework.AuthenticatedEncryption
import StumpfworksFramework.OidcTransactions
import StumpfworksFramework.TransactionCodec
import StumpfworksFramework.SealedLogins
import StumpfworksFramework.TransactionStore
import StumpfworksFramework.StoreRefinement
import StumpfworksFramework.BrowserBindings
import StumpfworksFramework.BerFraming
import StumpfworksFramework.BerAcceptance
import StumpfworksFramework.MachineInts
import StumpfworksFramework.BerExecution
import StumpfworksFramework.ReadGuard
import StumpfworksFramework.ReadTransparency
import StumpfworksFramework.BerResources
import StumpfworksFramework.LengthOctets
import StumpfworksFramework.FrameBoundaries
import StumpfworksFramework.EarlyReturns
import StumpfworksFramework.DirectoryLookup
import StumpfworksFramework.LookupReports
import StumpfworksFramework.LoginExchange
import StumpfworksFramework.LoginSystem
import StumpfworksFramework.ExchangeOnce
import StumpfworksFramework.LoginBinding
import StumpfworksFramework.ConfigurationCache
import StumpfworksFramework.MigrationFiles
import StumpfworksFramework.MigrationRuns
import StumpfworksFramework.MigrationsOnce
import StumpfworksFramework.MigrationOrder
import StumpfworksFramework.AppLifecycle
import StumpfworksFramework.ResponseStatus
import StumpfworksFramework.ConcurrencyLimit
import StumpfworksFramework.LimitedResponses
import StumpfworksFramework.HttpResponses
import StumpfworksFramework.MiddlewareChain
import StumpfworksFramework.RecoveredPanics
import StumpfworksFramework.TokenLifetime
import StumpfworksFramework.NotBeforeDates
import StumpfworksFramework.ProviderRequests
import StumpfworksFramework.IssuerPinning
import StumpfworksFramework.IntrospectionWindow
import StumpfworksFramework.JsonTrees
import StumpfworksFramework.SensitiveKeys
import StumpfworksFramework.Utf8Runes
import StumpfworksFramework.AuditMetadata
import StumpfworksFramework.MetadataInspection
import StumpfworksFramework.KeyRedaction
import StumpfworksFramework.Histograms
import StumpfworksFramework.MetricsRegistry
import StumpfworksFramework.SortedKeys
import StumpfworksFramework.Decimals
import StumpfworksFramework.ExpositionFormat
import StumpfworksFramework.MetricsPage
import StumpfworksFramework.MetricsDecoding
import StumpfworksFramework.LayeredValues
import StumpfworksFramework.AppConfiguration
import StumpfworksFramework.ConfigurationLayers
import StumpfworksFramework.Gathering
import StumpfworksFramework.HealthChecks
import StumpfworksFramework.Readiness
import StumpfworksFramework.CorsPolicy
import StumpfworksFramework.CorsDecisions
import StumpfworksFramework.CorsCaching
import StumpfworksFramework.UrlReferences
import StumpfworksFramework.CorsOrigins
import StumpfworksFramework.PermissionKeys
import StumpfworksFramework.MigrationLoading
import StumpfworksFramework.JsonScanner
import StumpfworksFramework.JsonReading
import StumpfworksFramework.JsonBodies
import StumpfworksFramework.HexText
import StumpfworksFramework.SearchFilters
import StumpfworksFramework.HostPorts
import StumpfworksFramework.DirectoryReaders
import StumpfworksFramework.DirectoryAccounts
import StumpfworksFramework.PeerCertificates
import StumpfworksFramework.Interactions
import StumpfworksFramework.PoolTransactions
import StumpfworksFramework.AuditTrail
import StumpfworksFramework.RefreshLoop
import StumpfworksFramework.FormEncoding
import StumpfworksFramework.HonestLogins
import StumpfworksFramework.AuthenticIdentities
import StumpfworksFramework.MetricsEndpoint
import StumpfworksFramework.JsonWriting
import StumpfworksFramework.ProblemReports
import StumpfworksFramework.RequestIdentities
