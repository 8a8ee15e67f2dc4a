import AdGuardHome.Stats.Conservation
import AdGuardHome.Dhcpd.V4Hostnames
import AdGuardHome.Dhcpd.V4UpdateStatic
import AdGuardHome.Dhcpd.V6Unique
import AdGuardHome.Dhcpsvc.LeaseTime
import AdGuardHome.Dhcpsvc.StaticLeases
import AdGuardHome.Dnsforward.ProtectionStatus
import AdGuardHome.Filtering.EngineTasks
import AdGuardHome.Filtering.StoreConsistency
import AdGuardHome.Dnsforward.OriginalQuestion
import AdGuardHome.Dnsforward.RebindAnswer
import AdGuardHome.Dnsforward.UserDecisions
import AdGuardHome.Dnsforward.StrictSNI
import AdGuardHome.Dnsforward.DNSConfig
import AdGuardHome.Dnsforward.Access
import AdGuardHome.Home.LoginRuns
import AdGuardHome.Dnsforward.IgnoredClients
import AdGuardHome.Dhcpd.Restart
import AdGuardHome.Configmigrate.Migrator
import AdGuardHome.Dnsforward.RewriteAnswers
import AdGuardHome.Ipset.Configured
import AdGuardHome.Dnsforward.OwnAddresses
import AdGuardHome.Hashprefix.CheckRuns
import AdGuardHome.Rewrite.Storage
import AdGuardHome.Safesearch.CacheRuns
import AdGuardHome.Filtering.RewriteCase
import AdGuardHome.Filtering.UpdatesLoop
import AdGuardHome.Filtering.RuleListChecksum
import AdGuardHome.Filtering.SetProperties
import AdGuardHome.Dhcpsvc.IANAOption
import AdGuardHome.Dhcpsvc.BlockedAddresses
import AdGuardHome.Stats.Daily
import AdGuardHome.Stats.Averages
import AdGuardHome.Stats.UnitRestart
import AdGuardHome.Querylog.LogOrder
import AdGuardHome.Querylog.Rotation
import AdGuardHome.Telebot.BlockedServices
import AdGuardHome.Telebot.Poller
import AdGuardHome.Aghos.FSWatcher
import AdGuardHome.Aghos.FileWalker
import AdGuardHome.Home.SafeMode
import AdGuardHome.Devicedetect.Evidence
import AdGuardHome.Querylog.SeekFound
import AdGuardHome.Querylog.QuickMatch
import AdGuardHome.Aghnet.HostsContainer
import AdGuardHome.Filtering.RuleListEngineRuns
import AdGuardHome.Home.AddOns
import AdGuardHome.Client.CustomUpstreamsRuns
import AdGuardHome.Home.ClientsHTTPEdits
import AdGuardHome.Home.HTTPSServer
import AdGuardHome.Updater.AllOrNothing
import AdGuardHome.Client.AddrUpdates
import AdGuardHome.Home.Auth
