import EgressDns.Upstream.FanOut
import EgressDns.Cache.Interleaving
import EgressDns.Resolver.SecondOpinion
import EgressDns.Resolver.Miss
import EgressDns.Resolver.Provisional
import EgressDns.Resolver.Reload
import EgressDns.Resolver.Condemned
import EgressDns.Resolver.Hidden
import EgressDns.Resolver.StaleRefresh
import EgressDns.Ingress.Ceilings
import EgressDns.Runtime.AllOrNothing
import EgressDns.Config.Secrecy
import EgressDns.Runtime.Startup
import EgressDns.Probe.Workers
import EgressDns.Upstream.Hedging
import EgressDns.Probe.Evidence
import EgressDns.Probe.Connections
import EgressDns.Ingress.Respond
import EgressDns.Upstream.StreamRetry
import EgressDns.Upstream.Identity
import EgressDns.Upstream.Recovery
import EgressDns.Resolver.Unread
import EgressDns.Ranking.Classifier
import EgressDns.Ingress.Admission
import EgressDns.Cache.HotSet
import EgressDns.Probe.Gate
import EgressDns.Datasets.Suffixes
import EgressDns.Datasets.Digest
import EgressDns.Ranking.Persistence
import EgressDns.Resolver.ChainEnd
import EgressDns.Probe.Results
import EgressDns.Probe.Cooldowns
import EgressDns.Cloudflare.Retirement
import EgressDns.Config.Percent
import EgressDns.Probe.Fetch
import EgressDns.Upstream.Loops
import EgressDns.Network.Monitor
import EgressDns.Upstream.Cookies
import EgressDns.Cloudflare.Seeds
import EgressDns.Network.Detect
import EgressDns.Probe.Ceiling
import EgressDns.Probe.Profile
import EgressDns.Upstream.Base64
