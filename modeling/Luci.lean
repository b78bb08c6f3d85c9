import Luci.Text
import Luci.Milo.Encoding
import Luci.Milo.Memcache
import Luci.Milo.GitLog
import Luci.Milo.ReadCacheBounds
import Luci.Milo.Repo
import Luci.Milo.CachedAnswers
import Luci.Milo.WriteCache
import Luci.Milo.Concurrent
import Luci.Milo.NoRegression
import Luci.Milo.Warming
import Luci.Milo.Buildbucket
import Luci.ResultDB.CreateInvocation
import Luci.ResultDB.Exoneration
import Luci.ResultDB.Predicate
import Luci.ResultDB.Artifacts
import Luci.ResultDB.JsonResults
import Luci.ResultDB.JsonTrie
import Luci.ResultDB.JsonTrieTests
import Luci.ResultDB.ConvertedResults
import Luci.ResultDB.GTest
import Luci.GCE.Backend
import Luci.GCE.Expand
import Luci.GCE.Config
import Luci.Server.Sampler
import Luci.Swarming.Trigger
import Luci.Swarming.Tasks
import Luci.Buildbucket.Agent
import Luci.Isolated.Download
