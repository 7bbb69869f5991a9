import CMsgQueue.Proto.ParserRun
import CMsgQueue.Server.Dispatch
import CMsgQueue.Server.DynReloadSpec
import CMsgQueue.Server.PublishOnce
import CMsgQueue.Store.Recovery
import CMsgQueue.Store.CompactCrash
import CMsgQueue.Store.AsyncRun
import CMsgQueue.Server.Connect
import CMsgQueue.Server.BatchSpec
import CMsgQueue.Server.BatchReads
import CMsgQueue.Server.PayloadPool
import CMsgQueue.Store.StreamPoll
import CMsgQueue.Store.Obj
import CMsgQueue.Store.Kvb
import CMsgQueue.Store.JsCrash
import CMsgQueue.Server.SubscribeRun
import CMsgQueue.Server.MailboxRun
import CMsgQueue.Server.RequestSyncRun
import CMsgQueue.Server.IdmapRun
import CMsgQueue.Server.ReplayWorkers
import CMsgQueue.Server.QueueGroup
import CMsgQueue.Server.InboxRun
import CMsgQueue.Server.TxnLog
import CMsgQueue.Store.RingFifo
import CMsgQueue.Server.IdempoRun
import CMsgQueue.Enterprise.Quota
import CMsgQueue.Enterprise.RegistryGate
import CMsgQueue.Enterprise.Session
import CMsgQueue.Enterprise.Ws
import CMsgQueue.Server.SublistPersist
import CMsgQueue.Mqtt.Receive
import CMsgQueue.Mqtt.Qos2
import CMsgQueue.Mqtt.RateLimit
import CMsgQueue.Mqtt.Topic
import CMsgQueue.Cluster.RouteRetry
import CMsgQueue.Server.RequestBudget
import CMsgQueue.Core.Mpool
