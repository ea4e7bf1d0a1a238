import SlimeOs.BootTrials
import SlimeOs.CallOutcomes
import SlimeOs.DataVolume
import SlimeOs.DnsResolution
import SlimeOs.ExtentRuns
import SlimeOs.FrameStoreLayout
import SlimeOs.IoQueuePeer
import SlimeOs.LeafSpans
import SlimeOs.LinkFrames
import SlimeOs.PrivateMemoryIncarnations
import SlimeOs.PrivateMemoryInventory
import SlimeOs.PrivateMemoryIsolation
import SlimeOs.PrivateMemorySettlement
import SlimeOs.PrivateMemoryTopology
import SlimeOs.RestartBounds
import SlimeOs.SharedBufferRuns
import SlimeOs.SharedBufferSealing
import SlimeOs.SpawnGrants
import SlimeOs.StoreHandle
import SlimeOs.StreamFraming
import SlimeOs.StreamRing
import SlimeOs.SubscriberHistory
import SlimeOs.TcpBudgets
import SlimeOs.TcpIsolation
import SlimeOs.TimerDeadlines
import SlimeOs.WaitSetReadiness
