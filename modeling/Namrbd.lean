import Namrbd.Control.WriteSessionProto
import Namrbd.Gateway.ChangeWatch
import Namrbd.Gateway.GatewayFleet
import Namrbd.Gateway.PathFailover
import Namrbd.Gateway.RangeChecks
import Namrbd.Service.SessionProxy
import Namrbd.Service.WriteIntentQueue
import Namrbd.Verify.Attachments
import Namrbd.Verify.CachedMetadata
import Namrbd.Verify.ChunkIDs
import Namrbd.Verify.CloneLifecycle
import Namrbd.Verify.DrainProgress
import Namrbd.Verify.EffectsReplay
import Namrbd.Verify.Interleaving
import Namrbd.Verify.Leader
import Namrbd.Verify.ObjectStore
import Namrbd.Verify.PageCompression
import Namrbd.Verify.PageRevisions
import Namrbd.Verify.PhysicalChunkWrites
import Namrbd.Verify.ProtectedVolumes
import Namrbd.Verify.QuorumEarly
import Namrbd.Verify.RemoteRead
import Namrbd.Verify.RemoteTransfer
import Namrbd.Verify.RetiredChunks
import Namrbd.Verify.Revisions
import Namrbd.Verify.Sessions
import Namrbd.Verify.Summary
import Namrbd.Verify.ViewIsolation
import Namrbd.Verify.VolumeRecord
import Namrbd.Verify.VolumeUpdates
import Namrbd.Verify.WorkLease
import Namrbd.Verify.WriteEffectsQueue
import Namrbd.Verify.WriteState
import Namrbd.Verify.ZeroEvidence
