import Relayer.BitMaskProofs
import Relayer.TransitionProofs
import Relayer.LinearFormsProofs
import Relayer.MessageProofs
import Relayer.Sha256Proofs
import Relayer.LeaderProofs
import Relayer.BlsProofs
import Relayer.SessionProofs
import Relayer.AccumulatorProofs
import Relayer.FaultProofs
import Relayer.SetupProofs
import Relayer.NewSessionProofs
import Relayer.AdversaryProofs
import Relayer.EpochProofs
import Relayer.DeliveryProofs
import Relayer.LogCacheProofs
import Relayer.WatcherProofs
import Relayer.ClientProofs
import Relayer.SignalProofs
import Relayer.HandoverProofs
import Relayer.HonestProofs
import Relayer.NonceProofs
import Relayer.MapProofs
import Relayer.QuitHandlersProofs
import Relayer.SpreadProofs
import Relayer.ChainsProofs
import Relayer.ForwardProofs
import Relayer.TopicProofs
import Relayer.MerkleProofs
import Relayer.ReconnectProofs
import Relayer.CloseProofs
import Relayer.WireProofs
import Relayer.ConnectProofs
import Relayer.RawdbProofs
import Relayer.LookupProofs
import Relayer.HeapProofs
import Relayer.PoolProofs
import Relayer.ReceiverProofs
import Relayer.HeaderProofs
import Relayer.AdmissionProofs
import Relayer.DurationProofs
import Relayer.ScheduleProofs
import Relayer.UptimeProofs
import Relayer.PendingProofs
import Relayer.Bytes32Proofs
import Relayer.ConsecutiveProofs
import Relayer.SortedMapProofs
import Relayer.PoolLoopProofs
import Relayer.HonestLiveProofs
import Relayer.LifecycleProofs
import Relayer.PubSubProofs
import Relayer.GsnClientProofs
import Relayer.HandlerProofs
import Relayer.KeyFilesProofs
import Relayer.RestartProofs
import Relayer.DeferProofs
import Relayer.ProcessProofs
import Relayer.ReceiptProofs
import Relayer.BootstrapProofs
import Relayer.DiscoveryProofs
import Relayer.RegisterProofs
import Relayer.SettingsProofs
