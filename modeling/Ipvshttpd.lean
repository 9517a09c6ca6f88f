import Ipvshttpd.Resumption.Proofs.InterleaveProofs
import Ipvshttpd.Observation
import Ipvshttpd.Verdict
import Ipvshttpd.ReadLoop
import Ipvshttpd.Lifecycle
import Ipvshttpd.Threads
import Ipvshttpd.Proofs.ResponseProofs
import Ipvshttpd.Proofs.RequestHandlerProofs
import Ipvshttpd.Proofs.LifecycleProofs
import Ipvshttpd.Proofs.ReadLoopProofs
import Ipvshttpd.Proofs.LibipvsProofs
import Ipvshttpd.Proofs.TargetProofs
import Ipvshttpd.Concurrency
import Ipvshttpd.Protocol
import Ipvshttpd.Proofs.ProtocolProofs
import Ipvshttpd.Proofs.ThreadsProofs
import Ipvshttpd.Proofs.ConcurrencyProofs
import Ipvshttpd.CLib.Proofs.CStringProofs
import Ipvshttpd.Proofs.StringToolsProofs
import Ipvshttpd.Proofs.ConfigurationProofs
import Ipvshttpd.Proofs.StartupProofs
import Ipvshttpd.Proofs.ContentLengthProofs
import Ipvshttpd.ConfigText
import Ipvshttpd.Proofs.ConfigTextProofs
import Ipvshttpd.Proofs.PaddingProofs
import Ipvshttpd.CommandLine
import Ipvshttpd.Proofs.CommandLineProofs
import Ipvshttpd.Destination
import Ipvshttpd.Proofs.DestinationProofs
import Ipvshttpd.ServiceText
import Ipvshttpd.Proofs.ServiceTextProofs
import Ipvshttpd.Proofs.ServiceGrammarProofs
import Ipvshttpd.CLib.Inet
import Ipvshttpd.CLib.Proofs.InetProofs
import Ipvshttpd.Proofs.RenderingProofs
import Ipvshttpd.Repetition
import Ipvshttpd.Proofs.RepetitionProofs
import Ipvshttpd.Proofs.SplittingProofs
import Ipvshttpd.Transcript
import Ipvshttpd.Proofs.TranscriptProofs
import Ipvshttpd.Arguments
import Ipvshttpd.Proofs.ArgumentsProofs
import Ipvshttpd.LogLevels
import Ipvshttpd.Proofs.LogLevelsProofs
import Ipvshttpd.Netlink.Proofs.AttributeProofs
import Ipvshttpd.Netlink.Proofs.TlvProofs
import Ipvshttpd.NlCalls
import Ipvshttpd.Resumption.Proofs.StatefulProofs
import Ipvshttpd.LibipvsCommands
import Ipvshttpd.LibipvsTables
import Ipvshttpd.Proofs.NlCallsProofs
import Ipvshttpd.LibipvsMeaning
import Ipvshttpd.Proofs.LibipvsCommandsProofs
import Ipvshttpd.Proofs.LibipvsMeaningProofs
import Ipvshttpd.Proofs.LibipvsRunProofs
import Ipvshttpd.Proofs.LibipvsTablesProofs
import Ipvshttpd.Resumption.Proofs.HandlerProofs
import Ipvshttpd.LibipvsRecords
import Ipvshttpd.LibipvsClient
import Ipvshttpd.Proofs.LibipvsRecordsProofs
import Ipvshttpd.Proofs.LibipvsClientProofs
import Ipvshttpd.LibipvsKernel
import Ipvshttpd.Proofs.LibipvsKernelProofs
import Ipvshttpd.Delivery
import Ipvshttpd.Proofs.DeliveryProofs
import Ipvshttpd.Proofs.LibipvsRoundTripProofs
import Ipvshttpd.Proofs.LibipvsOverreadProofs
import Ipvshttpd.IpvsLifetime
import Ipvshttpd.Proofs.IpvsLifetimeProofs
