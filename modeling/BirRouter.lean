import BirRouter.Arp
import BirRouter.ArpCache
import BirRouter.ArpLookup
import BirRouter.ArpReceive
import BirRouter.ArpSync
import BirRouter.BoundedResponse
import BirRouter.Checksum
import BirRouter.Cli
import BirRouter.CliBuffers
import BirRouter.CliCommands
import BirRouter.CliFraming
import BirRouter.CliPing
import BirRouter.CliScanner
import BirRouter.Datagrams
import BirRouter.Datapath.InputArbiter
import BirRouter.Datapath.OutputQueue
import BirRouter.Datapath.OutputQueues
import BirRouter.Dataqueue
import BirRouter.DataqueueLock
import BirRouter.Djikstra
import BirRouter.Dns
import BirRouter.DnsPersistence
import BirRouter.DnsReceive
import BirRouter.DnsResponses
import BirRouter.DnsWire
import BirRouter.EchoReply
import BirRouter.Expiry
import BirRouter.Flooding
import BirRouter.FloodingRuns
import BirRouter.Forwarding
import BirRouter.FrameReads
import BirRouter.Freshness
import BirRouter.Hardware
import BirRouter.HardwareRoutes
import BirRouter.HostNames
import BirRouter.IcmpMessages
import BirRouter.IcmpSources
import BirRouter.Ip
import BirRouter.IpHeader
import BirRouter.IpTable
import BirRouter.IpVerdict
import BirRouter.Lib.BitField
import BirRouter.Lib.CArray
import BirRouter.Lib.CString
import BirRouter.Lib.Clocked
import BirRouter.Lib.Dijkstra
import BirRouter.Lib.Distinct
import BirRouter.Lib.FirstMatch
import BirRouter.Lib.Frames
import BirRouter.Lib.Labels
import BirRouter.Lib.Layout
import BirRouter.Lib.Linked
import BirRouter.Lib.Loop
import BirRouter.Lib.Memory
import BirRouter.Lib.Merge
import BirRouter.Lib.Network
import BirRouter.Lib.Occurrences
import BirRouter.Lib.OnesComplement
import BirRouter.Lib.Prefetch
import BirRouter.Lib.Purge
import BirRouter.Lib.Ring
import BirRouter.Lib.Sweep
import BirRouter.Lib.Trace
import BirRouter.LinkState
import BirRouter.LsuChecks
import BirRouter.LsuCopies
import BirRouter.LsuRoundTrip
import BirRouter.Lwip.Heap
import BirRouter.Lwip.HeapBlocks
import BirRouter.Lwip.HeapCalls
import BirRouter.Lwip.HeapRuns
import BirRouter.Lwip.Mailbox
import BirRouter.Lwip.Timeouts
import BirRouter.Neighbours
import BirRouter.Noninterference
import BirRouter.OutputPort.ArpStages
import BirRouter.OutputPort.ChecksumStages
import BirRouter.OutputPort.Counters
import BirRouter.OutputPort.CpuPackets
import BirRouter.OutputPort.DropRuns
import BirRouter.OutputPort.DropStages
import BirRouter.OutputPort.Fifo
import BirRouter.OutputPort.HeaderTiming
import BirRouter.OutputPort.HeaderWords
import BirRouter.OutputPort.Isolated
import BirRouter.OutputPort.LookupRuns
import BirRouter.OutputPort.LookupStages
import BirRouter.OutputPort.MacFilter
import BirRouter.OutputPort.Pipeline
import BirRouter.OutputPort.PipelineFacts
import BirRouter.OutputPort.Reached
import BirRouter.OutputPort.Routing
import BirRouter.OutputPort.StageFacts
import BirRouter.OutputPort.Stream
import BirRouter.OutputPort.Tables
import BirRouter.Packets
import BirRouter.PendingRelease
import BirRouter.PendingRetry
import BirRouter.Pings
import BirRouter.Pwospf
import BirRouter.ReadSearch
import BirRouter.Reflooding
import BirRouter.Relaying
import BirRouter.RouteTable
import BirRouter.Router
import BirRouter.Routes
import BirRouter.Sending
import BirRouter.ShortestRoutes
import BirRouter.SubnetGraph
import BirRouter.Transport
import BirRouter.WorkQueue
