import DnsGateway.Bpf.Frame
import DnsGateway.Cmd.Shutdown
import DnsGateway.LetterCase
import DnsGateway.System.Accounting
import DnsGateway.System.Retransmit
import DnsGateway.Bpf.Rewrite
import DnsGateway.System.Rollback
import DnsGateway.Dnsenc.RoundTrip
import DnsGateway.Ebpf.Attach
import DnsGateway.Controller.Pipeline
import DnsGateway.Netlinkmon.Resync
import DnsGateway.Cmd.Teardown
import DnsGateway.Liveness
import DnsGateway.Config.Validate
import DnsGateway.Cmd.Startup
import DnsGateway.Bpf.Masks
import DnsGateway.System.Isolation
import DnsGateway.Ebpf.Pairing
import DnsGateway.Netlinkmon.Lifecycle
import DnsGateway.Cmd.Daemon
import DnsGateway.Cmd.Exit
import DnsGateway.Reasoning.Interleave
import DnsGateway.Smp.Answers
import DnsGateway.Smp.Drain
import DnsGateway.Smp.Exchange
import DnsGateway.Metrics.Collector
import DnsGateway.Cmd.Policy
