import Mathlib.Data.Vector.Basic
import DnsGateway.Reasoning.HashTable
import DnsGateway.Reasoning.Bytes

/-!
# Shared types of the datapath (`bpf/dns_gateway.h`)

Multi-byte packet and map fields hold the bytes of the wire read as little-endian integers: the
objects are built for x86 and the programs compare these fields without conversion.
-/

namespace DnsGateway.Bpf

open DnsGateway.Reasoning

def tcActOk : Int := 0

def ethPIp : UInt16 := 0x0800
def ethHlen : Nat := 14
def ipprotoUdp : UInt8 := 17

def maxDnsNameLen : Nat := 128
def maxLabels : Nat := 10

/-- Lifetime of a conntrack entry in nanoseconds. -/
def conntrackTtlNs : UInt64 := 5 * 1000 * 1000 * 1000

def actionHostResolve : UInt32 := 1
def actionClusterResolve : UInt32 := 2

/-- `enum metric_id`. -/
inductive MetricId where
  | totalPackets
  | dnsQueries
  | suffixMatch
  | suffixNoMatch
  | bypassActive
  | parseError
  | egressSnat
  | egressConntrackMiss
  | egressTotal
  | natError
  | natRevertFail
  | redirected
  | clusterResolved
  deriving DecidableEq, Repr

/-- A name buffer of `MAX_DNS_NAME_LEN` bytes. -/
abbrev NameBuf := List.Vector UInt8 maxDnsNameLen

structure SuffixKey where
  name : NameBuf
  deriving DecidableEq

structure SuffixValue where
  action : UInt32
  pad : UInt32 := 0
  deriving DecidableEq, Repr

structure GatewayConfig where
  corednsIp : UInt32
  hostResolverIp : UInt32
  dnsPort : UInt16
  bypass : UInt16
  defaultAction : UInt32
  deriving DecidableEq, Repr

structure ConntrackKey where
  podIp : UInt32
  podPort : UInt16
  txid : UInt16
  deriving DecidableEq, Repr

structure ConntrackValue where
  corednsIp : UInt32
  pad : UInt32 := 0
  timestampNs : UInt64
  deriving DecidableEq, Repr

structure ScratchBuf where
  qname : NameBuf
  lookup : NameBuf

/-- `suffix_rules` has room for 1024 entries. -/
abbrev SuffixRules := HashTable 1024 SuffixKey SuffixValue

/-- `conntrack_map`.  Its LRU eviction is an event of its own in the runs below, so the table
carries no capacity here. -/
abbrev ConntrackMap := Finmap fun _ : ConntrackKey => ConntrackValue

/-- The maps both programs share.  `metricsMap` is the per-CPU array summed over the CPUs;
`scratchMap` is the slot of the CPU the program runs on. -/
structure Maps where
  suffixRules : SuffixRules
  configMap : GatewayConfig
  conntrackMap : ConntrackMap
  metricsMap : MetricId → Nat
  scratchMap : ScratchBuf

end DnsGateway.Bpf
