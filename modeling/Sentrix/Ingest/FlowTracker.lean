import Mathlib.Algebra.Field.Rat
import Mathlib.Algebra.Order.Ring.Rat
import Sentrix.Lib.Dict
import Sentrix.Lib.Machine
import Sentrix.Lib.Value

/-!
# The ingestor's flow tracker

`FlowTracker` of `ingest/rust-ingestor/src/main.rs`: a table of flow states and
the counters of the current window. `update` accounts a packet to its flow and
to the window, and when the window has lasted `window_size_secs` it answers a
feature record, starts the next window at this packet's time and drops the
flows idle for a minute.

Packet fields and counters keep their widths and wrap as in the release build:
the `u64` counters of flows and of the window, the product `window_bytes * 8`,
and the `u32` counts of the port map, of which only the number of keys is ever
read. A window start of `0.0` is the source's mark for "no window yet". Times
and rates are exact.
-/

namespace Sentrix

/-- `PacketMeta`. -/
structure PacketMeta where
  srcIp : String
  dstIp : String
  srcPort : UInt16
  dstPort : UInt16
  protocol : String
  ipLen : UInt32
  tcpFlags : UInt8
  timestamp : ℚ

/-- `meta.tcp_flags & 0x02 != 0`. -/
def PacketMeta.syn (p : PacketMeta) : Bool := p.tcpFlags &&& 0x02 != 0

/-- `FlowKey`, a 5-tuple. -/
structure FlowKey where
  srcIp : List UInt8
  dstIp : List UInt8
  srcPort : UInt16
  dstPort : UInt16
  protocol : UInt8
deriving DecidableEq

/-- `FlowState`. -/
structure FlowState where
  pktCount : UInt64
  byteCount : UInt64
  synCount : UInt64
  firstSeen : ℚ
  lastSeen : ℚ
  dstPortsSeen : List UInt16

/-- `FeatureRecord`, as published to the `raw-features` topic. -/
structure FeatureRecord where
  srcIp : String
  dstIp : String
  srcPort : UInt16
  dstPort : UInt16
  protocol : String
  timestamp : ℚ
  pktRate1s : ℚ
  byteRate1s : ℚ
  synRate1s : ℚ
  uniqueDstPorts1s : UInt32
  flowDuration : ℚ
  flowPktCount : UInt64
  flowByteCount : UInt64
  ipLen : UInt32
  tcpFlags : UInt8
  isPortScan : Bool
  uniquePortsScanned : UInt32

/-- The JSON object published for a feature record. -/
def FeatureRecord.toJson (r : FeatureRecord) : Value := .dict [
  ("src_ip", .str r.srcIp),
  ("dst_ip", .str r.dstIp),
  ("src_port", .num r.srcPort.toNat),
  ("dst_port", .num r.dstPort.toNat),
  ("protocol", .str r.protocol),
  ("timestamp", .num r.timestamp),
  ("pkt_rate_1s", .num r.pktRate1s),
  ("byte_rate_1s", .num r.byteRate1s),
  ("syn_rate_1s", .num r.synRate1s),
  ("unique_dst_ports_1s", .num r.uniqueDstPorts1s.toNat),
  ("flow_duration", .num r.flowDuration),
  ("flow_pkt_count", .num r.flowPktCount.toNat),
  ("flow_byte_count", .num r.flowByteCount.toNat),
  ("ip_len", .num r.ipLen.toNat),
  ("tcp_flags", .num r.tcpFlags.toNat),
  ("is_port_scan", .bool r.isPortScan),
  ("unique_ports_scanned", .num r.uniquePortsScanned.toNat)]

/-- `FlowTracker`. -/
structure FlowTracker where
  flows : Dict FlowKey FlowState
  windowPkts : UInt64
  windowBytes : UInt64
  windowSyns : UInt64
  windowDstPorts : Dict UInt16 UInt32
  windowStart : ℚ
  windowSizeSecs : ℚ

/-- `str::parse::<u8>`: an optional sign, then digits, at most 255. -/
def parseU8 (s : List Char) : Option UInt8 :=
  let digits := match s with
    | '+' :: rest => rest
    | s => s
  if digits.isEmpty || !digits.all Char.isDigit then none
  else
    let n := digits.foldl (fun n c => 10 * n + (c.toNat - '0'.toNat)) 0
    if n < 256 then some (UInt8.ofNat n) else none

/-- `parse_ip`: the parts that parse, if there are four of them. -/
def parseIp (s : String) : Option (List UInt8) :=
  let parts := (s.toList.splitOn '.').filterMap parseU8
  if parts.length = 4 then some parts else none

namespace FlowTracker

/-- `FlowTracker::new`. -/
def new (windowSizeSecs : ℚ) : FlowTracker where
  flows := Dict.empty
  windowPkts := 0
  windowBytes := 0
  windowSyns := 0
  windowDstPorts := Dict.empty
  windowStart := 0
  windowSizeSecs := windowSizeSecs

/-- The flow a packet belongs to. -/
def keyOf (p : PacketMeta) : FlowKey where
  srcIp := (parseIp p.srcIp).getD [0, 0, 0, 0]
  dstIp := (parseIp p.dstIp).getD [0, 0, 0, 0]
  srcPort := p.srcPort
  dstPort := p.dstPort
  protocol := if p.protocol = "TCP" then 6 else 17

/-- A packet's flow state, from the state in the table if there is one. -/
def updateFlow (p : PacketMeta) (st : Option FlowState) : FlowState :=
  let st := st.getD ⟨0, 0, 0, p.timestamp, p.timestamp, []⟩
  { pktCount := st.pktCount + 1
    byteCount := st.byteCount + p.ipLen.toUInt64
    synCount := if p.syn then st.synCount + 1 else st.synCount
    firstSeen := st.firstSeen
    lastSeen := p.timestamp
    dstPortsSeen :=
      if p.dstPort ∈ st.dstPortsSeen then st.dstPortsSeen else st.dstPortsSeen ++ [p.dstPort] }

/-- The tracker with a packet accounted to its flow and to the window. -/
def account (s : FlowTracker) (p : PacketMeta) : FlowTracker :=
  { s with
    flows := s.flows.set (keyOf p) (updateFlow p (s.flows.get? (keyOf p)))
    windowStart := if s.windowStart = 0 then p.timestamp else s.windowStart
    windowPkts := s.windowPkts + 1
    windowBytes := s.windowBytes + p.ipLen.toUInt64
    windowSyns := if p.syn then s.windowSyns + 1 else s.windowSyns
    windowDstPorts :=
      s.windowDstPorts.set p.dstPort ((s.windowDstPorts.get? p.dstPort).getD 0 + 1) }

/-- The record for a packet that closes the window, `flow` being the packet's
flow state in the table. -/
def record (s : FlowTracker) (p : PacketMeta) (elapsed : ℚ) (flow : FlowState) : FeatureRecord where
  srcIp := p.srcIp
  dstIp := p.dstIp
  srcPort := p.srcPort
  dstPort := p.dstPort
  protocol := p.protocol
  timestamp := p.timestamp
  pktRate1s := s.windowPkts.toNat / max elapsed (1 / 1000)
  byteRate1s := (s.windowBytes * 8).toNat / max elapsed (1 / 1000) / 1000000
  synRate1s := s.windowSyns.toNat / max elapsed (1 / 1000)
  uniqueDstPorts1s := UInt32.ofNat s.windowDstPorts.size
  flowDuration := flow.lastSeen - flow.firstSeen
  flowPktCount := flow.pktCount
  flowByteCount := flow.byteCount
  ipLen := p.ipLen
  tcpFlags := p.tcpFlags
  isPortScan := decide (flow.dstPortsSeen.length > 10)
  uniquePortsScanned := UInt32.ofNat flow.dstPortsSeen.length

/-- The tracker after a window was closed at time `t`: counters reset, flows
idle for a minute evicted. -/
def closeWindow (s : FlowTracker) (t : ℚ) : FlowTracker :=
  { s with
    windowPkts := 0
    windowBytes := 0
    windowSyns := 0
    windowDstPorts := Dict.empty
    windowStart := t
    flows := s.flows.retain fun _ st => decide (t - st.lastSeen < 60) }

/-- `FlowTracker::update`. -/
def update (s : FlowTracker) (p : PacketMeta) : FlowTracker × Option FeatureRecord :=
  let s₁ := s.account p
  let elapsed := p.timestamp - s₁.windowStart
  if elapsed ≥ s₁.windowSizeSecs then
    -- `self.flows.get(&key).unwrap()` is the state `account` has just stored
    let flow := updateFlow p (s.flows.get? (keyOf p))
    (s₁.closeWindow p.timestamp, some (s₁.record p elapsed flow))
  else (s₁, none)

/-- The tracker as a machine that is fed packets. -/
def machine (windowSizeSecs : ℚ) : Machine FlowTracker PacketMeta (Option FeatureRecord) where
  init := new windowSizeSecs
  step := update

end FlowTracker

end Sentrix
