import Sentrix.Lib.Dict
import Sentrix.Lib.Samples
import Sentrix.Features.OnlineStats

/-!
# The feature extractors

The seven modules of `features/` that turn parsed packets into feature vectors.
Each extractor is a state with an `update` for a packet (or a parsed layer) and
an `extract` that answers a vector. A vector is a dictionary in the source; here
it is a structure of optional fields, since the detectors read dictionaries with
`get` and a default and may be given vectors with keys missing. The extractors
fill in every field.
-/

namespace Sentrix

/-! ### Parsed packets -/

/-- The transport protocols the packet parser tells apart. -/
inductive Protocol
  | tcp | udp | icmp
deriving DecidableEq

/-- The metadata `parse_packet` extracts, as far as the features read it. -/
structure ParsedPacket where
  srcIp : String
  dstIp : String
  ipLen : ℕ
  protocol : Option Protocol
  srcPort : ℕ
  dstPort : ℕ
  tcpFlags : ℕ
  /-- `orig_pkts`, a key the parser does not set. -/
  origPkts : Option ℕ

/-- A query of a parsed DNS message; the type is its number. -/
structure DnsQuery where
  name : String
  type : ℕ

/-- What `parse_dns` answers, as far as the features read it. -/
structure DnsMessage where
  queries : List DnsQuery
  /-- `nxdomain`, a key the parser does not set. -/
  nxdomain : Bool

/-- What `parse_tls_handshake` answers, as far as the features read it. -/
structure TlsHandshake where
  sni : Option String

variable {K : Type} [Field K] [LinearOrder K]

/-! ### DDoS -/

structure DdosVector (K : Type) where
  srcIpEntropy : Option K
  dstPktEwma : Option K
  dstByteEwma : Option K
  synSynackRatio : Option K
  ampByteRatio : Option K

/-- An entry of `dst_state`. -/
structure DstState (K : Type) where
  pktEwma : Ewma K
  byteEwma : Ewma K
  lastTime : K

/-- `DDoSFeatureExtractor`. -/
structure DdosExtractor (K : Type) where
  srcIpEntropyCms : CountMinSketch
  dstState : Dict String (DstState K)
  synCount : ℕ
  synAckCount : ℕ
  ampReqBytes : ℕ
  ampResBytes : ℕ

namespace DdosExtractor

def new : DdosExtractor K := ⟨.new 1024 4, Dict.empty, 0, 0, 0, 0⟩

/-- The entry of the packet's destination, touched and fed with the packet. -/
def touch (s : DdosExtractor K) (p : ParsedPacket) (currentTime : K) : DstState K :=
  let entry : DstState K := match s.dstState.get? p.dstIp with
    -- the first packet to this destination
    | none => ⟨.new (1 / 5), .new (1 / 5), currentTime⟩
    | some e => { e with lastTime := currentTime }
  { entry with
    pktEwma := entry.pktEwma.update (p.origPkts.getD 1)
    byteEwma := entry.byteEwma.update p.ipLen }

def update (hash : SketchHash) (s : DdosExtractor K) (p : ParsedPacket) (currentTime : K) :
    DdosExtractor K where
  srcIpEntropyCms := s.srcIpEntropyCms.add hash p.srcIp 1
  dstState := s.dstState.set p.dstIp (s.touch p currentTime)
  synCount := if p.protocol = some .tcp ∧ p.tcpFlags = 2 then s.synCount + 1 else s.synCount
  synAckCount :=
    if p.protocol = some .tcp ∧ p.tcpFlags = 18 then s.synAckCount + 1 else s.synAckCount
  ampReqBytes :=
    if p.protocol = some .udp ∧ p.dstPort = 53 then s.ampReqBytes + p.ipLen else s.ampReqBytes
  ampResBytes :=
    -- the source's `elif`: a packet from port 53 to port 53 is a request
    if p.protocol = some .udp ∧ p.dstPort ≠ 53 ∧ p.srcPort = 53 then s.ampResBytes + p.ipLen
    else s.ampResBytes

def extract (math : PyMath K) (s : DdosExtractor K) (dstIp : String) : DdosVector K where
  srcIpEntropy := some (s.srcIpEntropyCms.approximateEntropy math)
  dstPktEwma := some ((s.dstState.get? dstIp).elim 0 fun e => e.pktEwma.get)
  dstByteEwma := some ((s.dstState.get? dstIp).elim 0 fun e => e.byteEwma.get)
  synSynackRatio := some (s.synCount / (max 1 s.synAckCount : ℕ))
  ampByteRatio := some (s.ampResBytes / (max 1 s.ampReqBytes : ℕ))

def resetWindowCounters (s : DdosExtractor K) : DdosExtractor K :=
  { s with synCount := 0, synAckCount := 0, ampReqBytes := 0, ampResBytes := 0 }

def sweepStaleState (s : DdosExtractor K) (currentTime ttl : K) : DdosExtractor K :=
  { s with dstState := s.dstState.retain fun _ e => !decide (currentTime - e.lastTime > ttl) }

end DdosExtractor

/-! ### Beaconing -/

structure BeaconingVector (K : Type) where
  meanIat : Option K
  iatCv : Option K
  dstFanIn : Option K

/-- An entry of `flow_iats`. -/
structure FlowIat (K : Type) where
  lastTime : K
  welford : Welford K

/-- `BeaconingFeatureExtractor`. -/
structure BeaconingExtractor (K : Type) where
  flowIats : Dict String (FlowIat K)
  dstFanInCms : CountMinSketch

namespace BeaconingExtractor

def new : BeaconingExtractor K := ⟨Dict.empty, .new 512 3⟩

def pair (srcIp dstIp : String) : String := srcIp ++ "->" ++ dstIp

/-- The pair's entry after a packet at the given time. -/
def touch (entry : Option (FlowIat K)) (currentTime : K) : FlowIat K :=
  match entry with
  | none => ⟨currentTime, .new⟩
  | some e =>
    let iat := currentTime - e.lastTime
    -- equal and backward times count as no gap
    ⟨currentTime, if iat > 0 then e.welford.update iat else e.welford⟩

def update (hash : SketchHash) (s : BeaconingExtractor K) (p : ParsedPacket) (currentTime : K) :
    BeaconingExtractor K where
  flowIats := s.flowIats.set (pair p.srcIp p.dstIp)
    (touch (s.flowIats.get? (pair p.srcIp p.dstIp)) currentTime)
  dstFanInCms := s.dstFanInCms.add hash p.dstIp 1

/-- The mean gap of a pair and its coefficient of variation. -/
def timing (math : PyMath K) (entry : Option (FlowIat K)) : K × K :=
  match entry with
  | none => (0, 0)
  | some e =>
    -- a single gap has no variation yet
    if e.welford.count > 1 then
      let meanIat := e.welford.mean
      (meanIat, if meanIat > 0 then e.welford.getStddev math / meanIat else 0)
    else (0, 0)

def extract (hash : SketchHash) (math : PyMath K) (s : BeaconingExtractor K)
    (srcIp dstIp : String) : BeaconingVector K where
  meanIat := some (timing math (s.flowIats.get? (pair srcIp dstIp))).1
  iatCv := some (timing math (s.flowIats.get? (pair srcIp dstIp))).2
  -- the sketch has rows, so the minimum is a number
  dstFanIn := some (((s.dstFanInCms.get hash dstIp).untopD 0 : ℕ) : K)

def sweepStaleState (s : BeaconingExtractor K) (currentTime ttl : K) : BeaconingExtractor K :=
  { s with flowIats := s.flowIats.retain fun _ e => !decide (currentTime - e.lastTime > ttl) }

end BeaconingExtractor

/-! ### DGA -/

structure DgaVector (K : Type) where
  avgQueryLength : Option K
  avgQueryEntropy : Option K
  nxdomainRate : Option K

/-- `DGADNSFeatureExtractor`. -/
structure DgaExtractor (K : Type) where
  nxdomainEwma : Ewma K
  queryLengthEwma : Ewma K
  queryEntropyEwma : Ewma K

namespace DgaExtractor

def new : DgaExtractor K := ⟨.new (1 / 10), .new (1 / 10), .new (1 / 10)⟩

/-- `_shannon_entropy`: the characters' frequencies, in the order they occur. -/
def shannonEntropy (math : PyMath K) (s : String) : K :=
  if s = "" then 0
  else
    s.toList.eraseDups.foldl (fun (ent : K) c =>
      let p : K := (s.toList.count c : K) / (s.length : K)
      ent - p * math.log2 p) 0

/-- One query; nameless ones are skipped. -/
def addQuery (math : PyMath K) (s : DgaExtractor K) (q : DnsQuery) : DgaExtractor K :=
  if q.name = "" then s
  else
    { s with
      queryLengthEwma := s.queryLengthEwma.update q.name.length
      queryEntropyEwma := s.queryEntropyEwma.update (shannonEntropy math q.name) }

def update (math : PyMath K) (s : DgaExtractor K) (dns : DnsMessage) : DgaExtractor K :=
  let s := dns.queries.foldl (addQuery math) s
  { s with nxdomainEwma := s.nxdomainEwma.update (if dns.nxdomain then 1 else 0) }

def extract (s : DgaExtractor K) : DgaVector K where
  avgQueryLength := some s.queryLengthEwma.get
  avgQueryEntropy := some s.queryEntropyEwma.get
  nxdomainRate := some s.nxdomainEwma.get

end DgaExtractor

/-! ### Encrypted traffic -/

structure EncryptedVector (K : Type) where
  packetSizes : Option (List K)
  packetIpts : Option (List K)
  sniLengthEwma : Option K

/-- `EncryptedMetaFeatureExtractor`. -/
structure EncryptedExtractor (K : Type) where
  packetSizes : List K
  packetTimings : List K
  maxPacketHistory : ℕ
  sniEntropyEwma : Ewma K

namespace EncryptedExtractor

def new : EncryptedExtractor K := ⟨[], [], 10, .new (1 / 5)⟩

def update (s : EncryptedExtractor K) (p : ParsedPacket) (tls : TlsHandshake) (currentTime : K) :
    EncryptedExtractor K where
  packetSizes :=
    -- only the first packets are kept, and both histories stop at once
    if s.packetSizes.length < s.maxPacketHistory then s.packetSizes ++ [(p.ipLen : K)]
    else s.packetSizes
  packetTimings :=
    if s.packetSizes.length < s.maxPacketHistory then s.packetTimings ++ [currentTime]
    else s.packetTimings
  maxPacketHistory := s.maxPacketHistory
  sniEntropyEwma :=
    match tls.sni with
    | none => s.sniEntropyEwma
    | some sni => if sni = "" then s.sniEntropyEwma else s.sniEntropyEwma.update sni.length

def extract (s : EncryptedExtractor K) : EncryptedVector K where
  packetSizes := some s.packetSizes
  packetIpts := some (gaps s.packetTimings)
  sniLengthEwma := some s.sniEntropyEwma.get

end EncryptedExtractor

/-! ### Reconnaissance -/

structure ReconVector (K : Type) where
  synOnlyRatio : Option K
  scanActivityScore : Option K

/-- `ReconScanFeatureExtractor`. -/
structure ReconExtractor where
  distinctPortsCms : CountMinSketch
  distinctHostsCms : CountMinSketch
  synCount : ℕ
  totalTcpCount : ℕ

namespace ReconExtractor

def new : ReconExtractor := ⟨.new 1024 4, .new 1024 4, 0, 0⟩

def update (hash : SketchHash) (s : ReconExtractor) (p : ParsedPacket) : ReconExtractor where
  distinctPortsCms := s.distinctPortsCms.add hash (p.srcIp ++ ":" ++ toString p.dstPort) 1
  distinctHostsCms := s.distinctHostsCms.add hash (p.srcIp ++ ":" ++ p.dstIp) 1
  synCount := if p.protocol = some .tcp ∧ p.tcpFlags = 2 then s.synCount + 1 else s.synCount
  totalTcpCount := if p.protocol = some .tcp then s.totalTcpCount + 1 else s.totalTcpCount

/-- The source takes the source address as well and does not read it. -/
def extract (s : ReconExtractor) : ReconVector K :=
  let synRatio : K := (s.synCount : K) / (max 1 s.totalTcpCount : ℕ)
  ⟨some synRatio, some (synRatio * s.synCount)⟩

end ReconExtractor

/-! ### Exfiltration -/

structure ExfilVector (K : Type) where
  outboundBytesEwma : Option K
  inboundBytesEwma : Option K
  outboundInboundRatio : Option K

/-- `ExfiltrationFeatureExtractor`. -/
structure ExfilExtractor (K : Type) where
  outboundBytesEwma : Ewma K
  inboundBytesEwma : Ewma K

namespace ExfilExtractor

def new : ExfilExtractor K := ⟨.new (1 / 10), .new (1 / 10)⟩

def update (s : ExfilExtractor K) (p : ParsedPacket) (isOutbound : Bool) : ExfilExtractor K :=
  if isOutbound then { s with outboundBytesEwma := s.outboundBytesEwma.update p.ipLen }
  else { s with inboundBytesEwma := s.inboundBytesEwma.update p.ipLen }

def extract (s : ExfilExtractor K) : ExfilVector K where
  outboundBytesEwma := some s.outboundBytesEwma.get
  inboundBytesEwma := some s.inboundBytesEwma.get
  outboundInboundRatio := some (s.outboundBytesEwma.get / max 1 s.inboundBytesEwma.get)

end ExfilExtractor

/-! ### DNS exfiltration -/

structure DnsExfilVector (K : Type) where
  txtCnameRate : Option K
  txtCnameAvgLen : Option K
  txtCnameAvgEntropy : Option K

/-- `DNSExfiltrationFeatures`. -/
structure DnsExfilExtractor (K : Type) where
  txtCnameQueries1m : ℕ
  totalQueryLen1m : ℕ
  totalEntropy1m : K

namespace DnsExfilExtractor

def new : DnsExfilExtractor K := ⟨0, 0, 0⟩

/-- `_shannon_entropy`, written as a sum over the distinct characters. -/
def shannonEntropy (math : PyMath K) (s : String) : K :=
  let prob : List K := s.toList.eraseDups.map fun c => (s.toList.count c : K) / (s.length : K)
  if s = "" then 0 else -(prob.map fun p => p * math.log2 p).sum

/-- One query; only TXT (16) and CNAME (5) are counted. -/
def addQuery (math : PyMath K) (s : DnsExfilExtractor K) (q : DnsQuery) : DnsExfilExtractor K :=
  if q.type = 16 ∨ q.type = 5 then
    { txtCnameQueries1m := s.txtCnameQueries1m + 1
      totalQueryLen1m := s.totalQueryLen1m + q.name.length
      totalEntropy1m := s.totalEntropy1m + shannonEntropy math q.name }
  else s

def update (math : PyMath K) (s : DnsExfilExtractor K) (dns : DnsMessage) (isNewMinute : Bool) :
    DnsExfilExtractor K :=
  -- the minute's totals start over with this message, not after it
  dns.queries.foldl (addQuery math) (if isNewMinute then new else s)

def extract (s : DnsExfilExtractor K) : DnsExfilVector K where
  txtCnameRate := some s.txtCnameQueries1m
  txtCnameAvgLen :=
    some (if s.txtCnameQueries1m > 0 then (s.totalQueryLen1m : K) / s.txtCnameQueries1m else 0)
  txtCnameAvgEntropy :=
    some (if s.txtCnameQueries1m > 0 then s.totalEntropy1m / s.txtCnameQueries1m else 0)

end DnsExfilExtractor

end Sentrix
