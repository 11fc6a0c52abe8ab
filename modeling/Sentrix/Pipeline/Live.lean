import Sentrix.Alerting.Normalizer
import Sentrix.Alerting.StoreRefinement
import Sentrix.Features.GreedyWindows
import Sentrix.Inference.FastPath
import Sentrix.Ingest.ReplayLoop
import Sentrix.Parsers.Packet
import Sentrix.Pipeline.Backpressure
import Sentrix.Pipeline.Shutdown

/-!
# The stages of the live pipeline

What the threads of `run_e2e_pipeline` do with packets, tasks and alerts. The main thread
gives a packet the next time of a simulated clock, parses it and feeds the scheduler, whose
windows are shortened to a tenth of a second, half a second and a second; the worker evaluates
a vector on the fast path, normalises and correlates what it flags; the writer appends to an
`AlertStore` that flushes every fifty alerts.

The encrypted-traffic vector shares its list of packet sizes with the extractor, so sizes of
later packets may be in it by the time the worker reads it (`LiveEnv.grown`).
-/

namespace Sentrix

/-- The surroundings of a run: third-party decoders and numerics, the models, the ids that are
drawn and what the worker finds in a shared list. -/
structure LiveEnv where
  dpkt : Parsers.Dpkt
  /-- `parse_dns` and `parse_tls_handshake`; an exception is an `error`. -/
  parseDns : List UInt8 → Except Unit (Option DnsMessage)
  parseTls : List UInt8 → Except Unit (Option TlsHandshake)
  hash : SketchHash
  math : PyMath ℚ
  runtime : Runtime ℚ
  engine : OnnxEngine ℚ
  models : FallbackModels ℚ
  normalizer : AlertNormalizer
  coercions : Coercions
  setOrder : SetOrder String
  /-- The id drawn in an evaluation. -/
  alertId : ℕ → String
  /-- The packet sizes that were added to a vector before its evaluation. -/
  grown : ℕ → List ℚ
  /-- Whether the store's notifier has a `webhook_url`. -/
  webhook : Bool

/-- An entry of a batch: the vector, the packet's metadata and its time. -/
structure InferenceTask where
  feats : FeatureDict ℚ
  packetMeta : Parsers.PacketMeta
  ts : ℚ

/-- What firing reads and writes. -/
structure LiveFeed where
  simClock : ℚ
  prevRawTs : Option ℚ
  scheduler : FeatureScheduler ℚ

/-- What the evaluation of a task reads and writes; `drawn` counts the evaluations. -/
structure LiveBench where
  correlator : Correlator
  drawn : ℕ

abbrev LiveState : Type :=
  PipelineState BankPacket InferenceTask AlertRecord LiveFeed LiveBench AlertStore

/-- What the extractors read of the metadata. -/
def Parsers.PacketMeta.info (m : Parsers.PacketMeta) : ParsedPacket where
  srcIp := m.srcIp
  dstIp := m.dstIp
  ipLen := m.ipLen
  protocol :=
    if m.protocol = some "TCP" then some .tcp
    else if m.protocol = some "UDP" then some .udp
    else if m.protocol = some "ICMP" then some .icmp
    else none
  srcPort := m.srcPort
  dstPort := m.dstPort
  tcpFlags := m.tcpFlags
  origPkts := none

/-- `clean_meta`: the metadata without the payload. -/
def Parsers.PacketMeta.clean (m : Parsers.PacketMeta) : List (String × Value) :=
  [("src_ip", .str m.srcIp), ("dst_ip", .str m.dstIp), ("ip_len", .num m.ipLen),
    ("protocol", m.protocol.elim .none .str), ("src_port", .num m.srcPort),
    ("dst_port", .num m.dstPort), ("tcp_flags", .num m.tcpFlags)]

/-- The vector as the worker finds it. -/
def FeatureDict.grow (sizes : List ℚ) : FeatureDict ℚ → FeatureDict ℚ
  | .encrypted v => .encrypted { v with packetSizes := v.packetSizes.map (· ++ sizes) }
  | fd => fd

namespace Live

variable (env : LiveEnv)

/-- `FeatureScheduler(window_1s=0.1, window_5s=0.5, window_60s=1.0)`. -/
def schedulerConfig : SchedulerConfig ℚ where
  window1s := 1 / 10
  window5s := 1 / 2
  window60s := 1
  hash := env.hash
  math := env.math

/-- The layer parsed out of a payload, if the packet is of the protocol and one of its ports is
the given one. -/
def layer {β : Type} (parse : List UInt8 → Except Unit (Option β)) (protocol : String) (port : ℕ)
    (m : Parsers.PacketMeta) : Except Unit (Option β) :=
  if m.protocol = some protocol ∧ (m.dstPort = port ∨ m.srcPort = port) then parse m.payload
  else .ok none

/-- The body of the loop over the packets, up to the batches. -/
def fire (s : LiveFeed) (p : BankPacket) : Except Unit (LiveFeed × List InferenceTask) := do
  let simClock := s.simClock + ReplayLoop.dt s.prevRawTs p.1
  let s := { s with simClock := simClock, prevRawTs := some p.1 }
  match ← Parsers.parsePacket env.dpkt p.2 with
  | none => return (s, [])
  | some packetMeta =>
    let dns ← layer env.parseDns "UDP" 53 packetMeta
    let tls ← layer env.parseTls "TCP" 443 packetMeta
    let r := s.scheduler.processPacket (schedulerConfig env) ⟨packetMeta.info, simClock, dns, tls⟩
    return ({ s with scheduler := r.1 }, r.2.map fun feats => ⟨feats, packetMeta, simClock⟩)

/-- The alert an evaluation is normalised to. -/
def buildAlert (drawn : ℕ) (t : InferenceTask) (v : Verdict ℚ) : Option AlertRecord :=
  env.normalizer.normalize env.coercions (env.alertId drawn) t.feats.detector v.score
    (v.featuresUsed.map fun f => (f.1, .num f.2)) v.explanation t.packetMeta.clean (.num t.ts)
    none none

/-- The body of the loop over a batch, up to the put. -/
def work (s : LiveBench) (t : InferenceTask) : LiveBench × WorkResult AlertRecord :=
  let s' := { s with drawn := s.drawn + 1 }
  match inferenceTask env.runtime env.engine env.models (t.feats.grow (env.grown s.drawn)) with
  | none => (s', .raised)
  | some v =>
    if v.explanation ≠ "" ∧ v.score > 1 / 2 then
      match buildAlert env s.drawn t v with
      | none => (s', .raised)
      | some alert =>
        let r := Correlator.process 600 env.setOrder s.correlator alert
        ({ s' with correlator := r.1 }, .alert r.2)
    else (s', .quiet)

/-- Whether a call of the store returned. -/
def returned : Answer → Bool
  | .raised _ => false
  | _ => true

/-- `AlertStore(db_path, batch_size=50)`. -/
def storeConfig : StoreConfig := ⟨50, env.webhook⟩

/-- The stages. -/
def stages :
    PipelineStages BankPacket InferenceTask AlertRecord LiveFeed LiveBench AlertStore DbOutcome
    where
  fire s p := (fire env s p).toOption
  work := work env
  append s db a :=
    let r := s.append (storeConfig env) db a
    (r.1, returned r.2)
  flush s db :=
    let r := s.flush db
    (r.1, returned r.2)

/-- A run that starts at the time `now`. -/
def machine (cfg : PipelineConfig BankPacket) (now : ℚ) :
    Machine LiveState (PipelineStep DbOutcome) Unit :=
  Pipeline.machine cfg (stages env) ⟨now, none, .new⟩ ⟨Correlator.empty, 0⟩ AlertStore.empty

end Live

end Sentrix
