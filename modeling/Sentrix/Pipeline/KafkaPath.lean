import Sentrix.Dashboard.KafkaStream
import Sentrix.Inference.Published
import Sentrix.Ingest.ReplayRun
import Sentrix.Lib.Lists

/-!
# The Kafka path, from the captures to the clients

With Kafka the system is three programs and two topics between them: the ingestor sends records
to `raw-features`, the worker polls these and publishes alerts to `alerts-normalized`, and the
server polls the alerts and sends them to its clients. The programs are verified one by one in
their own modules; here their runs are put together.

What a topic does is an assumption: a consumer is given, each at most once, messages that were
sent, in any order. The ingestor hands each record to a task of its own, so not even the order
of the records is certain. What follows is that no client is shown an alert that is not about
replayed traffic, and that no two alerts, whoever they are shown to, are of one model and about
one window (`alerts_of_windows`).

The alerts go through the second topic as `json.dumps(alert.__dict__, default=str)`: the flow and
the evidence of an alert are models of their own, which JSON does not know, so they are sent as
what `str` makes of them.
-/

namespace Sentrix

/-! ### The records of the windows -/

namespace FlowTracker

variable {w : ℚ}

/-- A record tells the packet that closed its window. -/
theorem timestamp_of_out {s : FlowTracker} {p : PacketMeta} {r : FeatureRecord}
    (h : (machine w).out s p = some r) :
    ∃ elapsed flow, r = (s.account p).record p elapsed flow := by
  have hupdate : (s.update p).2 = some r := h
  unfold update at hupdate
  dsimp only at hupdate
  split at hupdate
  · exact ⟨_, _, (Option.some.inj hupdate).symm⟩
  · cases hupdate

/-- The records are in the order of the packets that closed their windows. -/
theorem timestamps_closed (ps : List PacketMeta) :
    ((cut w ps).closed.map fun x => x.2.timestamp).Sublist (ps.map PacketMeta.timestamp) := by
  induction ps using List.reverseRecOn with
  | nil => exact List.Sublist.refl _
  | append_singleton ps p ih =>
    rw [cut_concat, List.map_append]
    cases hout : (machine w).out ((machine w).after ps) p with
    | none => exact ih.trans (List.sublist_append_left _ _)
    | some r =>
      -- a record carries the time of the packet that closed its window
      obtain ⟨elapsed, flow, rfl⟩ := timestamp_of_out hout
      show ((_ ++ [_]).map _).Sublist _
      rw [List.map_append]
      exact ih.append (List.Sublist.refl _)

end FlowTracker

/-- Records of different times are different messages. -/
theorem FeatureRecord.nodup_toJson {rs : List FeatureRecord}
    (h : (rs.map FeatureRecord.timestamp).Nodup) : (rs.map FeatureRecord.toJson).Nodup := by
  have hget : ∀ r : FeatureRecord, r.toJson.get "timestamp" .none = some (.num r.timestamp) :=
    fun r => rfl
  refine List.Nodup.of_map (fun v => v.get "timestamp" .none) ?_
  rw [List.map_map]
  -- the timestamp alone tells the messages apart
  have hinj : Function.Injective fun q : ℚ => some (Value.num q) := fun p q hpq =>
    Value.num.inj (Option.some.inj hpq)
  have htimes : rs.map ((fun v => v.get "timestamp" .none) ∘ FeatureRecord.toJson) =
      (rs.map FeatureRecord.timestamp).map fun q => some (.num q) := by
    rw [List.map_map]
    exact List.map_congr_left fun r _ => hget r
  rw [htimes]
  exact h.map hinj

/-! ### The alerts of the windows -/

/-- `str` of the two models in an alert. -/
structure AlertTexts where
  flow : FlowID → String
  evidence : Evidence → String

/-- What the worker publishes for an alert. -/
def AlertTexts.message (texts : AlertTexts) (a : AlertRecord) : Value := .dict [
  ("alert_id", .str a.alertId),
  ("timestamp", .num a.timestamp),
  ("detector", .str a.detector),
  ("flow_id", .str (texts.flow a.flowId)),
  ("threat_class", .str a.threatClass),
  ("severity", .str a.severity),
  ("confidence_score", .num a.confidenceScore),
  ("evidence", .str (texts.evidence a.evidence)),
  ("related_alert_ids", .list (a.relatedAlertIds.map .str))]

/-- The features that the worker gives as evidence, as a record has them. -/
def FeatureRecord.evidence (r : FeatureRecord) : List (String × Value) := [
  ("pkt_rate_1s", .num r.pktRate1s),
  ("byte_rate_1s", .num r.byteRate1s),
  ("syn_rate_1s", .num r.synRate1s),
  ("flow_duration", .num r.flowDuration),
  ("flow_pkt_count", .num r.flowPktCount.toNat)]

/-- The alert tells the record it was raised for. -/
structure AlertRecord.Tells (a : AlertRecord) (m : ModelName) (r : FeatureRecord) : Prop where
  detector : a.detector = m.name
  threatClass : a.threatClass = m.name.toUpper
  timestamp : a.timestamp = r.timestamp
  flowId : a.flowId =
    ⟨r.srcIp, r.dstIp, some r.srcPort.toNat, some r.dstPort.toNat, r.protocol⟩
  features : a.evidence.features = r.evidence

namespace InferenceWorker

variable {w : InferenceWorker}

theorem asOptInt_natCast (c : Coercions) (n : ℕ) : c.asOptInt (.num n) = some (some (n : ℤ)) := by
  show (if ((n : ℚ)).den = 1 then some (some ((n : ℚ)).num) else none) = _
  rw [if_pos (Rat.den_natCast n), Rat.num_natCast]

/-- The alert that is built for a record of the ingestor tells it. -/
theorem tells_of_buildAlert {env : FlushEnv} {m : ModelName} {idx : ℕ} {score : ℚ}
    {r : FeatureRecord} {a : AlertRecord} (h : w.buildAlert env m idx score r.toJson = some a) :
    a.Tells m r := by
  -- the record has all that is read of it
  have hread : w.buildAlert env m idx score r.toJson =
      w.normalizer.normalize w.coercions (env.alertId m idx) m.name score r.evidence
        ("ONNX " ++ m.name ++ " anomaly score=" ++ w.fixed3 score)
        [("src_ip", .str r.srcIp), ("dst_ip", .str r.dstIp), ("src_port", .num r.srcPort.toNat),
          ("dst_port", .num r.dstPort.toNat), ("protocol", .str r.protocol),
          ("ip_len", .num r.ipLen.toNat)]
        (.num r.timestamp) none none := rfl
  obtain ⟨⟨hsrc, hdst, hsport, hdport, hproto⟩, htime, -, hdetector, hclass, hevidence, -⟩ :=
    AlertNormalizer.normalize_eq_some (hread.symm.trans h)
  have hsrc' : some r.srcIp = some a.flowId.srcIp := hsrc
  have hdst' : some r.dstIp = some a.flowId.dstIp := hdst
  have hsport' := (asOptInt_natCast w.coercions r.srcPort.toNat).symm.trans hsport
  have hdport' := (asOptInt_natCast w.coercions r.dstPort.toNat).symm.trans hdport
  have hproto' : some r.protocol = some a.flowId.protocol := hproto
  refine ⟨hdetector, hclass, (Option.some.inj htime).symm, ?_, by rw [hevidence]⟩
  calc a.flowId
      = ⟨a.flowId.srcIp, a.flowId.dstIp, a.flowId.srcPort, a.flowId.dstPort,
          a.flowId.protocol⟩ := rfl
    _ = _ := by
        rw [← Option.some.inj hsrc', ← Option.some.inj hdst', ← Option.some.inj hsport',
          ← Option.some.inj hdport', ← Option.some.inj hproto']

/-- What is published for a record of the ingestor tells it. -/
theorem Grounded.tells {x : Raised} (h : w.Grounded x) {r : FeatureRecord}
    (hrecord : x.record = r.toJson) : x.alert.Tells x.model r := by
  obtain ⟨env, idx, score, built, hbuilt, halert⟩ := h
  rw [hrecord] at hbuilt
  have htells : built.Tells x.model r := tells_of_buildAlert hbuilt
  rw [halert]
  exact ⟨htells.detector, htells.threatClass, htells.timestamp, htells.flowId, htells.features⟩

end InferenceWorker

namespace KafkaPath

open scoped List
open FlowTracker InferenceWorker ReplayLoop

/-- The alert is a model's, about a window and the packet that closed it; its rates are those of
the window, counted in 64 bits, over the time that `elapsed` since the window was opened. -/
structure Reports (a : AlertRecord) (m : ModelName) (window : List PacketMeta) (elapsed : ℚ) :
    Prop where
  detector : a.detector = m.name
  threatClass : a.threatClass = m.name.toUpper
  closer : ∃ p, window.getLast? = some p ∧ a.timestamp = p.timestamp ∧
    a.flowId = ⟨p.srcIp, p.dstIp, some p.srcPort.toNat, some p.dstPort.toNat, p.protocol⟩
  rates : a.evidence.features.take 3 = [
    ("pkt_rate_1s", .num ((window.length % 2 ^ 64 : ℕ) / max elapsed (1 / 1000))),
    ("byte_rate_1s", .num ((bytesOf window * 8 % 2 ^ 64 : ℕ) / max elapsed (1 / 1000) / 1000000)),
    ("syn_rate_1s", .num ((synsOf window % 2 ^ 64 : ℕ) / max elapsed (1 / 1000)))]

/-- An alert that tells the record of a window reports the window. -/
theorem reports_of_tells {pkts : List PacketMeta} (hpos : ∀ p ∈ pkts, 0 < p.timestamp)
    {x : List PacketMeta × FeatureRecord} (hx : x ∈ (cut 1 pkts).closed) {a : AlertRecord}
    {m : ModelName} (h : a.Tells m x.2) : ∃ elapsed, 1 ≤ elapsed ∧ Reports a m x.1 elapsed := by
  obtain ⟨g, p, flow, -, hseg, hdue, hcounts, hrecord⟩ := counts_of_mem_closed hpos hx
  have hdescribes : Describes x.2 x.1 (p.timestamp - (reference 1 g p).timestamp) := by
    rw [hrecord]
    exact hcounts.describes p _ flow
  refine ⟨_, hdue, h.detector, h.threatClass, ⟨p, ?_, ?_, ?_⟩, ?_⟩
  · rw [hseg]
    exact List.getLast?_concat
  · rw [h.timestamp, hrecord]
    rfl
  · rw [h.flowId, hrecord]
    rfl
  · rw [h.features]
    show [("pkt_rate_1s", Value.num x.2.pktRate1s), ("byte_rate_1s", .num x.2.byteRate1s),
      ("syn_rate_1s", .num x.2.synRate1s)] = _
    -- the record's rates are those of the window's packets
    rw [hdescribes.pkts, hdescribes.bytes, hdescribes.syns]

/-- The alert was raised by a loaded model for the record of a window. -/
structure About (w : InferenceWorker) (windows : List (List PacketMeta × FeatureRecord))
    (r : Raised) (y : ModelName × (List PacketMeta × FeatureRecord)) : Prop where
  model : y.1 = r.model
  loaded : r.model ∈ w.loaded
  closed : y.2 ∈ windows
  record : r.record = y.2.2.toJson
  grounded : w.Grounded r

/-- **No alert but for replayed traffic, and none twice.** Whatever the runs of the ingestor, the
worker and the server, if each topic gives its consumer what was sent, each message at most once,
then the alerts that are shown to distinct clients are, one by one, about distinct pairs of a
loaded model and a window of the replayed traffic. -/
theorem alerts_of_windows (d : Pnet) (args : ReplayArgs) (hnow : 0 ≤ args.now) (g : List ℚ)
    (w : InferenceWorker) (envs : ℕ → FlushEnv) (polls : List Poll) (hdec : Decodes polls)
    (hraw : records polls <+~
      ((ReplayLoop.machine (withPnet d args)).after g).sent.map FeatureRecord.toJson)
    (texts : AlertTexts) (loads : KafkaStream.Loads) (h : List KafkaStream.Event)
    (hnormalized : KafkaStream.alertsPolled loads h <+~
      (w.run envs polls).published.map fun r => texts.message r.alert)
    (clients : List ℕ) (hclients : clients.Nodup) :
    let pkts := parsed (withPnet d args) (visited (withPnet d args) g)
    let s := (KafkaStream.machine loads).after h
    ∃ about : List (ModelName × (List PacketMeta × FeatureRecord)), about.Nodup ∧
      (∀ x ∈ about, x.1 ∈ w.loaded ∧ x.2 ∈ (cut 1 pkts).closed) ∧
      List.Forall₂ (fun v x => ∃ a elapsed, v = texts.message a ∧ 1 ≤ elapsed ∧
        Reports a x.1 x.2.1 elapsed) (clients.flatMap fun c => (s.clients c).alerts) about := by
  intro pkts s
  -- the packets have positive and increasing times
  have hstamped := stamped_parsed d args (visited (withPnet d args) g)
  have hpos : ∀ p ∈ pkts, 0 < p.timestamp := fun p hp => hnow.trans_lt (hstamped.between p hp).1
  -- so the records that were sent are distinct, and so are those that were polled
  have hsent : ((ReplayLoop.machine (withPnet d args)).after g).sent =
      (cut 1 pkts).closed.map Prod.snd := by
    rw [(follows_after (withPnet d args) g).sent_eq, map_snd_closed]
    rfl
  have htimes : (((cut 1 pkts).closed.map Prod.snd).map FeatureRecord.timestamp).Nodup := by
    have hincreasing : (pkts.map PacketMeta.timestamp).Nodup :=
      List.pairwise_map.mpr (hstamped.increasing.imp fun hlt => hlt.ne)
    rw [List.map_map]
    exact hincreasing.sublist (timestamps_closed pkts)
  have hnodup : (records polls).Nodup := by
    rw [hsent] at hraw
    exact nodup_of_subperm hraw (FeatureRecord.nodup_toJson htimes)
  obtain ⟨hgrounded, hshares⟩ := w.published_run envs hdec
  have hdistinct : ((w.run envs polls).published.map Raised.tag).Nodup :=
    nodup_of_shares fun m => hnodup.sublist (hshares m)
  -- what is shown are messages of some of the published alerts
  obtain ⟨shown, hpart, hshown⟩ := exists_map_of_subperm
    ((KafkaStream.alerts_subperm loads h hclients).trans hnormalized)
  have hwindow : ∀ r ∈ shown, ∃ y, About w (cut 1 pkts).closed r y := by
    intro r hr
    have hpublished : r ∈ (w.run envs polls).published := hpart.subset hr
    have hpolled : r.record ∈ records polls := by
      refine (hshares r.model).subset ?_
      rw [share, List.mem_map]
      exact ⟨r.tag, List.mem_filter.mpr ⟨List.mem_map_of_mem hpublished, decide_eq_true rfl⟩, rfl⟩
    have hmem := hraw.subset hpolled
    rw [hsent, List.map_map] at hmem
    obtain ⟨x, hx, hrecord⟩ := List.mem_map.mp hmem
    exact ⟨(r.model, x), rfl, (hgrounded r hpublished).1, hx, hrecord.symm,
      (hgrounded r hpublished).2⟩
  obtain ⟨about, habout⟩ := exists_forall₂_of_forall hwindow
  refine ⟨about, ?_, ?_, ?_⟩
  · -- an alert is known by its model and its record
    have htags : shown.map Raised.tag = about.map fun y => (y.1, y.2.2.toJson) := by
      rw [← List.forall₂_eq_eq_eq, List.forall₂_map_left_iff, List.forall₂_map_right_iff]
      exact habout.imp fun r y hy => Prod.ext hy.model.symm hy.record
    refine List.Nodup.of_map (fun y => (y.1, y.2.2.toJson)) ?_
    rw [← htags]
    obtain ⟨k, hperm, hsub⟩ := hpart
    exact nodup_of_subperm ⟨k.map Raised.tag, hperm.map _, hsub.map _⟩ hdistinct
  · exact forall_mem_of_forall₂ habout (fun _ _ => trivial) fun r y hy _ =>
      ⟨hy.model ▸ hy.loaded, hy.closed⟩
  · show List.Forall₂ _ (clients.flatMap fun c =>
      (((KafkaStream.machine loads).after h).clients c).alerts) about
    rw [hshown, List.forall₂_map_left_iff]
    refine habout.imp fun r y hy => ?_
    obtain ⟨elapsed, hdue, hreports⟩ :=
      reports_of_tells hpos hy.closed (hy.grounded.tells hy.record)
    rw [← hy.model] at hreports
    exact ⟨r.alert, elapsed, rfl, hdue, hreports⟩

/-- A worker with one model, which finds everything anomalous, and surroundings in which nothing
goes wrong. -/
def alarmWorker : InferenceWorker :=
  ofFiles 1 ["recon_iso.onnx"] fun _ => ⟨fun rows => some [.labels (rows.map fun _ => -1)]⟩

def calmSurroundings (_ : ℕ) : FlushEnv :=
  ⟨fun _ => false, fun _ _ => false, fun _ _ => false, fun _ _ => "alert", 0⟩

/-- The worker polls what the ingestor has sent after three frames. -/
def threeFramesPolls : List Poll :=
  ((ReplayLoop.machine (withPnet fourBytes threeFrames)).after (List.replicate 5 0)).sent.map
    fun r => .message (.value r.toJson)

/-- The alerts topic, a message being known by its place. -/
def threeFramesLoads : KafkaStream.Loads := fun value =>
  value.bind fun bytes =>
    ((alarmWorker.run calmSurroundings threeFramesPolls).published.map fun r =>
      AlertTexts.message ⟨FlowID.srcIp, Evidence.explanation⟩ r.alert)[bytes.length]?

/-- One alert is polled, and a client is shown it in its first tick. -/
def threeFramesEvents : List KafkaStream.Event :=
  [.alert (some []), .client 0 false, .client 0 false, .client 0 false]

theorem alerts_of_windows_three_frames :
    (((KafkaStream.machine threeFramesLoads).after threeFramesEvents).clients 0).alerts.length = 1 ∧
    ∃ about : List (ModelName × (List PacketMeta × FeatureRecord)), about.Nodup ∧
      about.length = 1 := by
  have hlength : (((KafkaStream.machine threeFramesLoads).after
      threeFramesEvents).clients 0).alerts.length = 1 := by
    decide +kernel
  have hdec : Decodes threeFramesPolls := by
    intro p hp
    obtain ⟨r, -, rfl⟩ := List.mem_map.mp hp
    nofun
  have hraw : records threeFramesPolls =
      ((ReplayLoop.machine (withPnet fourBytes threeFrames)).after
        (List.replicate 5 0)).sent.map FeatureRecord.toJson := by
    rw [records, threeFramesPolls, List.filterMap_map]
    exact congrFun List.filterMap_eq_map _
  have hpolled : KafkaStream.alertsPolled threeFramesLoads threeFramesEvents <+
      (alarmWorker.run calmSurroundings threeFramesPolls).published.map fun r =>
        AlertTexts.message ⟨FlowID.srcIp, Evidence.explanation⟩ r.alert := by
    have hone : KafkaStream.alertsPolled threeFramesLoads threeFramesEvents =
        (threeFramesLoads (some [])).toList := by
      rw [← KafkaStream.alertsPolled_alert]
      rfl
    rw [hone]
    cases hmessage : threeFramesLoads (some []) with
    | none => exact List.nil_sublist _
    | some v => exact List.singleton_sublist.mpr (List.mem_of_getElem? hmessage)
  obtain ⟨about, hnodup, -, hshown⟩ := alerts_of_windows fourBytes threeFrames (by decide +kernel)
    (List.replicate 5 0) alarmWorker calmSurroundings threeFramesPolls hdec
    (by rw [hraw]) ⟨FlowID.srcIp, Evidence.explanation⟩ threeFramesLoads threeFramesEvents
    hpolled.subperm [0] (List.nodup_singleton 0)
  refine ⟨hlength, about, hnodup, ?_⟩
  rw [← hshown.length_eq, List.flatMap_singleton]
  exact hlength

end KafkaPath

end Sentrix
