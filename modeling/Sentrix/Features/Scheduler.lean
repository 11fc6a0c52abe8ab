import Sentrix.Lib.Machine
import Sentrix.Features.Extractors

/-!
# The feature scheduler

`FeatureScheduler` of `features/scheduler.py`: a packet is fed to the
extractors, and when one of the three windows has lasted long enough its vectors
are emitted. The answer to a packet is the list of vectors emitted for it, in
the order of the source's dictionary.

The encrypted-traffic vector shares its list of packet sizes with the extractor,
so a consumer that reads the vector later may find sizes of later packets in it.
-/

namespace Sentrix

variable {K : Type} [Field K] [LinearOrder K]

/-- A feature vector under its detector's name. -/
inductive FeatureDict (K : Type)
  | ddos (v : DdosVector K)
  | recon (v : ReconVector K)
  | dga (v : DgaVector K)
  | encrypted (v : EncryptedVector K)
  | dnsExfil (v : DnsExfilVector K)
  | beaconing (v : BeaconingVector K)
  | exfil (v : ExfilVector K)

/-- A packet with the layers parsed out of it and the time it is processed at. -/
structure TimedPacket (K : Type) where
  info : ParsedPacket
  time : K
  dns : Option DnsMessage
  tls : Option TlsHandshake

/-- What a scheduler is started with. -/
structure SchedulerConfig (K : Type) where
  window1s : K
  window5s : K
  window60s : K
  hash : SketchHash
  math : PyMath K

/-- The windows a scheduler has if it is not told otherwise. -/
def SchedulerConfig.default (hash : SketchHash) (math : PyMath K) : SchedulerConfig K where
  window1s := 1
  window5s := 5
  window60s := 60
  hash := hash
  math := math

/-- The state of a `FeatureScheduler`. -/
structure FeatureScheduler (K : Type) where
  last1s : K
  last5s : K
  last60s : K
  ddos : DdosExtractor K
  beaconing : BeaconingExtractor K
  dga : DgaExtractor K
  encrypted : EncryptedExtractor K
  recon : ReconExtractor
  exfil : ExfilExtractor K
  dnsExfil : DnsExfilExtractor K

namespace FeatureScheduler

def new : FeatureScheduler K := ⟨0, 0, 0, .new, .new, .new, .new, .new, .new, .new⟩

/-- Addresses the scheduler takes for inside ones. -/
def isOutbound (p : ParsedPacket) : Bool :=
  "10.".isPrefixOf p.srcIp || "192.168.".isPrefixOf p.srcIp

variable (cfg : SchedulerConfig K)

/-- The updates of `process_packet`, before the windows are checked. -/
def feed (s : FeatureScheduler K) (p : TimedPacket K) : FeatureScheduler K where
  last1s := s.last1s
  last5s := s.last5s
  last60s := s.last60s
  ddos := if p.info.protocol.isSome then s.ddos.update cfg.hash p.info p.time else s.ddos
  recon := if p.info.protocol = some .tcp then s.recon.update cfg.hash p.info else s.recon
  exfil := if p.info.ipLen > 0 then s.exfil.update p.info (isOutbound p.info) else s.exfil
  beaconing := s.beaconing.update cfg.hash p.info p.time
  dga := p.dns.elim s.dga (s.dga.update cfg.math)
  -- a new minute is told by the window that is about to be checked
  dnsExfil := p.dns.elim s.dnsExfil fun dns =>
    s.dnsExfil.update cfg.math dns (decide (p.time - s.last60s ≥ cfg.window60s))
  encrypted := p.tls.elim s.encrypted fun tls => s.encrypted.update p.info tls p.time

/-- The first packet, and a clock that runs backwards, start all windows afresh. -/
def rebase (s : FeatureScheduler K) (currentTime : K) : FeatureScheduler K :=
  if s.last1s = 0 ∨ currentTime < s.last1s then
    { s with last1s := currentTime, last5s := currentTime, last60s := currentTime }
  else s

/-- `emit_1s_window`, and the new start of the window. -/
def emit1sWindow (s : FeatureScheduler K) (p : TimedPacket K) :
    FeatureScheduler K × List (FeatureDict K) :=
  ({ s with ddos := s.ddos.resetWindowCounters, last1s := p.time },
    [.ddos (s.ddos.extract cfg.math p.info.dstIp), .recon s.recon.extract])

/-- `emit_5s_window`. -/
def emit5sWindow (s : FeatureScheduler K) (p : TimedPacket K) :
    FeatureScheduler K × List (FeatureDict K) :=
  ({ s with last5s := p.time },
    [.dga s.dga.extract, .encrypted s.encrypted.extract, .dnsExfil s.dnsExfil.extract])

/-- `emit_60s_window`; the sweeps see the previous start of the window. -/
def emit60sWindow (s : FeatureScheduler K) (p : TimedPacket K) :
    FeatureScheduler K × List (FeatureDict K) :=
  ({ s with
      ddos := s.ddos.sweepStaleState s.last60s 60
      beaconing := s.beaconing.sweepStaleState s.last60s 120
      last60s := p.time },
    [.beaconing (s.beaconing.extract cfg.hash cfg.math p.info.srcIp p.info.dstIp),
      .exfil s.exfil.extract])

/-- Emit a window's vectors if it is due. -/
def whenDue (due : Bool) (emit : FeatureScheduler K → FeatureScheduler K × List (FeatureDict K))
    (s : FeatureScheduler K) : FeatureScheduler K × List (FeatureDict K) :=
  if due then emit s else (s, [])

def fire1s (p : TimedPacket K) (s : FeatureScheduler K) :
    FeatureScheduler K × List (FeatureDict K) :=
  whenDue (decide (p.time - s.last1s ≥ cfg.window1s)) (emit1sWindow cfg · p) s

def fire5s (p : TimedPacket K) (s : FeatureScheduler K) :
    FeatureScheduler K × List (FeatureDict K) :=
  whenDue (decide (p.time - s.last5s ≥ cfg.window5s)) (emit5sWindow · p) s

def fire60s (p : TimedPacket K) (s : FeatureScheduler K) :
    FeatureScheduler K × List (FeatureDict K) :=
  whenDue (decide (p.time - s.last60s ≥ cfg.window60s)) (emit60sWindow cfg · p) s

/-- `_check_windows`. -/
def checkWindows (s : FeatureScheduler K) (p : TimedPacket K) :
    FeatureScheduler K × List (FeatureDict K) :=
  -- after a rebase no window is due, unless its length is not positive
  let (s, fired1s) := fire1s cfg p (s.rebase p.time)
  let (s, fired5s) := fire5s cfg p s
  let (s, fired60s) := fire60s cfg p s
  (s, fired1s ++ fired5s ++ fired60s)

/-- `process_packet`. -/
def processPacket (s : FeatureScheduler K) (p : TimedPacket K) :
    FeatureScheduler K × List (FeatureDict K) :=
  checkWindows cfg (s.feed cfg p) p

/-- The scheduler as a machine that is fed packets. -/
def machine : Machine (FeatureScheduler K) (TimedPacket K) (List (FeatureDict K)) where
  init := new
  step := processPacket cfg

/-! ### What a packet does

The three windows are checked one after the other, and none of them changes what
the next one's test reads. Whether a window is due is therefore a question about
the state before the packet (`Due1s`, `Due5s`, `Due60s`), and so are the new state
and the answer (`processPacket_fst`, `processPacket_snd`). -/

/-- A packet at this time starts all windows afresh. -/
def Rebases (s : FeatureScheduler K) (time : K) : Prop := s.last1s = 0 ∨ time < s.last1s

instance (s : FeatureScheduler K) (time : K) : Decidable (s.Rebases time) :=
  inferInstanceAs (Decidable (_ ∨ _))

/-- The start of the one-second window that a packet at this time finds. -/
def start1s (s : FeatureScheduler K) (time : K) : K := if s.Rebases time then time else s.last1s

def start5s (s : FeatureScheduler K) (time : K) : K := if s.Rebases time then time else s.last5s

def start60s (s : FeatureScheduler K) (time : K) : K := if s.Rebases time then time else s.last60s

/-- The one-second window is due. -/
def Due1s (s : FeatureScheduler K) (time : K) : Prop := time - s.start1s time ≥ cfg.window1s

def Due5s (s : FeatureScheduler K) (time : K) : Prop := time - s.start5s time ≥ cfg.window5s

def Due60s (s : FeatureScheduler K) (time : K) : Prop := time - s.start60s time ≥ cfg.window60s

instance (s : FeatureScheduler K) (time : K) : Decidable (s.Due1s cfg time) :=
  inferInstanceAs (Decidable (_ ≥ _))

instance (s : FeatureScheduler K) (time : K) : Decidable (s.Due5s cfg time) :=
  inferInstanceAs (Decidable (_ ≥ _))

instance (s : FeatureScheduler K) (time : K) : Decidable (s.Due60s cfg time) :=
  inferInstanceAs (Decidable (_ ≥ _))

/-- Rebasing sets the three starts and nothing else. -/
theorem rebase_eq (s : FeatureScheduler K) (time : K) :
    s.rebase time =
      { s with
        last1s := s.start1s time
        last5s := s.start5s time
        last60s := s.start60s time } := by
  unfold rebase start1s start5s start60s
  by_cases h : s.Rebases time
  · have h' : s.last1s = 0 ∨ time < s.last1s := h
    simp only [if_pos h, if_pos h']
  · have h' : ¬ (s.last1s = 0 ∨ time < s.last1s) := h
    simp only [if_neg h, if_neg h']

/-- The packet is fed before the anchors are looked at, and feeding leaves them. -/
theorem rebase_feed (s : FeatureScheduler K) (p : TimedPacket K) :
    (s.feed cfg p).rebase p.time =
      { s.feed cfg p with
        last1s := s.start1s p.time
        last5s := s.start5s p.time
        last60s := s.start60s p.time } :=
  rebase_eq _ _

/-- The one-second window fires when it is due. -/
theorem fire1s_eq (s : FeatureScheduler K) (p : TimedPacket K) :
    fire1s cfg p s =
      if p.time - s.last1s ≥ cfg.window1s then emit1sWindow cfg s p else (s, []) := by
  simp only [fire1s, whenDue, decide_eq_true_eq]

/-- The five-second window fires when it is due. -/
theorem fire5s_eq (s : FeatureScheduler K) (p : TimedPacket K) :
    fire5s cfg p s = if p.time - s.last5s ≥ cfg.window5s then emit5sWindow s p else (s, []) := by
  simp only [fire5s, whenDue, decide_eq_true_eq]

/-- The minute's window fires when it is due. -/
theorem fire60s_eq (s : FeatureScheduler K) (p : TimedPacket K) :
    fire60s cfg p s =
      if p.time - s.last60s ≥ cfg.window60s then emit60sWindow cfg s p else (s, []) := by
  simp only [fire60s, whenDue, decide_eq_true_eq]

/-- **The state after a packet.** -/
theorem processPacket_fst (s : FeatureScheduler K) (p : TimedPacket K) :
    (processPacket cfg s p).1 =
      { s.feed cfg p with
        last1s := if s.Due1s cfg p.time then p.time else s.start1s p.time
        last5s := if s.Due5s cfg p.time then p.time else s.start5s p.time
        last60s := if s.Due60s cfg p.time then p.time else s.start60s p.time
        ddos :=
          let ddos := if s.Due1s cfg p.time then (s.feed cfg p).ddos.resetWindowCounters
            else (s.feed cfg p).ddos
          if s.Due60s cfg p.time then ddos.sweepStaleState (s.start60s p.time) 60 else ddos
        beaconing :=
          if s.Due60s cfg p.time then
            (s.feed cfg p).beaconing.sweepStaleState (s.start60s p.time) 120
          else (s.feed cfg p).beaconing } := by
  unfold processPacket checkWindows
  rw [rebase_feed, fire1s_eq]
  unfold Due1s Due5s Due60s
  -- which of the three windows are due
  by_cases h1 : p.time - s.start1s p.time ≥ cfg.window1s <;>
    by_cases h5 : p.time - s.start5s p.time ≥ cfg.window5s <;>
    by_cases h60 : p.time - s.start60s p.time ≥ cfg.window60s <;>
    simp only [h1, h5, h60, if_true, if_false, fire5s_eq, fire60s_eq, emit1sWindow, emit5sWindow,
      emit60sWindow]

/-- **The answer to a packet.** -/
theorem processPacket_snd (s : FeatureScheduler K) (p : TimedPacket K) :
    (processPacket cfg s p).2 =
      (if s.Due1s cfg p.time then
        [.ddos ((s.feed cfg p).ddos.extract cfg.math p.info.dstIp),
          .recon (s.feed cfg p).recon.extract] else []) ++
      (if s.Due5s cfg p.time then
        [.dga (s.feed cfg p).dga.extract, .encrypted (s.feed cfg p).encrypted.extract,
          .dnsExfil (s.feed cfg p).dnsExfil.extract] else []) ++
      (if s.Due60s cfg p.time then
        [.beaconing ((s.feed cfg p).beaconing.extract cfg.hash cfg.math p.info.srcIp p.info.dstIp),
          .exfil (s.feed cfg p).exfil.extract] else []) := by
  unfold processPacket checkWindows
  rw [rebase_feed, fire1s_eq]
  unfold Due1s Due5s Due60s
  -- as for the state
  by_cases h1 : p.time - s.start1s p.time ≥ cfg.window1s <;>
    by_cases h5 : p.time - s.start5s p.time ≥ cfg.window5s <;>
    by_cases h60 : p.time - s.start60s p.time ≥ cfg.window60s <;>
    simp only [h1, h5, h60, if_true, if_false, fire5s_eq, fire60s_eq, emit1sWindow, emit5sWindow,
      emit60sWindow]

end FeatureScheduler

end Sentrix
