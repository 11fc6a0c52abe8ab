import Mathlib.Tactic.NormNum
import Sentrix.Ingest.FlowTracker
import Sentrix.Lib.LeadsTo

/-!
# The replay loop of the ingestor

The main loop of `ingest/rust-ingestor/src/main.rs` replays the packets of all capture files,
bank by bank, and begins again when it is through. With a duration it is to end at a deadline.
The deadline is looked at before each packet and nowhere else, and the guard before the loop
asks whether there is a bank, not whether there is a packet. So under a clock that passes the
deadline the loop ends if and only if some bank holds a packet (`terminates_iff`): with empty
captures alone it spins for ever.

A step of the model is one turn of one of the three nested loops; it is given what the clock
shows. Sending to Kafka and the pause that keeps to a target rate only take time. The headers
are decoded by a library, so `parse_packet` is a parameter.
-/

namespace Sentrix

/-- A packet of a bank: its raw timestamp and its bytes. -/
abbrev BankPacket : Type := ℚ × List UInt8

/-- The packets of a capture file. -/
abbrev PacketBank : Type := List BankPacket

/-- What the main function is started with. -/
structure ReplayArgs where
  pcapBanks : List PacketBank
  /-- In seconds; 0 for a single pass. -/
  duration : ℕ
  /-- `t_start`. -/
  tStart : ℚ
  /-- The time of day the simulated clock starts with. -/
  now : ℚ
  /-- `parse_packet`. -/
  parsePacket : List UInt8 → ℚ → Option PacketMeta

/-- Where the loop is. -/
inductive LoopPhase
  /-- At the head of `'outer`. -/
  | outer
  /-- Before the next bank, with the banks that are left. -/
  | bank (banks : List PacketBank)
  /-- Before the next packet, with the packets and the banks that are left. -/
  | packet (rest : PacketBank) (banks : List PacketBank)
  | exited

/-- The loop and what it keeps. -/
structure ReplayLoop where
  phase : LoopPhase
  simClock : ℚ
  prevRawTs : Option ℚ
  totalPkts : UInt64
  totalBytes : UInt64
  tracker : FlowTracker
  /-- The feature records that were sent, in order. -/
  sent : List FeatureRecord

namespace ReplayLoop

variable (args : ReplayArgs)

/-- `deadline`. -/
def deadline : Option ℚ :=
  if args.duration > 0 then some (args.tStart + args.duration) else none

/-- The loop when it is entered, or left at once for want of a bank. -/
def start : ReplayLoop where
  phase := if args.pcapBanks.isEmpty then .exited else .outer
  simClock := args.now
  prevRawTs := none
  totalPkts := 0
  totalBytes := 0
  tracker := FlowTracker.new 1
  sent := []

/-- `dt`. -/
def dt (prevRawTs : Option ℚ) (rawTs : ℚ) : ℚ :=
  match prevRawTs with
  | none => 1 / 1000
  | some p =>
    let diff := rawTs - p
    if diff ≤ 0 ∨ diff > 2 then 1 / 1000 else diff

/-- The simulated clock moves forward with every packet. -/
theorem dt_pos (prevRawTs : Option ℚ) (rawTs : ℚ) : 0 < dt prevRawTs rawTs := by
  cases prevRawTs with
  | none =>
    show (0 : ℚ) < 1 / 1000
    norm_num
  | some p =>
    unfold dt
    dsimp only
    split
    · norm_num
    · next h =>
      rw [not_or, not_le] at h
      exact h.1

/-- The body of the innermost loop, behind the deadline. -/
def replay (s : ReplayLoop) (p : BankPacket) : ReplayLoop :=
  let simClock := s.simClock + dt s.prevRawTs p.1
  let s := { s with simClock := simClock, prevRawTs := some p.1 }
  match args.parsePacket p.2 simClock with
  | none => s
  | some pkt =>
    let (tracker, feat) := s.tracker.update pkt
    { s with
      totalPkts := s.totalPkts + 1
      totalBytes := s.totalBytes + pkt.ipLen.toUInt64
      tracker := tracker
      sent := s.sent ++ feat.toList }

/-- Whether the deadline has passed; without one it never does. -/
def expired (now : ℚ) : Bool :=
  match deadline args with
  | none => false
  | some dl => decide (now ≥ dl)

/-- One turn of a loop, at the time `now`. -/
def step (s : ReplayLoop) (now : ℚ) : ReplayLoop :=
  match s.phase with
  | .outer => { s with phase := .bank args.pcapBanks }
  | .bank (b :: banks) => { s with phase := .packet b banks }
  | .bank [] =>
    -- the end of a pass
    if deadline args = none ∧ args.duration = 0 then { s with phase := .exited }
    else { s with phase := .outer }
  | .packet [] banks => { s with phase := .bank banks }
  | .packet (p :: rest) banks =>
    if expired args now then { s with phase := .exited }
    else { replay args s p with phase := .packet rest banks }
  | .exited => s

/-- The loop as a machine that is shown the clock. -/
def machine : Machine ReplayLoop ℚ Unit where
  init := start args
  step s now := (step args s now, ())

/-- The loop ends. -/
def Terminates (clock : ℕ → ℚ) : Prop :=
  ∃ n, ((machine args).trace clock n).phase = .exited

/-- A clock is past the deadline from some time on. -/
def PassesDeadline (clock : ℕ → ℚ) : Prop :=
  ∀ dl ∈ deadline args, ∃ n, ∀ m ≥ n, clock m ≥ dl

variable {args} {clock : ℕ → ℚ}

/-! ### What a turn does -/

section Turn

variable {s : ReplayLoop} (now : ℚ)

theorem next_outer (h : s.phase = .outer) :
    ((machine args).next s now).phase = .bank args.pcapBanks := by
  show (step args s now).phase = _
  unfold step
  rw [h]

theorem next_bank_cons {b : PacketBank} {banks : List PacketBank}
    (h : s.phase = .bank (b :: banks)) :
    ((machine args).next s now).phase = .packet b banks := by
  show (step args s now).phase = _
  unfold step
  rw [h]

/-- With a duration, the end of a pass is the beginning of the next. -/
theorem next_bank_nil (hduration : 0 < args.duration) (h : s.phase = .bank []) :
    ((machine args).next s now).phase = .outer := by
  have hpass : ¬ (deadline args = none ∧ args.duration = 0) := fun hnone =>
    hduration.ne' hnone.2
  show (step args s now).phase = _
  unfold step
  rw [h]
  dsimp only
  rw [if_neg hpass]

theorem next_packet_nil {banks : List PacketBank} (h : s.phase = .packet [] banks) :
    ((machine args).next s now).phase = .bank banks := by
  show (step args s now).phase = _
  unfold step
  rw [h]

/-- The one place where the loop ends. -/
theorem next_packet_cons_of_expired {p : BankPacket} {rest : PacketBank}
    {banks : List PacketBank} (hexpired : expired args now = true)
    (h : s.phase = .packet (p :: rest) banks) :
    ((machine args).next s now).phase = .exited := by
  show (step args s now).phase = _
  unfold step
  rw [h]
  dsimp only
  rw [if_pos hexpired]

end Turn

/-! ### Banks with packets -/

/-- The next thing to do is to look at the deadline. -/
def AtTest (s : ReplayLoop) : Prop := ∃ p rest banks, s.phase = .packet (p :: rest) banks

/-- The loop is in a phase. -/
def At (phase : LoopPhase) (s : ReplayLoop) : Prop := s.phase = phase

/-- A bank with packets has a next one; an empty one leads to the banks behind it. -/
theorem leadsTo_atTest_packet {b : PacketBank} {banks : List PacketBank}
    (h : b = [] → (machine args).LeadsTo clock (At (.bank banks)) AtTest) :
    (machine args).LeadsTo clock (At (.packet b banks)) AtTest := by
  cases b with
  | cons p rest => exact .of_imp fun s hs => ⟨p, rest, banks, hs⟩
  | nil =>
    have hskip : (machine args).LeadsTo clock (At (.packet [] banks)) (At (.bank banks)) :=
      .of_next fun s now hs => next_packet_nil now hs
    exact hskip.trans (h rfl)

theorem leadsTo_atTest_bank_cons {b : PacketBank} {banks : List PacketBank}
    (h : b = [] → (machine args).LeadsTo clock (At (.bank banks)) AtTest) :
    (machine args).LeadsTo clock (At (.bank (b :: banks))) AtTest := by
  have hnext : (machine args).LeadsTo clock (At (.bank (b :: banks))) (At (.packet b banks)) :=
    .of_next fun s now hs => next_bank_cons now hs
  exact hnext.trans (leadsTo_atTest_packet h)

/-- A bank with packets is come to from any place before it. -/
theorem leadsTo_atTest_of_exists {banks : List PacketBank} (h : ∃ b ∈ banks, b ≠ []) :
    (machine args).LeadsTo clock (At (.bank banks)) AtTest := by
  induction banks with
  | nil =>
    obtain ⟨b, hb, -⟩ := h
    exact absurd hb List.not_mem_nil
  | cons b banks ih =>
    apply leadsTo_atTest_bank_cons
    -- an empty bank is not the one, so that it is among those behind it
    rintro rfl
    obtain ⟨b, hb, hne⟩ := h
    exact ih ⟨b, (List.mem_cons.mp hb).resolve_left hne, hne⟩

theorem leadsTo_atTest_outer (hbank : ∃ b ∈ args.pcapBanks, b ≠ []) :
    (machine args).LeadsTo clock (At .outer) AtTest := by
  have hnext : (machine args).LeadsTo clock (At .outer) (At (.bank args.pcapBanks)) :=
    .of_next fun s now hs => next_outer now hs
  exact hnext.trans (leadsTo_atTest_of_exists hbank)

section Progress

variable (hduration : 0 < args.duration) (hbank : ∃ b ∈ args.pcapBanks, b ≠ [])
include hduration hbank

/-- From behind the last packet of a pass the next pass is entered. -/
theorem leadsTo_atTest_bank (banks : List PacketBank) :
    (machine args).LeadsTo clock (At (.bank banks)) AtTest := by
  induction banks with
  | nil =>
    have hnext : (machine args).LeadsTo clock (At (.bank [])) (At .outer) :=
      .of_next fun s now hs => next_bank_nil now hduration hs
    exact hnext.trans (leadsTo_atTest_outer hbank)
  | cons b banks ih => exact leadsTo_atTest_bank_cons fun _ => ih

/-- **Progress.** A loop that has not ended comes to a packet. -/
theorem leadsTo_atTest :
    (machine args).LeadsTo clock (fun s => s.phase ≠ .exited) AtTest := by
  intro n hrunning
  cases hphase : ((machine args).trace clock n).phase with
  | outer => exact leadsTo_atTest_outer hbank n hphase
  | bank banks => exact leadsTo_atTest_bank hduration hbank banks n hphase
  | packet b banks =>
    have hbanks : (machine args).LeadsTo clock (At (.bank banks)) AtTest :=
      leadsTo_atTest_bank hduration hbank banks
    exact leadsTo_atTest_packet (fun _ => hbanks) n hphase
  | exited => exact absurd hphase hrunning

/-- A packet that is come to after the deadline ends the loop. -/
theorem terminates_of_exists (hclock : PassesDeadline args clock) : Terminates args clock := by
  have hdeadline : deadline args = some (args.tStart + args.duration) := if_pos hduration
  obtain ⟨n, hpassed⟩ := hclock _ hdeadline
  by_cases hrunning : ((machine args).trace clock n).phase = .exited
  · exact ⟨n, hrunning⟩
  · -- the first packet that is come to after the deadline
    obtain ⟨m, hnm, p, rest, banks, hphase⟩ := leadsTo_atTest hduration hbank n hrunning
    refine ⟨m + 1, next_packet_cons_of_expired (clock m) ?_ hphase⟩
    unfold expired
    rw [hdeadline]
    exact decide_eq_true (hpassed m hnm)

end Progress

/-! ### Banks without packets -/

/-- The phases of a loop that has nothing to replay. -/
def Spinning : LoopPhase → Prop
  | .outer => True
  | .bank banks => ∀ b ∈ banks, b = []
  | .packet rest banks => rest = [] ∧ ∀ b ∈ banks, b = []
  | .exited => False

/-- A pass over empty banks leads to the next one. -/
theorem spinning_next (hduration : 0 < args.duration) (hempty : ∀ b ∈ args.pcapBanks, b = [])
    (s : ReplayLoop) (now : ℚ) (hs : Spinning s.phase) :
    Spinning ((machine args).next s now).phase := by
  cases hphase : s.phase with
  | outer =>
    rw [next_outer now hphase]
    exact hempty
  | bank banks =>
    rw [hphase] at hs
    cases banks with
    | nil =>
      -- the pass is over, and the deadline was not looked at
      rw [next_bank_nil now hduration hphase]
      trivial
    | cons b banks =>
      rw [next_bank_cons now hphase]
      exact List.forall_mem_cons.mp hs
  | packet rest banks =>
    rw [hphase] at hs
    obtain ⟨rfl, hbanks⟩ := hs
    rw [next_packet_nil now hphase]
    exact hbanks
  | exited =>
    rw [hphase] at hs
    exact hs.elim

theorem not_terminates_of_empty (hne : args.pcapBanks ≠ []) (hduration : 0 < args.duration)
    (hempty : ∀ b ∈ args.pcapBanks, b = []) : ¬ Terminates args clock := by
  have hstart : Spinning (machine args).init.phase := by
    show Spinning (if args.pcapBanks.isEmpty then LoopPhase.exited else .outer)
    rw [if_neg (by rwa [List.isEmpty_iff])]
    trivial
  rintro ⟨n, hexited⟩
  have hspin := (machine args).trace_invariant clock hstart (spinning_next hduration hempty) n
  rw [hexited] at hspin
  exact hspin

/-- **When a bounded replay ends.** With a duration, under a clock that passes the deadline,
the loop over the loaded banks ends if and only if one of them has a packet. -/
theorem terminates_iff (args : ReplayArgs) (clock : ℕ → ℚ) (hne : args.pcapBanks ≠ [])
    (hduration : 0 < args.duration) (hclock : PassesDeadline args clock) :
    Terminates args clock ↔ ∃ b ∈ args.pcapBanks, b ≠ [] := by
  constructor
  · intro hends
    by_contra hnone
    refine not_terminates_of_empty hne hduration (fun b hb => ?_) hends
    exact not_not.mp fun hb' => hnone ⟨b, hb, hb'⟩
  · intro hbank
    exact terminates_of_exists hduration hbank hclock

/-! ### One bank, a second -/

/-- A replay of one bank for a second; no packet of it can be parsed. -/
def oneBank (bank : PacketBank) : ReplayArgs where
  pcapBanks := [bank]
  duration := 1
  tStart := 0
  now := 1600000000
  parsePacket _ _ := none

theorem passesDeadline_oneBank (bank : PacketBank) :
    PassesDeadline (oneBank bank) fun n => n := by
  intro dl hdl
  obtain rfl : (0 : ℚ) + (1 : ℕ) = dl := Option.some.inj hdl
  refine ⟨1, fun m hm => ?_⟩
  push_cast
  rw [zero_add]
  exact_mod_cast hm

theorem terminates_iff_oneBank :
    Terminates (oneBank [(0, [])]) (fun n => n) ↔
      ∃ b ∈ (oneBank [(0, [])]).pcapBanks, b ≠ [] :=
  terminates_iff (oneBank [(0, [])]) (fun n => n) (List.cons_ne_nil _ _) Nat.one_pos
    (passesDeadline_oneBank _)

/-- A capture file without packets is a bank, and keeps the loop spinning for ever. -/
theorem empty_bank_not_terminates :
    (oneBank []).pcapBanks ≠ [] ∧ 0 < (oneBank []).duration ∧
      PassesDeadline (oneBank []) (fun n => n) ∧
      ¬ Terminates (oneBank []) fun n => n := by
  refine ⟨List.cons_ne_nil _ _, Nat.one_pos, passesDeadline_oneBank _, ?_⟩
  apply not_terminates_of_empty
  · exact List.cons_ne_nil _ _
  · exact Nat.one_pos
  · intro b hb
    exact List.mem_singleton.mp hb

end ReplayLoop

end Sentrix
