import Mathlib.Algebra.Order.Floor.Ring
import Mathlib.Data.Rat.Floor
import Sentrix.Datasource.ReplayTelemetry
import Sentrix.Lib.Bytes
import Sentrix.Lib.Rounding

/-!
# Capture files

`_write_pcap` of `scripts/generate_traffic.py` writes a global header and, for each packet, a
record header and the packet's data, cut to the snap length of 65535 bytes. The record header
gives the length of the data twice, as the length in the file and as the length on the wire,
and both are the length before the cut.

A reader goes by the length in the file. Up to the first packet that is cut it reads what was
meant; there it takes the bytes of the following records for data, or finds too few. A length
that does not fit four bytes is not written at all: `struct.pack` raises.

A timestamp is a double, and the microseconds of a record are the whole part of a product that
is rounded to a double. Close below a whole number of microseconds the product is rounded up to
it (`RoundsUp`), and the record is one microsecond late. So the file reads back if and only if
no packet is cut and no product rounded up (`readsBack_iff`).
-/

namespace Sentrix

open Bytes

/-- What `_write_pcap` is given for a packet. -/
structure TrafficPacket where
  ts : Double
  data : List UInt8

namespace PcapFile

/-! ### Writing -/

/-- `struct.pack` of an unsigned number of four bytes; `none` if it raises. -/
def packUInt32 (x : ℤ) : Option (List UInt8) :=
  if 0 ≤ x ∧ x < 2 ^ 32 then some (encodeLE 4 x.toNat) else none

/-- `GLOBAL_HDR`. -/
def globalHdr : List UInt8 :=
  encodeLE 4 0xa1b2c3d4 ++ encodeLE 2 2 ++ encodeLE 2 4 ++ encodeLE 4 0 ++ encodeLE 4 0 ++
    encodeLE 4 65535 ++ encodeLE 4 101

/-- `ts_sec`. -/
def tsSec (p : TrafficPacket) : ℤ := ReplayTelemetry.toInt p.ts.val

/-- `ts_usec`: a difference and a product of doubles, each rounded to a double. -/
def tsUsec (p : TrafficPacket) : ℤ :=
  ReplayTelemetry.toInt (toDouble (toDouble (p.ts.val - tsSec p) * 1000000))

/-- The header of a packet's record; `none` if it cannot be packed. -/
def recordHdr (p : TrafficPacket) : Option (List UInt8) := do
  let ln : ℤ := p.data.length
  return (← packUInt32 (tsSec p)) ++ (← packUInt32 (tsUsec p)) ++ (← packUInt32 ln) ++
    (← packUInt32 ln)

/-- What is in a file, and whether writing it raised. -/
structure Written where
  bytes : List UInt8
  raised : Bool

/-- The loop over the packets. -/
def writeRecords : List TrafficPacket → Written
  | [] => ⟨[], false⟩
  | p :: ps =>
    match recordHdr p with
    | none => ⟨[], true⟩
    | some hdr =>
      let rest := writeRecords ps
      ⟨hdr ++ p.data.take 65535 ++ rest.bytes, rest.raised⟩

/-- `_write_pcap`. -/
def writePcap (packets : List TrafficPacket) : Written :=
  let records := writeRecords packets
  ⟨globalHdr ++ records.bytes, records.raised⟩

/-! ### Reading -/

/-- A record of a capture file. -/
structure CapturedPacket where
  tsSec : ℕ
  tsUsec : ℕ
  origLen : ℕ
  data : List UInt8

/-- When a packet was captured. -/
def CapturedPacket.time (c : CapturedPacket) : ℚ := c.tsSec + c.tsUsec / 1000000

/-- Read a record: sixteen bytes of header, and as many bytes of data as it says. -/
def readRecord (bytes : List UInt8) : Option (CapturedPacket × List UInt8) := do
  let (tsSec, bytes) ← readLE 4 bytes
  let (tsUsec, bytes) ← readLE 4 bytes
  let (inclLen, bytes) ← readLE 4 bytes
  let (origLen, bytes) ← readLE 4 bytes
  let (data, bytes) ← takeExactly inclLen bytes
  return (⟨tsSec, tsUsec, origLen, data⟩, bytes)

/-- Read a file to its end; `none` if it is no capture file or ends in the middle. -/
def readPcap (bytes : List UInt8) : Option (List CapturedPacket) := do
  let (magic, bytes) ← readLE 4 bytes
  let (_, bytes) ← takeExactly 20 bytes
  if magic = 0xa1b2c3d4 then readAll readRecord bytes else none

/-- What a packet is to read back as: the time in whole microseconds, and the data up to the
snap length. -/
def snapshot (p : TrafficPacket) : ℚ × List UInt8 :=
  (⌊p.ts.val * 1000000⌋ / 1000000, p.data.take 65535)

/-- A file that was written for packets reads back. -/
def ReadsBack (packets : List TrafficPacket) : Prop :=
  ∃ captured, readPcap (writePcap packets).bytes = some captured ∧
    captured.map (fun c => (c.time, c.data)) = packets.map snapshot

/-! ### Timestamps -/

/-- Whole seconds and whole microseconds of the rest make whole microseconds. -/
theorem floor_split (x : ℚ) :
    ⌊x⌋ * 1000000 + ⌊(x - ⌊x⌋) * 1000000⌋ = ⌊x * 1000000⌋ := by
  have hsplit : x * 1000000 = (x - ⌊x⌋) * 1000000 + ((⌊x⌋ * 1000000 : ℤ) : ℚ) := by
    push_cast
    ring
  rw [hsplit, Int.floor_add_intCast, add_comm]

/-- The microseconds of a packet behind its whole seconds, as they are before the product is
rounded to a double. -/
def micros (p : TrafficPacket) : ℚ := (p.ts.val - ⌊p.ts.val⌋) * 1000000

/-- The microseconds are so close below a whole number that a double does not tell them from
it: closer than half the distance between two doubles of their magnitude. -/
def RoundsUp (p : TrafficPacket) : Prop := ⌊micros p⌋ + 1 - micros p ≤ ulp (micros p) / 2

instance (p : TrafficPacket) : Decidable (RoundsUp p) := inferInstanceAs (Decidable (_ ≤ _))

theorem micros_nonneg (p : TrafficPacket) : 0 ≤ micros p :=
  mul_nonneg (sub_nonneg.mpr (Int.floor_le p.ts.val)) (by norm_num)

theorem micros_lt (p : TrafficPacket) : micros p < 1000000 := by
  have hfract : p.ts.val - ⌊p.ts.val⌋ < 1 := by
    rw [sub_lt_iff_lt_add']
    exact Int.lt_floor_add_one p.ts.val
  calc micros p < 1 * 1000000 := mul_lt_mul_of_pos_right hfract (by norm_num)
    _ = 1000000 := one_mul _

theorem micros_lt_two_pow (p : TrafficPacket) : micros p < 2 ^ 52 :=
  (micros_lt p).trans (by norm_num)

section Timestamp

variable {p : TrafficPacket} (hts : 0 ≤ p.ts.val ∧ p.ts.val < 2 ^ 32)
include hts

theorem tsSec_eq : tsSec p = ⌊p.ts.val⌋ := ReplayTelemetry.toInt_eq_floor hts.1

theorem tsSec_bounds : 0 ≤ tsSec p ∧ tsSec p < 2 ^ 32 := by
  rw [tsSec_eq hts]
  refine ⟨Int.floor_nonneg.mpr hts.1, Int.floor_lt.mpr ?_⟩
  exact_mod_cast hts.2

/-- The seconds are subtracted exactly, and only the product is rounded. -/
theorem tsUsec_eq : tsUsec p = ⌊toDouble (micros p)⌋ := by
  have hfract : toDouble (p.ts.val - ⌊p.ts.val⌋) = p.ts.val - ⌊p.ts.val⌋ :=
    toDouble_eq_self (p.ts.isDouble.sub_floor hts.1)
  have hpos : 0 ≤ toDouble (micros p) := by
    have hfloor : (0 : ℚ) ≤ ⌊micros p⌋ := by exact_mod_cast Int.floor_nonneg.mpr (micros_nonneg p)
    exact hfloor.trans (floor_le_toDouble (micros_nonneg p) (micros_lt_two_pow p))
  rw [tsUsec, tsSec_eq hts, hfract]
  exact ReplayTelemetry.toInt_eq_floor hpos

theorem tsUsec_bounds : 0 ≤ tsUsec p ∧ tsUsec p < 2 ^ 32 := by
  have hle := floor_toDouble_le (micros_nonneg p) (micros_lt_two_pow p)
  have hge : ⌊micros p⌋ ≤ ⌊toDouble (micros p)⌋ :=
    Int.le_floor.mpr (floor_le_toDouble (micros_nonneg p) (micros_lt_two_pow p))
  have hnonneg : 0 ≤ ⌊micros p⌋ := Int.floor_nonneg.mpr (micros_nonneg p)
  have hlt : ⌊micros p⌋ < 1000000 := Int.floor_lt.mpr (by exact_mod_cast micros_lt p)
  rw [tsUsec_eq hts]
  omega

/-- The two numbers of a record header give the time back, in whole microseconds, unless the
product was rounded up. -/
theorem time_eq_iff (origLen : ℕ) (data : List UInt8) :
    CapturedPacket.time ⟨(tsSec p).toNat, (tsUsec p).toNat, origLen, data⟩ =
      (snapshot p).1 ↔ ¬ RoundsUp p := by
  have hsec : ((tsSec p).toNat : ℚ) = ⌊p.ts.val⌋ := by
    rw [← Int.cast_natCast, Int.toNat_of_nonneg (tsSec_bounds hts).1, tsSec_eq hts]
  have husec : ((tsUsec p).toNat : ℚ) = ⌊toDouble (micros p)⌋ := by
    rw [← Int.cast_natCast, Int.toNat_of_nonneg (tsUsec_bounds hts).1, tsUsec_eq hts]
  have hsplit : (⌊p.ts.val * 1000000⌋ : ℚ) = ⌊p.ts.val⌋ * 1000000 + ⌊micros p⌋ := by
    rw [← floor_split]
    push_cast
    rfl
  -- the seconds are exact, so the microseconds decide
  have hwritten : CapturedPacket.time ⟨(tsSec p).toNat, (tsUsec p).toNat, origLen, data⟩ =
      ⌊p.ts.val⌋ + ⌊toDouble (micros p)⌋ / 1000000 := by
    rw [CapturedPacket.time, hsec, husec]
  have hmeant : (snapshot p).1 = ⌊p.ts.val⌋ + ⌊micros p⌋ / 1000000 := by
    rw [snapshot, hsplit, add_div, mul_div_cancel_right₀ _ (by norm_num)]
  rw [hwritten, hmeant, add_right_inj, div_left_inj' (by norm_num), Int.cast_inj,
    floor_toDouble_eq_iff (micros_nonneg p) (micros_lt_two_pow p), ← not_le]
  exact Iff.rfl

/-! ### One record -/

/-- The header of a packet whose length fits four bytes. -/
theorem recordHdr_eq (hlen : p.data.length < 2 ^ 32) :
    recordHdr p = some (encodeLE 4 (tsSec p).toNat ++ encodeLE 4 (tsUsec p).toNat ++
      encodeLE 4 p.data.length ++ encodeLE 4 p.data.length) := by
  have hln : packUInt32 p.data.length = some (encodeLE 4 p.data.length) :=
    if_pos ⟨Int.natCast_nonneg _, by exact_mod_cast hlen⟩
  have hsec : packUInt32 (tsSec p) = some (encodeLE 4 (tsSec p).toNat) :=
    if_pos (tsSec_bounds hts)
  have husec : packUInt32 (tsUsec p) = some (encodeLE 4 (tsUsec p).toNat) :=
    if_pos (tsUsec_bounds hts)
  unfold recordHdr
  simp only [hsec, husec, hln, Option.bind_eq_bind, Option.bind_some, Option.pure_def]

/-- A reader that comes to the header goes by its length. -/
theorem readRecord_hdr_append (hlen : p.data.length < 2 ^ 32) {hdr : List UInt8}
    (hhdr : recordHdr p = some hdr) (body : List UInt8) :
    readRecord (hdr ++ body) = (takeExactly p.data.length body).map fun split =>
      (⟨(tsSec p).toNat, (tsUsec p).toNat, p.data.length, split.1⟩, split.2) := by
  rw [recordHdr_eq hts hlen] at hhdr
  obtain rfl := Option.some.inj hhdr
  have hsec : (tsSec p).toNat < 256 ^ 4 := by
    have := tsSec_bounds hts
    omega
  have husec : (tsUsec p).toNat < 256 ^ 4 := by
    have := tsUsec_bounds hts
    omega
  -- each of the four numbers fits its four bytes
  have hln : p.data.length < 256 ^ 4 := hlen
  unfold readRecord
  simp only [List.append_assoc, readLE_encodeLE_append hsec, readLE_encodeLE_append husec,
    readLE_encodeLE_append hln, Option.bind_eq_bind, Option.bind_some, Option.pure_def]
  cases takeExactly p.data.length body <;> rfl

/-- A record has bytes. -/
theorem recordHdr_append_ne_nil (hlen : p.data.length < 2 ^ 32) {hdr : List UInt8}
    (hhdr : recordHdr p = some hdr) (body : List UInt8) : hdr ++ body ≠ [] := by
  rw [recordHdr_eq hts hlen] at hhdr
  obtain rfl := Option.some.inj hhdr
  exact List.cons_ne_nil _ _

omit hts in
/-- A length that does not fit raises. -/
theorem recordHdr_eq_none (hlen : 2 ^ 32 ≤ p.data.length) : recordHdr p = none := by
  have hln : packUInt32 p.data.length = none := by
    refine if_neg ?_
    rintro ⟨-, hlt⟩
    have : p.data.length < 2 ^ 32 := by exact_mod_cast hlt
    omega
  unfold recordHdr
  simp only [hln, Option.bind_eq_bind, Option.bind_none]
  cases packUInt32 (tsSec p) <;> cases packUInt32 (tsUsec p) <;> rfl

/-! ### All records -/

/-- The records that were written for packets read back. -/
def RecordsReadBack (packets : List TrafficPacket) : Prop :=
  ∃ captured, readAll readRecord (writeRecords packets).bytes = some captured ∧
    captured.map (fun c => (c.time, c.data)) = packets.map snapshot

variable {ps : List TrafficPacket}

/-- A packet that is not cut is read back but for its time, and the reader is where the writer
was. -/
theorem recordsReadBack_cons_iff (hlen : p.data.length ≤ 65535) :
    RecordsReadBack (p :: ps) ↔ ¬ RoundsUp p ∧ RecordsReadBack ps := by
  have hfits : p.data.length < 2 ^ 32 := lt_of_le_of_lt hlen (by norm_num)
  obtain ⟨hdr, hhdr⟩ : ∃ hdr, recordHdr p = some hdr := ⟨_, recordHdr_eq hts hfits⟩
  have hbytes : (writeRecords (p :: ps)).bytes =
      (hdr ++ p.data.take 65535) ++ (writeRecords ps).bytes := by
    rw [writeRecords, hhdr]
  have hne := recordHdr_append_ne_nil hts hfits hhdr (p.data.take 65535)
  have hread : readRecord ((hdr ++ p.data.take 65535) ++ (writeRecords ps).bytes) =
      some (⟨(tsSec p).toNat, (tsUsec p).toNat, p.data.length, p.data.take 65535⟩,
        (writeRecords ps).bytes) := by
    rw [List.append_assoc, readRecord_hdr_append hts hfits hhdr, List.take_of_length_le hlen,
      takeExactly_append]
    rfl
  have htime := time_eq_iff hts p.data.length (p.data.take 65535)
  unfold RecordsReadBack
  rw [hbytes, readAll_append readRecord hne hread]
  constructor
  · -- the first record is this packet, so that the others are the others
    rintro ⟨captured, hall, hmap⟩
    obtain ⟨rest, hrest, rfl⟩ := Option.map_eq_some_iff.mp hall
    obtain ⟨hfirst, hothers⟩ := List.cons.inj hmap
    exact ⟨htime.mp (congrArg Prod.fst hfirst), rest, hrest, hothers⟩
  · rintro ⟨hround, rest, hrest, hmap⟩
    refine ⟨_ :: rest, by rw [hrest, Option.map_some], ?_⟩
    rw [List.map_cons, List.map_cons, hmap]
    exact congrArg (· :: _) (Prod.ext (htime.mpr hround) rfl)

/-- **The cut desynchronises.** Where a packet was cut, the reader takes more bytes for its
data than were written, or there are no more bytes at all. -/
theorem not_recordsReadBack_cons (hlen : 65535 < p.data.length) :
    ¬ RecordsReadBack (p :: ps) := by
  rintro ⟨captured, hall, hmap⟩
  by_cases hfits : p.data.length < 2 ^ 32
  · obtain ⟨hdr, hhdr⟩ : ∃ hdr, recordHdr p = some hdr := ⟨_, recordHdr_eq hts hfits⟩
    have hbytes : (writeRecords (p :: ps)).bytes =
        hdr ++ (p.data.take 65535 ++ (writeRecords ps).bytes) := by
      rw [writeRecords, hhdr]
      exact List.append_assoc _ _ _
    have hne := recordHdr_append_ne_nil hts hfits hhdr
      (p.data.take 65535 ++ (writeRecords ps).bytes)
    rw [hbytes] at hall
    obtain ⟨c, rest, cs, hread, rfl⟩ := exists_of_readAll_eq_some readRecord hne hall
    rw [readRecord_hdr_append hts hfits hhdr] at hread
    obtain ⟨split, hsplit, hc⟩ := Option.map_eq_some_iff.mp hread
    obtain ⟨rfl, -⟩ := Prod.mk.inj hc
    -- as many bytes as the header says, where only the snap length was written
    have hlong : split.1.length = p.data.length := length_of_takeExactly hsplit
    have hdata : split.1 = p.data.take 65535 := (Prod.mk.inj (List.cons.inj hmap).1).2
    have hshort : (p.data.take 65535).length = 65535 := List.length_take_of_le hlen.le
    rw [hdata, hshort] at hlong
    exact absurd hlong hlen.ne
  · -- the length does not fit its field: the writer raises, and there is no record
    have hbytes : (writeRecords (p :: ps)).bytes = [] := by
      rw [writeRecords, recordHdr_eq_none (not_lt.mp hfits)]
    rw [hbytes, readAll_nil] at hall
    obtain rfl := Option.some.inj hall
    exact absurd hmap.symm (List.cons_ne_nil _ _)

end Timestamp

/-- The global header is skipped. -/
theorem readPcap_globalHdr_append (bytes : List UInt8) :
    readPcap (globalHdr ++ bytes) = readAll readRecord bytes := by
  have hmagic : readLE 4 (globalHdr ++ bytes) =
      some (0xa1b2c3d4, globalHdr.drop 4 ++ bytes) :=
    readLE_encodeLE_append (by norm_num) (globalHdr.drop 4 ++ bytes)
  have hrest : takeExactly 20 (globalHdr.drop 4 ++ bytes) =
      some (globalHdr.drop 4, bytes) := takeExactly_append (globalHdr.drop 4) bytes
  unfold readPcap
  simp only [hmagic, hrest, Option.bind_eq_bind, Option.bind_some, if_pos]

theorem readsBack_iff_recordsReadBack (packets : List TrafficPacket) :
    ReadsBack packets ↔ RecordsReadBack packets := by
  have hbytes : (writePcap packets).bytes = globalHdr ++ (writeRecords packets).bytes := rfl
  unfold ReadsBack RecordsReadBack
  rw [hbytes, readPcap_globalHdr_append]

/-- **When a capture reads back.** For timestamps that fit their field, a file is read to its
end as the packets it was written for if and only if no packet is longer than the snap length
and the microseconds of none are rounded up. -/
theorem readsBack_iff (packets : List TrafficPacket)
    (hts : ∀ p ∈ packets, 0 ≤ p.ts.val ∧ p.ts.val < 2 ^ 32) :
    ReadsBack packets ↔ ∀ p ∈ packets, p.data.length ≤ 65535 ∧ ¬ RoundsUp p := by
  rw [readsBack_iff_recordsReadBack]
  induction packets with
  | nil =>
    refine iff_of_true ⟨[], ?_, rfl⟩ fun p hp => absurd hp List.not_mem_nil
    exact readAll_nil readRecord
  | cons p ps ih =>
    have hp := hts p List.mem_cons_self
    rw [List.forall_mem_cons]
    -- a frame that is too long ends the reading at its record
    by_cases hlen : p.data.length ≤ 65535
    · rw [recordsReadBack_cons_iff hp hlen, ih fun q hq => hts q (List.mem_cons_of_mem p hq),
        and_iff_right hlen]
    · exact iff_of_false (not_recordsReadBack_cons hp (not_le.mp hlen)) fun h => hlen h.1.1

/-- One and a half seconds. -/
def oneAndAHalf : Double := ⟨3 / 2, 3, -1, by norm_num, by norm_num⟩

theorem readsBack_iff_one_byte : ReadsBack [⟨oneAndAHalf, [0x45]⟩] := by
  refine (readsBack_iff [⟨oneAndAHalf, [0x45]⟩] fun p hp => ?_).mpr fun p hp => ?_
  · rw [List.mem_singleton.mp hp]
    show (0 : ℚ) ≤ 3 / 2 ∧ (3 / 2 : ℚ) < 2 ^ 32
    norm_num
  · rw [List.mem_singleton.mp hp]
    decide +kernel

/-- One second. -/
def oneSecond : Double :=
  ⟨1, 1, 0, by decide, by rw [Int.cast_one, zpow_zero, one_mul]⟩

/-- A packet one byte longer than the snap length: the header announces a byte that is not
there. -/
theorem long_packet_not_readsBack : ¬ ReadsBack [⟨oneSecond, List.replicate 65536 0⟩] := by
  rw [readsBack_iff_recordsReadBack]
  apply not_recordsReadBack_cons
  · show (0 : ℚ) ≤ 1 ∧ (1 : ℚ) < 2 ^ 32
    norm_num
  · rw [List.length_replicate]
    decide

/-- The double nearest to three tenths of a second: a little less. -/
def threeTenths : Double :=
  ⟨5404319552844595 / 2 ^ 54, 5404319552844595, -54, by norm_num, by norm_num⟩

/-- **A microsecond too late.** The product is rounded to 300000, of which it falls short. -/
theorem threeTenths_not_readsBack :
    tsUsec ⟨threeTenths, []⟩ = 300000 ∧ ⌊threeTenths.val * 1000000⌋ = 299999 ∧
      ¬ ReadsBack [⟨threeTenths, []⟩] := by
  refine ⟨by decide +kernel, by decide +kernel, ?_⟩
  rw [readsBack_iff_recordsReadBack, recordsReadBack_cons_iff (by decide +kernel) (by decide)]
  exact fun h => h.1 (by decide +kernel)

end PcapFile

end Sentrix
