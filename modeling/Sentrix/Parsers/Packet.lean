import Mathlib.Data.List.Basic
import Mathlib.Tactic.Common

/-!
# Packets and their frames

`parse_packet` of `parsers/ip_tcp_udp.py` reads the metadata of a packet from a buffer
that holds the packet itself or an Ethernet frame around it. Which of them it is, it
guesses from the first four bits of the buffer: 4 and 6 are taken for the version of an
IP header. In a frame these bits belong to the destination address, so that a frame to
some addresses is read as a packet (`frame_parsed_iff`).

The decoders are third-party (`Dpkt`). What the parser relies on is what their
specification says of the headers: where an IPv4 header has its total length, how long
addresses are, that a header without options is accepted, and that an Ethernet II frame
carries the packet behind its 14 bytes.
-/

namespace Sentrix

/-! ### Addresses as text -/

namespace Inet

/-- `socket.inet_ntop(socket.AF_INET, b)`; `none` is a `ValueError`. -/
def ntop4 (b : List UInt8) : Option String :=
  if b.length = 4 then some (".".intercalate (b.map fun x => toString x.toNat)) else none

/-- The sixteen-bit groups of an address. -/
def groups : List UInt8 → List ℕ
  | a :: b :: rest => (a.toNat * 256 + b.toNat) :: groups rest
  | _ => []

def hexGroup (g : ℕ) : String := String.ofList (Nat.toDigits 16 g)

/-- The number of zero groups from the position `i` on. -/
def zeroRun (gs : List ℕ) (i : ℕ) : ℕ := ((gs.drop i).takeWhile fun g => decide (g = 0)).length

/-- The first of the longest runs of two or more zero groups: its position and length. -/
def bestRun (gs : List ℕ) : Option (ℕ × ℕ) :=
  (List.range gs.length).foldl (fun best i =>
    match best with
    | none => if 2 ≤ zeroRun gs i then some (i, zeroRun gs i) else none
    | some (base, len) => if len < zeroRun gs i then some (i, zeroRun gs i) else some (base, len))
    none

/-- `socket.inet_ntop(socket.AF_INET6, b)`; `none` is a `ValueError`. -/
def ntop6 (b : List UInt8) : Option String :=
  if b.length = 16 then
    let gs := groups b
    let joined (l : List ℕ) : String := ":".intercalate (l.map hexGroup)
    match bestRun gs with
    | none => some (joined gs)
    | some (base, len) =>
      -- an IPv4 address inside
      if base = 0 ∧ len = 6 then (ntop4 (b.drop 12)).map ("::" ++ ·)
      else if base = 0 ∧ len = 5 ∧ gs[5]? = some 0xFFFF then
        (ntop4 (b.drop 12)).map ("::ffff:" ++ ·)
      else some (joined (gs.take base) ++ "::" ++ joined (gs.drop (base + len)))
  else none

/-- `inet_to_str`. -/
def inetToStr (inet : List UInt8) : Option String :=
  match ntop4 inet with
  | some s => some s
  | none => ntop6 inet

end Inet

namespace Parsers

/-! ### Decoders -/

/-- What an IP packet carries, as far as the parser tells it apart. -/
inductive Transport
  | tcp (sport dport flags : ℕ) (data : List UInt8)
  | udp (sport dport : ℕ) (data : List UInt8)
  | icmp (data : List UInt8)
  | other

/-- `dpkt.ip.IP`. -/
structure Ip where
  len : ℕ
  src : List UInt8
  dst : List UInt8
  data : Transport

/-- `dpkt.ip6.IP6`. -/
structure Ip6 where
  src : List UInt8
  dst : List UInt8
  data : Transport

/-- A decoded packet. -/
inductive IpPacket
  | ip (packet : Ip)
  | ip6 (packet : Ip6)

/-- The number in two bytes of a buffer, high byte first. -/
def be16 (b : List UInt8) (i : ℕ) : ℕ := (b.getD i 0).toNat * 256 + (b.getD (i + 1) 0).toNat

/-- The address of a network interface. -/
structure Mac where
  b₀ : UInt8
  b₁ : UInt8
  b₂ : UInt8
  b₃ : UInt8
  b₄ : UInt8
  b₅ : UInt8

def Mac.bytes (m : Mac) : List UInt8 := [m.b₀, m.b₁, m.b₂, m.b₃, m.b₄, m.b₅]

/-- The versions of IP. -/
inductive IpVersion
  | v4 | v6

/-- The first four bits of a packet. -/
def IpVersion.nibble : IpVersion → UInt8
  | .v4 => 4
  | .v6 => 6

/-- The type of a frame that carries a packet. -/
def IpVersion.etherType : IpVersion → List UInt8
  | .v4 => [0x08, 0x00]
  | .v6 => [0x86, 0xDD]

/-- An Ethernet II frame. -/
def frame (dst src : Mac) (v : IpVersion) (p : List UInt8) : List UInt8 :=
  dst.bytes ++ (src.bytes ++ (v.etherType ++ p))

/-- The buffer begins with the version of an IP packet. -/
def IsPacket (v : IpVersion) (p : List UInt8) : Prop := ∃ b rest, p = b :: rest ∧ b >>> 4 = v.nibble

/-- An IPv4 packet of `n` bytes with a header of twenty bytes, which carries nothing the
parser knows; everything else in the header is zero. -/
def plainPacket (n : ℕ) : List UInt8 :=
  [0x45, 0, (n / 256).toUInt8, n.toUInt8] ++ [0, 0, 0, 0, 0, 0xFF, 0, 0] ++
    List.replicate (n - 12) 0

/-- What the decoders of IP make of a packet of a version. -/
def decodeAs (ip : List UInt8 → Option Ip) (ip6 : List UInt8 → Option Ip6) :
    IpVersion → List UInt8 → Option IpPacket
  | .v4, p => (ip p).map .ip
  | .v6, p => (ip6 p).map .ip6

/-- The decoders of `dpkt`; `none` is an exception. `ethernet` answers the packet in the
frame, if its data is one. -/
structure Dpkt where
  ip : List UInt8 → Option Ip
  ip6 : List UInt8 → Option Ip6
  ethernet : List UInt8 → Option (Option IpPacket)
  /-- The total length is in the third and fourth byte of a header. -/
  ip_len : ∀ b x, ip b = some x → x.len = be16 b 2
  /-- Addresses of version 4 have four bytes. -/
  ip_addresses : ∀ b x, ip b = some x → x.src.length = 4 ∧ x.dst.length = 4
  /-- A header without options is accepted. -/
  ip_plain : ∀ n, 20 ≤ n → n < 65536 → (ip (plainPacket n)).isSome
  /-- A frame carries the packet behind its header, if that is one. -/
  ethernet_frame : ∀ dst src v p, (ethernet (frame dst src v p)).join = decodeAs ip ip6 v p

/-! ### The parser -/

/-- The dictionary `parse_packet` returns. -/
structure PacketMeta where
  srcIp : String
  dstIp : String
  ipLen : ℕ
  protocol : Option String
  srcPort : ℕ
  dstPort : ℕ
  tcpFlags : ℕ
  payload : List UInt8

/-- The metadata before the transport is looked at; `none` if an address has no text. -/
def baseMeta (src dst : List UInt8) (ipLen : ℕ) : Option PacketMeta := do
  return {
    srcIp := ← Inet.inetToStr src
    dstIp := ← Inet.inetToStr dst
    ipLen := ipLen
    protocol := none
    srcPort := 0
    dstPort := 0
    tcpFlags := 0
    payload := [] }

/-- What the transport adds. -/
def PacketMeta.addTransport (m : PacketMeta) : Transport → PacketMeta
  | .tcp sport dport flags data =>
    { m with
      protocol := some "TCP", srcPort := sport, dstPort := dport, tcpFlags := flags,
      payload := data }
  | .udp sport dport data =>
    { m with protocol := some "UDP", srcPort := sport, dstPort := dport, payload := data }
  | .icmp data => { m with protocol := some "ICMP", payload := data }
  | .other => m

/-- The metadata of a decoded packet; a packet of version 6 has no length. -/
def metaOf : IpPacket → Option PacketMeta
  | .ip p => (baseMeta p.src p.dst p.len).map fun m => m.addTransport p.data
  | .ip6 p => (baseMeta p.src p.dst 0).map fun m => m.addTransport p.data

/-- The part of `parse_packet` under the `try`; `none` where it returns `None`. -/
def decodePacket (d : Dpkt) (rawBuf : List UInt8) : Option IpPacket :=
  match rawBuf with
  -- an index error
  | [] => none
  | b :: _ =>
    if b >>> 4 = 4 then (d.ip rawBuf).map .ip
    else if b >>> 4 = 6 then (d.ip6 rawBuf).map .ip6
    else (d.ethernet rawBuf).join

/-- `parse_packet`; an exception is an `error`. -/
def parsePacket (d : Dpkt) (rawBuf : List UInt8) : Except Unit (Option PacketMeta) :=
  match decodePacket d rawBuf with
  | none => .ok none
  | some packet =>
    match metaOf packet with
    | none => .error ()
    | some packetMeta => .ok (some packetMeta)

/-! ### What the guess decides -/

variable {d : Dpkt}

theorem decodePacket_of_packet (d : Dpkt) {v : IpVersion} {p : List UInt8} (hp : IsPacket v p) :
    decodePacket d p = decodeAs d.ip d.ip6 v p := by
  obtain ⟨b, rest, rfl, hb⟩ := hp
  unfold decodePacket
  cases v with
  | v4 => exact if_pos hb
  | v6 =>
    have hne : ¬ b >>> 4 = 4 := by
      rw [hb]
      decide
    exact (if_neg hne).trans (if_pos hb)

/-- A frame that is not taken for a packet is opened. -/
theorem decodePacket_frame (d : Dpkt) {dst : Mac} (h4 : dst.b₀ >>> 4 ≠ 4) (h6 : dst.b₀ >>> 4 ≠ 6)
    (src : Mac) (v : IpVersion) (p : List UInt8) :
    decodePacket d (frame dst src v p) = decodeAs d.ip d.ip6 v p := by
  rw [← d.ethernet_frame dst src v p]
  exact (if_neg h4).trans (if_neg h6)

/-- The length in the metadata of a packet of version 4 is that of its header. -/
theorem ipLen_of_ip {b : List UInt8} {x : Ip} (hx : d.ip b = some x) :
    ∃ m, metaOf (.ip x) = some m ∧ m.ipLen = be16 b 2 := by
  obtain ⟨hsrc, hdst⟩ := d.ip_addresses b x hx
  -- four bytes always have a text
  have htext : ∀ a : List UInt8, a.length = 4 → ∃ s, Inet.inetToStr a = some s := by
    intro a ha
    refine ⟨".".intercalate (a.map fun x => toString x.toNat), ?_⟩
    unfold Inet.inetToStr Inet.ntop4
    rw [if_pos ha]
  obtain ⟨s, hs⟩ := htext x.src hsrc
  obtain ⟨t, ht⟩ := htext x.dst hdst
  have hbase : baseMeta x.src x.dst x.len = some ⟨s, t, x.len, none, 0, 0, 0, []⟩ := by
    unfold baseMeta
    rw [hs, ht]
    rfl
  refine ⟨PacketMeta.addTransport ⟨s, t, x.len, none, 0, 0, 0, []⟩ x.data, ?_, ?_⟩
  · rw [metaOf, hbase, Option.map_some]
  · rw [← d.ip_len b x hx]
    cases x.data <;> rfl

/-- The metadata of a packet of version 6 has no length. -/
theorem ipLen_of_ip6 {x : Ip6} {m : PacketMeta} (hm : metaOf (.ip6 x) = some m) : m.ipLen = 0 := by
  unfold metaOf at hm
  obtain ⟨m', hbase, rfl⟩ := Option.map_eq_some_iff.mp hm
  unfold baseMeta at hbase
  obtain ⟨s, -, hbase⟩ := Option.bind_eq_some_iff.mp hbase
  obtain ⟨t, -, hbase⟩ := Option.bind_eq_some_iff.mp hbase
  obtain rfl := Option.some.inj hbase
  cases x.data <;> rfl

/-- A plain packet is parsed, with its length. -/
theorem parsePacket_plain (d : Dpkt) {n : ℕ} (hmin : 20 ≤ n) (hmax : n < 65536) :
    ∃ m, parsePacket d (plainPacket n) = .ok (some m) ∧ m.ipLen = be16 (plainPacket n) 2 := by
  obtain ⟨x, hx⟩ := Option.isSome_iff_exists.mp (d.ip_plain n hmin hmax)
  obtain ⟨m, hm, hlen⟩ := ipLen_of_ip hx
  have hpacket : IsPacket .v4 (plainPacket n) := ⟨0x45, _, rfl, rfl⟩
  have hdecode : decodePacket d (plainPacket n) = some (.ip x) := by
    rw [decodePacket_of_packet d hpacket, decodeAs, hx, Option.map_some]
  refine ⟨m, ?_, hlen⟩
  unfold parsePacket
  rw [hdecode]
  dsimp only
  rw [hm]

/-- A frame that is taken for a packet of version 4 has the length in its destination
address, if it has any. -/
theorem ipLen_of_misread4 {dst src : Mac} (h4 : dst.b₀ >>> 4 = 4) {v : IpVersion}
    {p : List UInt8} {m : PacketMeta} (hm : parsePacket d (frame dst src v p) = .ok (some m)) :
    m.ipLen = be16 dst.bytes 2 := by
  -- the frame's own first bytes are read as an IPv4 header
  have hdecode : decodePacket d (frame dst src v p) = (d.ip (frame dst src v p)).map .ip :=
    if_pos h4
  unfold parsePacket at hm
  rw [hdecode] at hm
  cases hx : d.ip (frame dst src v p) with
  | none =>
    rw [hx] at hm
    cases hm
  | some x =>
    obtain ⟨m', hm', hlen⟩ := ipLen_of_ip hx
    rw [hx] at hm
    dsimp only [Option.map_some] at hm
    rw [hm'] at hm
    cases hm
    exact hlen

/-- A frame that is taken for a packet of version 6 has no length. -/
theorem ipLen_of_misread6 {dst src : Mac} (h6 : dst.b₀ >>> 4 = 6) {v : IpVersion}
    {p : List UInt8} {m : PacketMeta} (hm : parsePacket d (frame dst src v p) = .ok (some m)) :
    m.ipLen = 0 := by
  have hne : ¬ dst.b₀ >>> 4 = 4 := by
    rw [h6]
    decide
  -- the version is read from the first byte of the destination address
  have hdecode : decodePacket d (frame dst src v p) = (d.ip6 (frame dst src v p)).map .ip6 :=
    (if_neg hne).trans (if_pos h6)
  unfold parsePacket at hm
  rw [hdecode] at hm
  cases hx : d.ip6 (frame dst src v p) with
  | none =>
    rw [hx] at hm
    cases hm
  | some x =>
    rw [hx] at hm
    dsimp only [Option.map_some] at hm
    cases hm' : metaOf (.ip6 x) with
    | none =>
      rw [hm'] at hm
      cases hm
    | some m' =>
      rw [hm'] at hm
      cases hm
      exact ipLen_of_ip6 hm'

/-- **Which frames are parsed like their packets.** For a destination address, every
Ethernet II frame around an IP packet has the metadata of the packet exactly if the first
four bits of the address are neither 4 nor 6. -/
theorem frame_parsed_iff (d : Dpkt) (dst : Mac) :
    (∀ (src : Mac) (v : IpVersion) (p : List UInt8), IsPacket v p →
      parsePacket d (frame dst src v p) = parsePacket d p) ↔
    dst.b₀ >>> 4 ≠ 4 ∧ dst.b₀ >>> 4 ≠ 6 := by
  constructor
  · intro hall
    -- two packets of different lengths
    have hframe : ∀ n, 20 ≤ n → n < 65536 → ∃ m,
        parsePacket d (frame dst ⟨0, 0, 0, 0, 0, 0⟩ .v4 (plainPacket n)) = .ok (some m) ∧
        m.ipLen = be16 (plainPacket n) 2 := by
      intro n hmin hmax
      rw [hall ⟨0, 0, 0, 0, 0, 0⟩ .v4 (plainPacket n) ⟨0x45, _, rfl, rfl⟩]
      exact parsePacket_plain d hmin hmax
    obtain ⟨m, hm, hlen⟩ := hframe 20 (by decide) (by decide)
    obtain ⟨m', hm', hlen'⟩ := hframe 21 (by decide) (by decide)
    have h20 : be16 (plainPacket 20) 2 = 20 := by decide
    have h21 : be16 (plainPacket 21) 2 = 21 := by decide
    constructor
    · intro h4
      have hread := ipLen_of_misread4 h4 hm
      have hread' := ipLen_of_misread4 h4 hm'
      omega
    · intro h6
      have hread := ipLen_of_misread6 h6 hm
      omega
  · rintro ⟨h4, h6⟩ src v p hp
    unfold parsePacket
    rw [decodePacket_frame d h4 h6 src v p, decodePacket_of_packet d hp]

/-- An IPv4 header; the transport is read off the whole packet. -/
def ipHeader (transport : List UInt8 → Transport) (b : List UInt8) : Option Ip :=
  if 20 ≤ b.length ∧ 5 ≤ (b.getD 0 0).toNat % 16 then
    some ⟨be16 b 2, (b.drop 12).take 4, (b.drop 16).take 4, transport b⟩
  else none

/-- An IPv6 header, and no transport. -/
def ip6Header (b : List UInt8) : Option Ip6 :=
  if 40 ≤ b.length then some ⟨(b.drop 8).take 16, (b.drop 24).take 16, .other⟩ else none

/-- An Ethernet header, and what is behind it if that is a packet. -/
def ethernetHeader (transport : List UInt8 → Transport) (b : List UInt8) :
    Option (Option IpPacket) :=
  if b.length < 14 then none
  else if (b.drop 12).take 2 = IpVersion.v4.etherType then
    some (decodeAs (ipHeader transport) ip6Header .v4 (b.drop 14))
  else if (b.drop 12).take 2 = IpVersion.v6.etherType then
    some (decodeAs (ipHeader transport) ip6Header .v6 (b.drop 14))
  else some none

/-- Decoders of headers, with one for the transport over IPv4. -/
def headers (transport : List UInt8 → Transport) : Dpkt where
  ip := ipHeader transport
  ip6 := ip6Header
  ethernet := ethernetHeader transport
  ip_len := by
    intro b x hx
    unfold ipHeader at hx
    split at hx
    · obtain rfl := Option.some.inj hx
      rfl
    · cases hx
  ip_addresses := by
    intro b x hx
    unfold ipHeader at hx
    split at hx
    · next hlen =>
      obtain rfl := Option.some.inj hx
      simp only [List.length_take, List.length_drop]
      omega
    · cases hx
  ip_plain := by
    intro n hmin hmax
    have hlen : 20 ≤ (plainPacket n).length := by
      simp only [plainPacket, List.length_append, List.length_cons, List.length_nil,
        List.length_replicate]
      omega
    have hihl : 5 ≤ ((plainPacket n).getD 0 0).toNat % 16 := by
      show 5 ≤ (0x45 : UInt8).toNat % 16
      decide
    unfold ipHeader
    rw [if_pos ⟨hlen, hihl⟩, Option.isSome_some]
  ethernet_frame := by
    intro dst src v p
    cases v <;> rfl

/-- Decoders of headers, which look into no transport. -/
def headersOnly : Dpkt := headers fun _ => .other

theorem frame_parsed_iff_ordinary :
    parsePacket headersOnly (frame ⟨0x02, 0, 0, 0, 0, 1⟩ ⟨0x02, 0, 0, 0, 0, 2⟩ .v4
      (plainPacket 20)) = parsePacket headersOnly (plainPacket 20) :=
  (frame_parsed_iff headersOnly ⟨0x02, 0, 0, 0, 0, 1⟩).mpr ⟨by decide, by decide⟩
    _ _ _ ⟨0x45, _, rfl, rfl⟩

/-- **A frame that is taken for a packet.** The frame of a packet to an address that begins
with `6c` is read as a packet of version 6 that is cut short, and has no metadata. -/
theorem frame_to_6c_not_parsed :
    ¬ (∀ (d : Dpkt) (dst src : Mac) (v : IpVersion) (p : List UInt8), IsPacket v p →
      parsePacket d (frame dst src v p) = parsePacket d p) := by
  intro hall
  have hsame := hall headersOnly ⟨0x6C, 0, 0, 0, 0, 0⟩ ⟨0, 0, 0, 0, 0, 0⟩ .v4 (plainPacket 20)
    ⟨0x45, _, rfl, rfl⟩
  have hframe : parsePacket headersOnly (frame ⟨0x6C, 0, 0, 0, 0, 0⟩ ⟨0, 0, 0, 0, 0, 0⟩ .v4
      (plainPacket 20)) = .ok none := rfl
  obtain ⟨m, hm, -⟩ := parsePacket_plain headersOnly (Nat.le_refl 20) (by decide)
  rw [hframe, hm] at hsame
  cases hsame

end Parsers

end Sentrix
