import Mathlib.Data.Int.Notation
import Mathlib.Data.List.Forall2
import Mathlib.Tactic.Common

/-!
# The TLS handshake parser

`parse_tls_handshake` of `parsers/tls_quic_handshake.py` goes through the TLS records of a
TCP payload and collects the ciphers and extensions of the handshake messages among them.
Records of type 23 hold application data and are passed over unread. So two payloads that
differ in nothing but the contents of such records have the same result
(`app_data_ignored`), whatever the other records hold, and also where the handshake of one
of them raises after the result was partly updated.

Framing and handshake messages are decoded by third-party code (`TlsDecoder`). Of the
framing, the parser relies on what a record is: it is read from the front, and the rest of
the payload is read as if it were alone.
-/

namespace Sentrix

namespace Parsers

/-- A TLS record. Its contents fit its length field, and its version is 3.0 to 3.3. -/
@[ext]
structure TlsRecord where
  type : UInt8
  minor : Fin 4
  data : List UInt8
  short : data.length < 65536

/-- A record as it is sent. -/
def TlsRecord.bytes (r : TlsRecord) : List UInt8 :=
  [r.type, 3, r.minor.val.toUInt8, (r.data.length / 256).toUInt8, r.data.length.toUInt8] ++ r.data

/-- What `dpkt.ssl.tls_multi_factory` does with a payload. -/
inductive Framing
  | records (rs : List TlsRecord)
  /-- `NeedData` or `UnpackError`. -/
  | refused
  /-- Any other exception. -/
  | raises

/-- One more record in front. -/
def Framing.cons (r : TlsRecord) : Framing → Framing
  | .records rs => .records (r :: rs)
  | .refused => .refused
  | .raises => .raises

/-- An extension of a hello message, as far as it is read. -/
structure TlsExtension where
  /-- `ext.value`; `none` if reading it raises. -/
  value : Option ℤ
  /-- Whether `TLSExtension(ext.data)` raises nothing. -/
  sniDecodes : Bool

/-- The body of a handshake message: the attributes it has. -/
structure HelloBody (κ : Type) where
  ciphers : Option (List κ)
  extensions : Option (List TlsExtension)
  cipher : Option κ

/-- `dpkt.ssl.TLSHandshake`. -/
structure TlsHandshake (κ : Type) where
  type : ℤ
  /-- `none` if reading it raises. -/
  data : Option (HelloBody κ)

/-- The decoders of `dpkt.ssl`; a handshake decoder that raises answers `none`. -/
structure TlsDecoder (κ : Type) where
  multiFactory : List UInt8 → Framing
  handshake : List UInt8 → Option (TlsHandshake κ)
  /-- A record in front of a payload is the first of its records. -/
  multiFactory_record : ∀ (r : TlsRecord) (rest : List UInt8),
    multiFactory (r.bytes ++ rest) = (multiFactory rest).cons r

/-- The dictionary `parse_tls_handshake` returns. -/
structure TlsMeta (κ : Type) where
  sni : Option String
  ciphers : List κ
  extensions : List ℤ

section Parser

variable {κ : Type}

/-- The loop over the extensions; one that cannot be read ends it, and what was collected
stays. -/
def readExtensions (result : TlsMeta κ) : List TlsExtension → TlsMeta κ
  | [] => result
  | ext :: exts =>
    match ext.value with
    | none => result
    | some value =>
      let result := { result with extensions := result.extensions ++ [value] }
      readExtensions
        -- the exception of an SNI that does not decode is passed over
        (if value = 0 ∧ ext.sniDecodes = true then { result with sni := some "<extracted_sni>" }
        else result) exts

/-- A client hello. -/
def readClientHello (result : TlsMeta κ) (ch : HelloBody κ) : TlsMeta κ :=
  let result :=
    match ch.ciphers with
    | some ciphers => { result with ciphers := ciphers }
    | none => result
  match ch.extensions with
  | some extensions => readExtensions result extensions
  | none => result

/-- A server hello. -/
def readServerHello (result : TlsMeta κ) (sh : HelloBody κ) : TlsMeta κ :=
  match sh.cipher with
  | some cipher => { result with ciphers := result.ciphers ++ [cipher] }
  | none => result

/-- The contents of a handshake record; an exception is ignored. -/
def readHandshake (d : TlsDecoder κ) (result : TlsMeta κ) (handshakeData : List UInt8) :
    TlsMeta κ :=
  if handshakeData = [] then result
  else
    match d.handshake handshakeData with
    | none => result
    | some hs =>
      if hs.type = 1 then (hs.data.map (readClientHello result)).getD result
      else if hs.type = 2 then (hs.data.map (readServerHello result)).getD result
      else result

/-- One record. -/
def readRecord (d : TlsDecoder κ) (result : TlsMeta κ) (record : TlsRecord) : TlsMeta κ :=
  if record.type = 23 then result
  else if record.type = 22 then readHandshake d result record.data
  else result

/-- `parse_tls_handshake`; an exception is an `error`. -/
def parseTlsHandshake (d : TlsDecoder κ) (tcpPayload : List UInt8) :
    Except Unit (Option (TlsMeta κ)) :=
  match tcpPayload with
  | [] => .ok none
  | b :: _ =>
    if b ≠ 0x16 then .ok none
    else
      match d.multiFactory tcpPayload with
      | .refused => .ok none
      | .raises => .error ()
      | .records records => .ok (some (records.foldl (readRecord d) ⟨none, [], []⟩))

/-! ### Payloads -/

/-- The payload that consists of some records. -/
def encode (rs : List TlsRecord) : List UInt8 := rs.flatMap TlsRecord.bytes

/-- The two records are the same, or both hold application data. -/
def SameButAppData (r r' : TlsRecord) : Prop :=
  r.type = r'.type ∧ r.minor = r'.minor ∧ (r.type ≠ 23 → r.data = r'.data)

/-- A payload that begins with some records is framed into them and what follows. -/
theorem multiFactory_encode (d : TlsDecoder κ) (rs : List TlsRecord) (rest : List UInt8) :
    d.multiFactory (encode rs ++ rest) = rs.foldr Framing.cons (d.multiFactory rest) := by
  induction rs with
  | nil => rfl
  | cons r rs ih =>
    show d.multiFactory (r.bytes ++ encode rs ++ rest) = _
    rw [List.append_assoc, d.multiFactory_record, ih, List.foldr_cons]

theorem foldr_cons_records (rs ts : List TlsRecord) :
    rs.foldr Framing.cons (.records ts) = .records (rs ++ ts) := by
  induction rs with
  | nil => rfl
  | cons r rs ih =>
    rw [List.foldr_cons, ih]
    rfl

theorem foldr_cons_refused (rs : List TlsRecord) : rs.foldr Framing.cons .refused = .refused := by
  induction rs with
  | nil => rfl
  | cons r rs ih =>
    rw [List.foldr_cons, ih]
    rfl

theorem foldr_cons_raises (rs : List TlsRecord) : rs.foldr Framing.cons .raises = .raises := by
  induction rs with
  | nil => rfl
  | cons r rs ih =>
    rw [List.foldr_cons, ih]
    rfl

/-- **One record**: the contents of application data are not read. -/
theorem readRecord_same (d : TlsDecoder κ) (result : TlsMeta κ) {r r' : TlsRecord}
    (h : SameButAppData r r') : readRecord d result r = readRecord d result r' := by
  obtain ⟨htype, -, hdata⟩ := h
  unfold readRecord
  rw [← htype]
  by_cases happ : r.type = 23
  · rw [if_pos happ, if_pos happ]
  · rw [hdata happ]

/-- **All records.** -/
theorem foldl_readRecord_same (d : TlsDecoder κ) {rs rs' : List TlsRecord}
    (h : List.Forall₂ SameButAppData rs rs') (ts : List TlsRecord) (result : TlsMeta κ) :
    (rs ++ ts).foldl (readRecord d) result = (rs' ++ ts).foldl (readRecord d) result := by
  induction h generalizing result with
  | nil => rfl
  | cons hr _ ih =>
    rw [List.cons_append, List.cons_append, List.foldl_cons, List.foldl_cons,
      readRecord_same d result hr]
    exact ih _

/-- **Application data has no influence.** Two payloads that begin with the same records up
to the contents of records of type 23, and end alike, have the same result. -/
theorem app_data_ignored (d : TlsDecoder κ) (rs rs' : List TlsRecord)
    (h : List.Forall₂ SameButAppData rs rs') (rest : List UInt8) :
    parseTlsHandshake d (encode rs ++ rest) = parseTlsHandshake d (encode rs' ++ rest) := by
  have hframing := multiFactory_encode d rs rest
  have hframing' := multiFactory_encode d rs' rest
  have hfold := foldl_readRecord_same d h
  cases h with
  | nil => rfl
  | @cons r r' rs rs' hr _ =>
    -- the first bytes are the types of the first records
    have hhead : encode (r :: rs) ++ rest = r.type :: (encode (r :: rs) ++ rest).tail := rfl
    have hhead' : encode (r' :: rs') ++ rest = r.type :: (encode (r' :: rs') ++ rest).tail := by
      rw [hr.1]
      rfl
    unfold parseTlsHandshake
    rw [hhead, hhead']
    dsimp only
    rw [← hhead, ← hhead', hframing, hframing']
    cases d.multiFactory rest with
    | refused => rw [foldr_cons_refused, foldr_cons_refused]
    | raises => rw [foldr_cons_raises, foldr_cons_raises]
    | records ts =>
      rw [foldr_cons_records, foldr_cons_records]
      dsimp only
      rw [hfold ts]

end Parser

/-! ### A decoder -/

/-- What is in front of a payload. -/
inductive FirstRecord
  | record (r : TlsRecord) (rest : List UInt8)
  | incomplete
  | badVersion

/-- The first record of a payload. -/
def firstRecord : List UInt8 → FirstRecord
  | t :: v :: m :: l :: l' :: rest =>
    if hm : v = 3 ∧ m.toNat < 4 then
      if rest.length < l.toNat * 256 + l'.toNat then .incomplete
      else
        .record
          { type := t
            minor := ⟨m.toNat, hm.2⟩
            data := rest.take (l.toNat * 256 + l'.toNat)
            short := by
              have hl := l.toNat_lt
              have hl' := l'.toNat_lt
              rw [List.length_take]
              omega }
          (rest.drop (l.toNat * 256 + l'.toNat))
    else .badVersion
  | _ => .incomplete

/-- The records of a payload, at most `n`: an incomplete record ends it, and a version that
is none raises. -/
def frameRecords : ℕ → List UInt8 → Framing
  | 0, _ => .records []
  | n + 1, b =>
    match firstRecord b with
    | .incomplete => .records []
    | .badVersion => .raises
    | .record r rest => (frameRecords n rest).cons r

/-- A record's own bytes are framed as the record. -/
theorem firstRecord_bytes (r : TlsRecord) (rest : List UInt8) :
    firstRecord (r.bytes ++ rest) = .record r rest := by
  -- the version and the length are read back from the bytes they were written to
  have hminor : r.minor.val.toUInt8.toNat = r.minor.val := by
    have hlt := r.minor.isLt
    simp only [Nat.toUInt8_eq, UInt8.toNat_ofNat']
    omega
  have hlen : (r.data.length / 256).toUInt8.toNat * 256 + r.data.length.toUInt8.toNat =
      r.data.length := by
    have hlt := r.short
    simp only [Nat.toUInt8_eq, UInt8.toNat_ofNat']
    omega
  have hversion : (3 : UInt8) = 3 ∧ r.minor.val.toUInt8.toNat < 4 := by
    rw [hminor]
    exact ⟨rfl, r.minor.isLt⟩
  show firstRecord (r.type :: 3 :: r.minor.val.toUInt8 :: (r.data.length / 256).toUInt8 ::
    r.data.length.toUInt8 :: (r.data ++ rest)) = _
  have hcomplete : ¬ (r.data ++ rest).length <
      (r.data.length / 256).toUInt8.toNat * 256 + r.data.length.toUInt8.toNat := by
    rw [hlen, List.length_append]
    omega
  rw [firstRecord, dif_pos hversion, if_neg hcomplete, FirstRecord.record.injEq]
  constructor
  · ext1
    · rfl
    · exact Fin.ext hminor
    · show (r.data ++ rest).take _ = r.data
      rw [hlen, List.take_left]
  · rw [hlen, List.drop_left]

/-- Framing a record takes something off. -/
theorem length_of_firstRecord {b rest : List UInt8} {r : TlsRecord}
    (h : firstRecord b = .record r rest) : rest.length < b.length := by
  unfold firstRecord at h
  split at h
  · split at h
    · split at h
      · cases h
      · cases h
        simp only [List.length_drop, List.length_cons]
        omega
    · cases h
  · cases h

/-- The bound makes no difference if it is large enough. -/
theorem frameRecords_congr {n m : ℕ} {b : List UInt8} (hn : b.length ≤ n) (hm : b.length ≤ m) :
    frameRecords n b = frameRecords m b := by
  induction n generalizing m b with
  | zero =>
    obtain rfl := List.length_eq_zero_iff.mp (Nat.le_zero.mp hn)
    cases m <;> rfl
  | succ n ih =>
    cases m with
    | zero =>
      obtain rfl := List.length_eq_zero_iff.mp (Nat.le_zero.mp hm)
      rfl
    | succ m =>
      rw [frameRecords, frameRecords]
      cases hfirst : firstRecord b with
      | incomplete => rfl
      | badVersion => rfl
      | record r rest =>
        -- each record shortens the rest, so enough fuel is enough
        have hlt := length_of_firstRecord hfirst
        exact congrArg (Framing.cons r) (ih (by omega) (by omega))

/-- Decoders that frame a payload into its records, and know no handshake message. -/
def framingOnly : TlsDecoder ℕ where
  multiFactory b := frameRecords b.length b
  handshake _ := none
  multiFactory_record := by
    intro r rest
    have hbytes : (r.bytes ++ rest).length = (r.data.length + rest.length + 4) + 1 := by
      simp only [TlsRecord.bytes, List.length_append, List.length_cons, List.length_nil]
      omega
    rw [hbytes, frameRecords, firstRecord_bytes]
    exact congrArg (Framing.cons r) (frameRecords_congr (by omega) (Nat.le_refl _))

/-- An empty client hello. -/
def helloRecord : TlsRecord := ⟨22, 1, [1, 0, 0, 0], by decide⟩

/-- Application data. -/
def secretRecord (secret : UInt8) (n : Fin 100) : TlsRecord :=
  ⟨23, 1, List.replicate n secret, by rw [List.length_replicate]; omega⟩

theorem app_data_ignored_secret :
    List.Forall₂ SameButAppData [helloRecord, secretRecord 84 19] [helloRecord, secretRecord 0 3] ∧
      parseTlsHandshake framingOnly (encode [helloRecord, secretRecord 84 19] ++ []) =
        parseTlsHandshake framingOnly (encode [helloRecord, secretRecord 0 3] ++ []) := by
  have hsame : List.Forall₂ SameButAppData [helloRecord, secretRecord 84 19]
      [helloRecord, secretRecord 0 3] := by
    have hhello : SameButAppData helloRecord helloRecord := ⟨rfl, rfl, fun _ => rfl⟩
    have hsecret : SameButAppData (secretRecord 84 19) (secretRecord 0 3) :=
      ⟨rfl, rfl, fun hne => absurd rfl hne⟩
    exact .cons hhello (.cons hsecret .nil)
  exact ⟨hsame, app_data_ignored framingOnly _ _ hsame []⟩

end Parsers

end Sentrix
