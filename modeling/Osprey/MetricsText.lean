/-
**How long a history is on the wire.**

The phone's half of a session takes messages of one chunk only, so a `metrics.history` must never
need two.  What `serde_json` prints is a parameter: of its text nothing is assumed but how wide a
number can be, and how much there is besides the arrays of a history.  The bound is then a matter of
how many samples a history carries, for any ring.

Main definitions:

* `Osprey.decimal`, `Osprey.elements` — the text of an integer, and of the elements of an array;
* `Osprey.SerdeJson.PrintsHistory` — the widths that are assumed;
* `Osprey.historyText`, `Osprey.compactJson` — the compact text of a history, which has these
  widths.

Main results:

* `Osprey.length_elements_le` — an array is as long as its widest element allows;
* `Osprey.historyBody_lengths` — no array of a history is longer than its samples;
* `Osprey.history_one_chunk` — **a history is one chunk, and the phone takes it**.
-/

import Osprey.FfiBridge
import Osprey.Envelope
import Osprey.MetricsRing
import Osprey.Revocation

set_option relaxedAutoImplicit false
set_option autoImplicit false

namespace Osprey

variable {F V T : Type}

/-! ### Numbers and arrays -/

/-- An integer in its decimal digits. -/
def decimal (n : ℕ) : List Char := Nat.toDigits 10 n

/-- The elements of an array, as they stand between its brackets. -/
def elements (items : List (List Char)) : List Char := (items.intersperse [',']).flatten

theorem length_decimal_le {n k : ℕ} (hk : 0 < k) (h : n < 10 ^ k) : (decimal n).length ≤ k :=
  (Nat.length_toDigits_le_iff (by decide) hk).mpr h

theorem length_decimal_uint64 (n : UInt64) : (decimal n.toNat).length ≤ 20 :=
  length_decimal_le (by decide) (n.toNat_lt.trans (by decide))

/-- An array is as long as its widest element allows. -/
theorem length_elements_le {width : ℕ} {items : List (List Char)}
    (h : ∀ item ∈ items, item.length ≤ width) :
    (elements items).length ≤ items.length * (width + 1) := by
  induction items with
  | nil => exact Nat.zero_le _
  | cons item items ih =>
      have hitem := h item List.mem_cons_self
      have hitems := ih fun other hother => h other (List.mem_cons_of_mem _ hother)
      rw [List.length_cons, Nat.succ_mul]
      cases items with
      | nil =>
          simp only [elements, List.intersperse_singleton, List.flatten_cons, List.flatten_nil,
            List.append_nil]
          omega
      | cons next items =>
          simp only [elements, List.intersperse_cons_cons, List.flatten_cons, List.length_append,
            List.length_singleton] at hitems ⊢
          omega

/-- What is assumed of the text of a history: a float prints in at most 25 characters and an integer
in its decimal digits, and there is at most 1 KiB besides the elements of the arrays. -/
structure SerdeJson.PrintsHistory (json : SerdeJson F V) (f64 : F → List Char) : Prop where
  f64_le : ∀ x, (f64 x).length ≤ 25
  overhead : ∀ (id : Uuid) (ts : Int64) (body : MetricsHistoryBody F) (envelope : Envelope V)
    (bytes : Bytes), Envelope.new json id ts (.metricsHistory body) = .ok envelope →
      json.toVec envelope = .ok bytes →
      bytes.length ≤ 1024 + (elements (body.cpuPercent.map f64)).length
        + (elements (body.memUsedBytes.map fun n => decimal n.toNat)).length
        + (elements (body.netRxBytesPerSec.map fun n => decimal n.toNat)).length
        + (elements (body.netTxBytesPerSec.map fun n => decimal n.toNat)).length

/-! ### The arrays of a history -/

theorem length_collectRates (samples : List (Sample F)) :
    (collectRates samples).1.length ≤ samples.length ∧
      (collectRates samples).2.1.length ≤ samples.length ∧
      (collectRates samples).2.2.1.length ≤ samples.length ∧
      (collectRates samples).2.2.2.length ≤ samples.length := by
  induction samples with
  | nil => simp [collectRates]
  | cons sample samples ih =>
      unfold collectRates
      split
      · simpa using ih
      · simp

/-- No array of a history is longer than a history can be. -/
theorem historyBody_lengths (ring : RingBuffer F) (backfillSeconds : UInt32) (nowMs : Int64)
    (id : Uuid) (installed : Option UInt64) {body : MetricsHistoryBody F}
    (hbody : body = .historyBody id (ring.history backfillSeconds nowMs) installed) :
    body.cpuPercent.length ≤ MAX_HISTORY_SAMPLES ∧
      body.memUsedBytes.length ≤ MAX_HISTORY_SAMPLES ∧
      body.netRxBytesPerSec.length ≤ MAX_HISTORY_SAMPLES ∧
      body.netTxBytesPerSec.length ≤ MAX_HISTORY_SAMPLES := by
  subst hbody
  cases hhistory : ring.history backfillSeconds nowMs with
  | none => simp [MetricsHistoryBody.historyBody]
  | some history =>
      obtain ⟨hcpu, hmem, hrx, htx⟩ := length_collectRates history.samples
      have hlength := RingBuffer.length_history_le hhistory
      refine ⟨?_, ?_, hrx.trans hlength, htx.trans hlength⟩
      · exact (List.length_take_le' _ _).trans (hcpu.trans hlength)
      · exact (List.length_take_le' _ _).trans (hmem.trans hlength)

/-- An array of as many elements as a history can have, of a type that prints in a bounded width. -/
theorem length_elements_map {α : Type} {text : α → List Char} {width : ℕ}
    (htext : ∀ a, (text a).length ≤ width) {list : List α} (h : list.length ≤ MAX_HISTORY_SAMPLES) :
    (elements (list.map text)).length ≤ MAX_HISTORY_SAMPLES * (width + 1) := by
  refine (length_elements_le ?_).trans (Nat.mul_le_mul_right _ (by simpa using h))
  intro item hitem
  obtain ⟨a, -, rfl⟩ := List.mem_map.mp hitem
  exact htext a

/-- A payload that fits a chunk is one chunk. -/
theorem splitIntoChunks_eq_final {payload : Bytes} (h : payload.length ≤ MAX_CHUNK_PAYLOAD_LEN) :
    splitIntoChunks payload = [FLAG_FINAL :: payload] := by
  unfold splitIntoChunks
  split
  · rename_i hnil
    rw [hnil]
  · rename_i hne
    have hpositive : 0 < payload.length := List.length_pos_iff.mpr hne
    have hmax : 0 < MAX_CHUNK_PAYLOAD_LEN := by decide
    have htotal : divCeil payload.length MAX_CHUNK_PAYLOAD_LEN = 1 := by
      unfold divCeil
      exact Nat.div_eq_of_lt_le (by omega) (by omega)
    have hchunks : chunks MAX_CHUNK_PAYLOAD_LEN payload = [payload] := by
      rw [chunks, if_pos ⟨hmax, hne⟩, List.take_of_length_le h, List.drop_of_length_le h, chunks,
        if_neg (by simp)]
    simp only [htotal, hchunks]
    rfl

/-- A chunk that is final and fits is taken by the phone. -/
theorem decryptOne_final (snow : SnowTransport T) (session : NoiseSession T) (inbound : Bytes)
    {frame payload : Bytes} {state : T} (hframe : frame.length ≤ NOISE_MAX_MESSAGE_LEN)
    (hread : snow.readMessage session.state frame = .ok (FLAG_FINAL :: payload, state))
    (hpayload : payload.length ≤ MAX_CHUNK_PAYLOAD_LEN) :
    (decryptOne snow (NoiseTransport.fromSession session inbound).session (encodeFrame frame)).1
      = .ok payload := by
  have haccept : acceptChunk snow MAX_CHUNK_PAYLOAD_LEN
      (NoiseTransport.fromSession session inbound).session.maxChunks session.state frame [] 0
        = (.ok (true, payload), state) := by
    have hchunks : (NoiseTransport.fromSession session inbound).session.maxChunks = 3 := by
      change MAX_CHUNK_PAYLOAD_LEN / MAX_CHUNK_PAYLOAD_LEN + 2 = 3
      decide
    simp [acceptChunk, hchunks, hread, Nat.not_lt.mpr hpayload]
  rcases decryptOne_encodeFrame snow (NoiseTransport.fromSession session inbound).session
    hframe with
    ⟨message, state', hmessage, hdecrypt⟩ | ⟨hnever, -⟩
  · cases haccept.symm.trans hmessage
    rw [hdecrypt]
  · exact absurd haccept (hnever payload state)

/-- **A history is one chunk, and the phone takes it**: whatever the ring holds, and whatever is
asked of it and when. -/
theorem history_one_chunk {json : SerdeJson F V} {f64 : F → List Char}
    (hprints : json.PrintsHistory f64) (ring : RingBuffer F) (backfillSeconds : UInt32)
    (nowMs : Int64) (id : Uuid) (installed : Option UInt64) (ts : Int64) {envelope : Envelope V}
    (hnew : Envelope.new json id ts (.metricsHistory
      (.historyBody id (ring.history backfillSeconds nowMs) installed)) = .ok envelope)
    {bytes : Bytes} (hbytes : json.toVec envelope = .ok bytes) :
    bytes.length ≤ MAX_CHUNK_PAYLOAD_LEN ∧ splitIntoChunks bytes = [FLAG_FINAL :: bytes] ∧
      ∀ (T : Type) (snow : SnowTransport T) (session : NoiseSession T) (inbound frame : Bytes)
        (state : T), frame.length ≤ NOISE_MAX_MESSAGE_LEN →
        snow.readMessage session.state frame = .ok (FLAG_FINAL :: bytes, state) →
        (decryptOne snow (NoiseTransport.fromSession session inbound).session
          (encodeFrame frame)).1 = .ok bytes := by
  obtain ⟨hcpu, hmem, hrx, htx⟩ := historyBody_lengths ring backfillSeconds nowMs id installed rfl
  have hfits : bytes.length ≤ MAX_CHUNK_PAYLOAD_LEN := by
    have htotal := hprints.overhead id ts _ envelope bytes hnew hbytes
    have hfloats := length_elements_map hprints.f64_le hcpu
    have hused := length_elements_map length_decimal_uint64 hmem
    have hreceived := length_elements_map length_decimal_uint64 hrx
    have hsent := length_elements_map length_decimal_uint64 htx
    have hroom : 1024 + MAX_HISTORY_SAMPLES * 26 + 3 * (MAX_HISTORY_SAMPLES * 21)
        ≤ MAX_CHUNK_PAYLOAD_LEN := by decide
    omega
  refine ⟨hfits, splitIntoChunks_eq_final hfits, ?_⟩
  intro T snow session inbound frame state hframe hread
  exact decryptOne_final snow session inbound hframe hread hfits

/-! ### A printer -/

/-- A signed integer in its decimal digits. -/
def integer (i : ℤ) : List Char := (if i < 0 then ['-'] else []) ++ decimal i.natAbs

/-- The hyphenated form of an id. -/
def hyphenated (id : Uuid) : List Char :=
  let hex := hexEncode id.val
  hex.take 8 ++ ['-'] ++ (hex.drop 8).take 4 ++ ['-'] ++ (hex.drop 12).take 4 ++ ['-'] ++
    (hex.drop 16).take 4 ++ ['-'] ++ hex.drop 20

/-- What stands before each value of a history, and after the last. -/
def historyKeys : List (List Char) :=
  ["\x7b\"v\":".toList, ",\"id\":\"".toList, "\",\"t\":\"metrics.history\",\"ts\":".toList,
    ",\"body\":\x7b\"cpu_percent\":[".toList, "],\"interval_ms\":".toList, [],
    ",\"mem_used_bytes\":[".toList, "],\"net_rx_bytes_per_sec\":[".toList,
    "],\"net_tx_bytes_per_sec\":[".toList, "],\"start_ts\":".toList, ",\"sub\":\"".toList,
    "\"\x7d\x7d".toList]

def installedKey : List Char := ",\"mem_total_bytes\":".toList

/-- The text of the installed memory, with its key; nothing if it is unknown. -/
def installedText : Option UInt64 → List Char
  | none => []
  | some total => installedKey ++ decimal total.toNat

/-- The values: the fields of the envelope in their order, those of the body in that of their
names. -/
def historyValues (f64 : F → List Char) (envelope : Envelope V) (body : MetricsHistoryBody F) :
    List (List Char) :=
  [decimal envelope.v.toNat, hyphenated envelope.id, integer envelope.ts.toInt,
    elements (body.cpuPercent.map f64), decimal body.intervalMs.toNat,
    installedText body.memTotalBytes, elements (body.memUsedBytes.map fun n => decimal n.toNat),
    elements (body.netRxBytesPerSec.map fun n => decimal n.toNat),
    elements (body.netTxBytesPerSec.map fun n => decimal n.toNat), integer body.startTs.toInt,
    hyphenated body.sub, []]

/-- The compact text of a history. -/
def historyText (f64 : F → List Char) (envelope : Envelope V) (body : MetricsHistoryBody F) :
    List Char :=
  (List.zipWith (· ++ ·) historyKeys (historyValues f64 envelope body)).flatten

theorem length_zipWith_flatten_le (keys values : List (List Char)) :
    (List.zipWith (· ++ ·) keys values).flatten.length
      ≤ keys.flatten.length + values.flatten.length := by
  induction keys generalizing values with
  | nil => exact Nat.zero_le _
  | cons key keys ih =>
      cases values with
      | nil => exact Nat.zero_le _
      | cons value values =>
          have hrest := ih values
          simp only [List.zipWith_cons_cons, List.flatten_cons, List.length_append]
          omega

theorem length_integer_int64 (i : Int64) : (integer i.toInt).length ≤ 20 := by
  have hlow := i.le_toInt
  have hhigh := i.toInt_lt
  have hdigits : (decimal i.toInt.natAbs).length ≤ 19 :=
    length_decimal_le (by decide) (by omega)
  rw [integer, List.length_append]
  split
  · rw [List.length_singleton]
    omega
  · rw [List.length_nil]
    omega

theorem length_hyphenated (id : Uuid) : (hyphenated id).length = 36 := by
  simp [hyphenated, length_hexEncode, id.property]

theorem length_decimal_uint32 (n : UInt32) : (decimal n.toNat).length ≤ 10 :=
  length_decimal_le (by decide) (n.toNat_lt.trans (by decide))

theorem length_installedText_le (installed : Option UInt64) :
    (installedText installed).length ≤ 39 := by
  cases installed with
  | none => exact Nat.zero_le _
  | some total =>
      have hkey : installedKey.length = 19 := by decide +kernel
      have hdigits := length_decimal_uint64 total
      rw [installedText, List.length_append, hkey]
      omega

theorem length_historyText_le (f64 : F → List Char) (envelope : Envelope V)
    (body : MetricsHistoryBody F) :
    (historyText f64 envelope body).length ≤ 1024 + (elements (body.cpuPercent.map f64)).length
      + (elements (body.memUsedBytes.map fun n => decimal n.toNat)).length
      + (elements (body.netRxBytesPerSec.map fun n => decimal n.toNat)).length
      + (elements (body.netTxBytesPerSec.map fun n => decimal n.toNat)).length := by
  have hversion := length_decimal_uint32 envelope.v
  have hts := length_integer_int64 envelope.ts
  have hinterval := length_decimal_uint32 body.intervalMs
  have hstart := length_integer_int64 body.startTs
  have hinstalled := length_installedText_le body.memTotalBytes
  have hkeys : historyKeys.flatten.length ≤ 300 := by decide +kernel
  refine (length_zipWith_flatten_le historyKeys (historyValues f64 envelope body)).trans ?_
  simp only [historyValues, List.flatten_cons, List.flatten_nil, List.length_append,
    List.length_nil, length_hyphenated]
  omega

/-- A printer of histories, of whole percentages. -/
def compactJson : SerdeJson UInt8 (Body UInt8) where
  fromSlice _ := .error ⟨"expected value"⟩
  toVec envelope :=
    match envelope.body with
    | .metricsHistory body =>
        .ok ((historyText (fun x => decimal x.toNat ++ ".0".toList) envelope body).map fun c =>
          UInt8.ofNat c.toNat)
    | _ => .error ⟨"not a history"⟩
  toValue body := .ok body
  error _ := .error ⟨"invalid type"⟩
  hello _ := .error ⟨"invalid type"⟩
  helloOk _ := .error ⟨"invalid type"⟩
  ping _ := .error ⟨"invalid type"⟩
  pong _ := .error ⟨"invalid type"⟩
  bye _ := .error ⟨"invalid type"⟩
  pairRequest _ := .error ⟨"invalid type"⟩
  pairConfirm _ := .error ⟨"invalid type"⟩
  pairRevoke _ := .error ⟨"invalid type"⟩
  metricsSubscribe _ := .error ⟨"invalid type"⟩
  metricsTick _ := .error ⟨"invalid type"⟩
  metricsHistory _ := .error ⟨"invalid type"⟩

theorem compactJson_printsHistory :
    compactJson.PrintsHistory fun x => decimal x.toNat ++ ".0".toList := by
  refine ⟨?_, ?_⟩
  · intro x
    have hdigits : (decimal x.toNat).length ≤ 3 :=
      length_decimal_le (by decide) (x.toNat_lt.trans (by decide))
    simp
    omega
  · intro id ts body envelope bytes hnew hbytes
    obtain rfl := Except.ok.inj hnew
    have htext := Except.ok.inj hbytes
    rw [← htext, List.length_map]
    exact length_historyText_le _ _ _

/-- A ring of two samples. -/
def twoSamples : RingBuffer UInt8 :=
  (RingBuffer.new.push ⟨0, 7, 1000, 2000, [], some 10, some 20⟩).push
    ⟨30000, 8, 1100, 2000, [], some 30, some 40⟩

theorem history_one_chunk_two : ∃ envelope bytes,
    Envelope.new compactJson (toyUuid 1) 31000 (.metricsHistory
      (.historyBody (toyUuid 1) (twoSamples.history 60 31000) none)) = .ok envelope ∧
      compactJson.toVec envelope = .ok bytes ∧ bytes.length ≤ MAX_CHUNK_PAYLOAD_LEN :=
  ⟨_, _, rfl, rfl, (history_one_chunk compactJson_printsHistory twoSamples 60 31000 (toyUuid 1) none
    31000 rfl rfl).1⟩

end Osprey
