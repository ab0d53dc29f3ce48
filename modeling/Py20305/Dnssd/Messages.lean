import Mathlib.Data.List.Forall2
import Py20305.Dnssd.Names

/-!
Queries and responses (`client/dnssd/wire.py`).

`encode_query` and `encode_response` write a header with the number of the questions and records,
and then these one after the other; `decode_questions` and `decode_message` go through them by
their offsets. What is read is what was written (`response_round_trip`).

Left out: the addresses of A and AAAA records, which `ipaddress` prints.
-/

namespace Py20305.Dnssd

/-- `CLASS_IN`. -/
def classIn : Nat := 0x0001

/-- `QU_BIT`. -/
def quBit : Nat := 0x8000

/-- `CACHE_FLUSH`. -/
def cacheFlush : Nat := 0x8000

/-- `LEGACY_MAX_TTL`. -/
def legacyMaxTtl : Nat := 10

structure Record where
  name : Name
  rtype : Nat
  ttl : Nat
  rdata : Bytes
  unique : Bool
  deriving DecidableEq, Repr

structure Question where
  name : Name
  qtype : Nat
  unicast : Bool
  deriving DecidableEq, Repr

/-- `n.to_bytes(length, "big")`. -/
def toBytes? (length n : Nat) : Except EncodeError Bytes :=
  if n < 256 ^ length then .ok (toBytes length n) else .error .overflowError

/-- `encode_srv`. -/
def encodeSrv (port : Nat) (target : Name) : Except EncodeError Bytes := do
  let port ← toBytes? 2 port
  let target ← encodeName target
  return toBytes 2 0 ++ toBytes 2 0 ++ port ++ target

/-- A question of a response, without the QU bit. -/
def encodeQuestion (question : Question) : Except EncodeError Bytes := do
  let name ← encodeName question.name
  let qtype ← toBytes? 2 question.qtype
  return name ++ qtype ++ toBytes 2 classIn

/-- A record of a response. -/
def encodeRecord (legacy : Bool) (record : Record) : Except EncodeError Bytes := do
  let rclass :=
    if legacy then classIn else classIn ||| (if record.unique then cacheFlush else 0)
  let name ← encodeName record.name
  let rtype ← toBytes? 2 record.rtype
  let ttl ← toBytes? 4 (if legacy then min record.ttl legacyMaxTtl else record.ttl)
  let length ← toBytes? 2 record.rdata.length
  return name ++ rtype ++ toBytes 2 rclass ++ ttl ++ length ++ record.rdata

/-- The encodings of some items, one after the other. -/
def encodeAll {α : Type} (encode : α → Except EncodeError Bytes) : List α → Except EncodeError Bytes
  | [] => .ok []
  | item :: rest => do
      let first ← encode item
      let later ← encodeAll encode rest
      return first ++ later

/-- `encode_response`. -/
def encodeResponse (records : List Record) (ident : Nat) (questions : List Question) :
    Except EncodeError Bytes := do
  let legacy := !questions.isEmpty
  let ident ← toBytes? 2 ident
  let questionCount ← toBytes? 2 questions.length
  let recordCount ← toBytes? 2 records.length
  let asked ← encodeAll encodeQuestion questions
  let answers ← encodeAll (encodeRecord legacy) records
  return ident ++ toBytes 2 0x8400 ++ questionCount ++ recordCount ++
    (toBytes 2 0 ++ toBytes 2 0) ++ (asked ++ answers)

/-- `encode_query`. -/
def encodeQuery (labels : Name) (qtype ident : Nat) (unicast : Bool) :
    Except EncodeError Bytes := do
  let qclass := classIn ||| (if unicast then quBit else 0)
  let ident ← toBytes? 2 ident
  let name ← encodeName labels
  let qtype ← toBytes? 2 qtype
  return ident ++ toBytes 2 0 ++ toBytes 2 1 ++ (toBytes 2 0 ++ toBytes 2 0 ++ toBytes 2 0) ++
    name ++ qtype ++ toBytes 2 qclass

/-! ### Decoding -/

/-- The number in `data[first:last]`. -/
def numberAt (data : Bytes) (first last : Nat) : Nat := ofBytes (slice data first last)

/-- The loop of `decode_questions`. -/
def readQuestions (data : Bytes) : Nat → Nat → Except DnsDecodeError (List Question)
  | 0, _ => .ok []
  | count + 1, offset => do
      let (name, offset) ← readName data offset
      if data.length < offset + 4 then .error ⟨"question runs past the end of the message"⟩
      else
        let rest ← readQuestions data count (offset + 4)
        return {
          name := name
          qtype := numberAt data offset (offset + 2)
          unicast := numberAt data (offset + 2) (offset + 4) &&& quBit ≠ 0 } :: rest

/-- A message shorter than its header. -/
def shortMessage (data : Bytes) : DnsDecodeError :=
  ⟨s!"message shorter than a DNS header ({data.length} bytes)"⟩

/-- `decode_questions`. -/
def decodeQuestions (data : Bytes) : Except DnsDecodeError (List Question) :=
  if data.length < 12 then .error (shortMessage data)
  else if numberAt data 2 4 &&& 0x8000 ≠ 0 then .ok []
  else readQuestions data (numberAt data 4 6) 12

structure ResourceRecord where
  name : Name
  rtype : Nat
  rclass : Nat
  ttl : Nat
  rdataOffset : Nat
  rdataLength : Nat
  deriving DecidableEq, Repr

structure DnsMessage where
  ident : Nat
  records : List ResourceRecord
  raw : Bytes
  deriving DecidableEq, Repr

/-- The offset past the questions of a message. -/
def skipQuestions (data : Bytes) : Nat → Nat → Except DnsDecodeError Nat
  | 0, offset => .ok offset
  | count + 1, offset => do
      let (_, offset) ← readName data offset
      if data.length < offset + 4 then
        .error ⟨"question section runs past the end of the message"⟩
      else skipQuestions data count (offset + 4)

/-- The records of a message, from an offset on. -/
def readRecords (data : Bytes) : Nat → Nat → Except DnsDecodeError (List ResourceRecord)
  | 0, _ => .ok []
  | count + 1, offset => do
      let (name, offset) ← readName data offset
      if data.length < offset + 10 then .error ⟨"record header runs past the end of the message"⟩
      else
        let length := numberAt data (offset + 8) (offset + 10)
        if data.length < offset + 10 + length then
          .error ⟨"record data runs past the end of the message"⟩
        else
          let rest ← readRecords data count (offset + 10 + length)
          return {
            name := name
            rtype := numberAt data offset (offset + 2)
            rclass := numberAt data (offset + 2) (offset + 4) &&& 0x7FFF
            ttl := numberAt data (offset + 4) (offset + 8)
            rdataOffset := offset + 10
            rdataLength := length } :: rest

/-- `decode_message`. -/
def decodeMessage (data : Bytes) : Except DnsDecodeError DnsMessage :=
  if data.length < 12 then .error (shortMessage data)
  else do
    let offset ← skipQuestions data (numberAt data 4 6) 12
    let records ← readRecords data
      (numberAt data 6 8 + numberAt data 8 10 + numberAt data 10 12) offset
    return { ident := numberAt data 0 2, records := records, raw := data }

/-- `record_rdata`. -/
def recordRdata (message : DnsMessage) (record : ResourceRecord) : Bytes :=
  slice message.raw record.rdataOffset (record.rdataOffset + record.rdataLength)

/-- `_read_rdata_name`. -/
def readRdataName (message : DnsMessage) (record : ResourceRecord) (offset : Nat) :
    Except DnsDecodeError Name := do
  let (name, last) ← readName message.raw offset
  if record.rdataOffset + record.rdataLength < last then
    .error ⟨"a name runs past the end of the record that holds it"⟩
  else return name

/-- `decode_ptr`. -/
def decodePtr (message : DnsMessage) (record : ResourceRecord) : Except DnsDecodeError Name :=
  readRdataName message record record.rdataOffset

/-- `decode_srv`. -/
def decodeSrv (message : DnsMessage) (record : ResourceRecord) :
    Except DnsDecodeError (Nat × Name) :=
  if record.rdataLength < 7 then .error ⟨"SRV record is too short"⟩
  else do
    let port := numberAt message.raw (record.rdataOffset + 4) (record.rdataOffset + 6)
    let name ← readRdataName message record (record.rdataOffset + 6)
    return (port, name)

/-! ### What is written is read -/

theorem toBytes?_ok {length n : Nat} {out : Bytes} (encoded : toBytes? length n = .ok out) :
    n < 256 ^ length ∧ out = toBytes length n := by
  unfold toBytes? at encoded
  split_ifs at encoded with fits
  cases encoded
  exact ⟨fits, rfl⟩

/-- A number is read where it stands, and the rest stands behind it. -/
theorem numberAt_of_standsAt {data rest : Bytes} {offset length n : Nat}
    (stands : StandsAt data offset (toBytes length n ++ rest)) (fits : n < 256 ^ length) :
    numberAt data offset (offset + length) = n ∧ StandsAt data (offset + length) rest := by
  obtain ⟨number, follows⟩ := standsAt_append stands
  rw [length_toBytes] at follows
  exact ⟨number.ofBytes_slice fits rfl, follows⟩

theorem encodeQuestion_ok {question : Question} {out : Bytes}
    (encoded : encodeQuestion question = .ok out) :
    ∃ name, encodeName question.name = .ok name ∧ question.qtype < 256 ^ 2 ∧
      out = name ++ (toBytes 2 question.qtype ++ toBytes 2 classIn) := by
  obtain ⟨name, named, encoded⟩ := bind_eq_ok.mp encoded
  obtain ⟨qtype, typed, encoded⟩ := bind_eq_ok.mp encoded
  obtain ⟨fits, rfl⟩ := toBytes?_ok typed
  cases encoded
  exact ⟨name, named, fits, List.append_assoc ..⟩

/-- The class a record is written with. -/
def writtenClass (legacy unique : Bool) : Nat :=
  if legacy then classIn else classIn ||| (if unique then cacheFlush else 0)

/-- The time to live it is written with. -/
def writtenTtl (legacy : Bool) (ttl : Nat) : Nat := if legacy then min ttl legacyMaxTtl else ttl

theorem encodeRecord_ok {legacy : Bool} {record : Record} {out : Bytes}
    (encoded : encodeRecord legacy record = .ok out) :
    ∃ name, encodeName record.name = .ok name ∧ record.rtype < 256 ^ 2 ∧
      writtenTtl legacy record.ttl < 256 ^ 4 ∧ record.rdata.length < 256 ^ 2 ∧
      out.length = name.length + 10 + record.rdata.length ∧
      out = name ++ (toBytes 2 record.rtype ++ (toBytes 2 (writtenClass legacy record.unique) ++
        (toBytes 4 (writtenTtl legacy record.ttl) ++
          (toBytes 2 record.rdata.length ++ record.rdata)))) := by
  obtain ⟨name, named, encoded⟩ := bind_eq_ok.mp encoded
  obtain ⟨rtype, typed, encoded⟩ := bind_eq_ok.mp encoded
  obtain ⟨ttl, timed, encoded⟩ := bind_eq_ok.mp encoded
  obtain ⟨length, measured, encoded⟩ := bind_eq_ok.mp encoded
  obtain ⟨typeFits, rfl⟩ := toBytes?_ok typed
  obtain ⟨ttlFits, rfl⟩ := toBytes?_ok timed
  obtain ⟨lengthFits, rfl⟩ := toBytes?_ok measured
  cases encoded
  refine ⟨name, named, typeFits, ttlFits, lengthFits, ?_, ?_⟩
  · simp only [List.length_append, length_toBytes]
  · simp only [List.append_assoc]
    rfl

theorem encodeAll_cons {α : Type} {encode : α → Except EncodeError Bytes} {item : α}
    {rest : List α} {out : Bytes} (encoded : encodeAll encode (item :: rest) = .ok out) :
    ∃ first later, encode item = .ok first ∧ encodeAll encode rest = .ok later ∧
      out = first ++ later := by
  obtain ⟨first, this, encoded⟩ := bind_eq_ok.mp encoded
  obtain ⟨later, more, encoded⟩ := bind_eq_ok.mp encoded
  cases encoded
  exact ⟨first, later, this, more, rfl⟩

/-- Questions are skipped where they stand. -/
theorem skipQuestions_of_standsAt {data asked : Bytes} {questions : List Question} {offset : Nat}
    (encoded : encodeAll encodeQuestion questions = .ok asked)
    (stands : StandsAt data offset asked) :
    skipQuestions data questions.length offset = .ok (offset + asked.length) := by
  induction questions generalizing asked offset with
  | nil =>
      cases encoded
      rfl
  | cons question rest ih =>
      obtain ⟨first, later, this, more, rfl⟩ := encodeAll_cons encoded
      obtain ⟨name, named, -, rfl⟩ := encodeQuestion_ok this
      obtain ⟨here, follows⟩ := standsAt_append stands
      obtain ⟨nameHere, fixed⟩ := standsAt_append here
      have room := fixed.le
      simp only [List.length_append, length_toBytes] at room follows
      rw [List.length_cons, skipQuestions, readName_of_standsAt named nameHere]
      change (if data.length < offset + name.length + 4 then _ else _) = _
      rw [if_neg (by omega), ih more (by rwa [Nat.add_assoc])]
      simp only [List.length_append, length_toBytes]
      congr 1
      omega

/-- A record that was read holds what was written. -/
structure ReadBack (data : Bytes) (legacy : Bool) (found : ResourceRecord) (record : Record) :
    Prop where
  name : found.name = record.name
  rtype : found.rtype = record.rtype
  rclass : found.rclass = classIn
  ttl : found.ttl = writtenTtl legacy record.ttl
  length : found.rdataLength = record.rdata.length
  rdata : StandsAt data found.rdataOffset record.rdata

theorem writtenClass_spec (legacy unique : Bool) :
    writtenClass legacy unique < 256 ^ 2 ∧ writtenClass legacy unique &&& 0x7FFF = classIn := by
  cases legacy <;> cases unique <;> decide

theorem readRecords_of_standsAt {data answers : Bytes} {legacy : Bool} {records : List Record}
    {offset : Nat} (encoded : encodeAll (encodeRecord legacy) records = .ok answers)
    (stands : StandsAt data offset answers) :
    ∃ found, readRecords data records.length offset = .ok found ∧
      List.Forall₂ (ReadBack data legacy) found records := by
  induction records generalizing answers offset with
  | nil => exact ⟨[], rfl, .nil⟩
  | cons record rest ih =>
      obtain ⟨first, later, this, more, rfl⟩ := encodeAll_cons encoded
      obtain ⟨name, named, typeFits, ttlFits, lengthFits, whole, rfl⟩ := encodeRecord_ok this
      obtain ⟨here, follows⟩ := standsAt_append stands
      obtain ⟨nameHere, fields⟩ := standsAt_append here
      rw [whole, ← Nat.add_assoc, ← Nat.add_assoc] at follows
      have readHere := readName_of_standsAt named nameHere
      generalize offset + name.length = o at fields readHere follows
      obtain ⟨rtype, fields⟩ := numberAt_of_standsAt fields typeFits
      obtain ⟨rclass, fields⟩ :=
        numberAt_of_standsAt fields (writtenClass_spec legacy record.unique).1
      obtain ⟨ttl, fields⟩ := numberAt_of_standsAt fields ttlFits
      obtain ⟨length, rdata⟩ := numberAt_of_standsAt fields lengthFits
      have rclass : numberAt data (o + 2) (o + 4) = _ := rclass
      have ttl : numberAt data (o + 4) (o + 8) = _ := ttl
      have length : numberAt data (o + 8) (o + 10) = _ := length
      have room : o + 10 + record.rdata.length ≤ data.length := rdata.le
      obtain ⟨found, read, back⟩ := ih more follows
      let this : ResourceRecord := ⟨record.name, record.rtype, classIn,
        writtenTtl legacy record.ttl, o + 10, record.rdata.length⟩
      refine ⟨this :: found, ?_, .cons ⟨rfl, rfl, rfl, rfl, rfl, rdata⟩ back⟩
      rw [List.length_cons, readRecords, readHere]
      simp only [bind, Except.bind, length, rtype, rclass, ttl, read,
        (writtenClass_spec legacy record.unique).2]
      rw [if_neg (by omega), if_neg (by omega)]
      rfl

/-! ### Round trips -/

/-- A name whose labels have 1 to 63 bytes and whose encoding has at most 255. -/
def Encodable (labels : Name) : Prop :=
  (∀ label ∈ labels, 0 < label.length ∧ label.length ≤ 63) ∧
    (labels.map fun label => label.length + 1).sum + 1 ≤ 255

instance (labels : Name) : Decidable (Encodable labels) := by
  unfold Encodable; infer_instance

theorem encodeLabels_of_lengths {labels : Name}
    (each : ∀ label ∈ labels, 0 < label.length ∧ label.length ≤ 63) :
    ∃ body, encodeLabels labels = .ok body ∧
      body.length = (labels.map fun label => label.length + 1).sum := by
  induction labels with
  | nil => exact ⟨[], rfl, rfl⟩
  | cons label rest ih =>
      obtain ⟨body, encoded, length⟩ := ih fun l member => each l (List.mem_cons_of_mem label member)
      refine ⟨UInt8.ofNat label.length :: (label ++ body), ?_, ?_⟩
      · rw [encodeLabels, if_pos (each label List.mem_cons_self), encoded]
        rfl
      · simp only [List.length_cons, List.length_append, List.map_cons, List.sum_cons, length]
        omega

theorem encodeName_of_encodable {labels : Name} (encodable : Encodable labels) :
    ∃ out, encodeName labels = .ok out := by
  obtain ⟨body, encoded, length⟩ := encodeLabels_of_lengths encodable.1
  refine ⟨body ++ [0], ?_⟩
  have fits : (body ++ [0]).length ≤ 255 := by
    rw [List.length_append, length]
    exact encodable.2
  rw [encodeName, encoded]
  exact if_pos fits

/-- A record that can be written. -/
structure Record.Encodable (record : Record) : Prop where
  name : Dnssd.Encodable record.name
  rtype : record.rtype < 2 ^ 16
  ttl : record.ttl < 2 ^ 32
  rdata : record.rdata.length < 2 ^ 16

structure Question.Encodable (question : Question) : Prop where
  name : Dnssd.Encodable question.name
  qtype : question.qtype < 2 ^ 16

theorem toBytes?_of_lt {length n : Nat} (fits : n < 256 ^ length) :
    toBytes? length n = .ok (toBytes length n) := if_pos fits

theorem encodeQuestion_of_encodable {question : Question} (encodable : question.Encodable) :
    ∃ out, encodeQuestion question = .ok out := by
  obtain ⟨name, named⟩ := encodeName_of_encodable encodable.name
  have qtype : question.qtype < 256 ^ 2 := encodable.qtype
  exact ⟨_, bind_eq_ok.mpr ⟨name, named, bind_eq_ok.mpr ⟨_, toBytes?_of_lt qtype, rfl⟩⟩⟩

theorem encodeRecord_of_encodable (legacy : Bool) {record : Record}
    (encodable : record.Encodable) : ∃ out, encodeRecord legacy record = .ok out := by
  obtain ⟨name, named⟩ := encodeName_of_encodable encodable.name
  have rtype : record.rtype < 256 ^ 2 := encodable.rtype
  have rdata : record.rdata.length < 256 ^ 2 := encodable.rdata
  have ttl : (if legacy then min record.ttl legacyMaxTtl else record.ttl) < 256 ^ 4 := by
    split
    · exact lt_of_le_of_lt (min_le_left _ _) encodable.ttl
    · exact encodable.ttl
  exact ⟨_, bind_eq_ok.mpr ⟨name, named, bind_eq_ok.mpr ⟨_, toBytes?_of_lt rtype,
    bind_eq_ok.mpr ⟨_, toBytes?_of_lt ttl, bind_eq_ok.mpr ⟨_, toBytes?_of_lt rdata, rfl⟩⟩⟩⟩⟩

theorem encodeAll_of_each {α : Type} {encode : α → Except EncodeError Bytes} {items : List α}
    (each : ∀ item ∈ items, ∃ out, encode item = .ok out) :
    ∃ out, encodeAll encode items = .ok out := by
  induction items with
  | nil => exact ⟨[], rfl⟩
  | cons item rest ih =>
      obtain ⟨first, this⟩ := each item List.mem_cons_self
      obtain ⟨later, more⟩ := ih fun i member => each i (List.mem_cons_of_mem item member)
      exact ⟨_, bind_eq_ok.mpr ⟨first, this, bind_eq_ok.mpr ⟨later, more, rfl⟩⟩⟩

/-- A record of a message reads as the one that was published. -/
structure ReadsAs (message : DnsMessage) (legacy : Bool) (found : ResourceRecord)
    (record : Record) : Prop where
  name : found.name = record.name
  rtype : found.rtype = record.rtype
  rclass : found.rclass = classIn
  ttl : found.ttl = if legacy then min record.ttl legacyMaxTtl else record.ttl
  rdata : recordRdata message found = record.rdata
  srv : ∀ port target, encodeSrv port target = .ok record.rdata →
    decodeSrv message found = .ok (port, target)
  ptr : ∀ target, encodeName target = .ok record.rdata → decodePtr message found = .ok target

theorem ReadBack.readsAs {message : DnsMessage} {legacy : Bool} {found : ResourceRecord}
    {record : Record} (back : ReadBack message.raw legacy found record) :
    ReadsAs message legacy found record := by
  refine ⟨back.name, back.rtype, back.rclass, back.ttl, ?_, fun port target encoded => ?_,
    fun target encoded => ?_⟩
  · exact back.rdata.slice_eq (by rw [back.length])
  · obtain ⟨_, ported, encoded⟩ := bind_eq_ok.mp encoded
    obtain ⟨name, named, encoded⟩ := bind_eq_ok.mp encoded
    obtain ⟨fits, rfl⟩ := toBytes?_ok ported
    have rdata := back.rdata
    have length := back.length
    simp only [← Except.ok.inj encoded, List.append_assoc] at rdata length
    obtain ⟨-, rdata⟩ := numberAt_of_standsAt rdata (by decide)
    obtain ⟨-, rdata⟩ := numberAt_of_standsAt rdata (by decide)
    obtain ⟨portRead, nameHere⟩ := numberAt_of_standsAt rdata fits
    have read : readName message.raw (found.rdataOffset + 6) =
        .ok (target, found.rdataOffset + 6 + name.length) := readName_of_standsAt named nameHere
    have portRead : numberAt message.raw (found.rdataOffset + 4) (found.rdataOffset + 6) = port :=
      portRead
    have positive := encodeName_length_pos named
    simp only [List.length_append, length_toBytes] at length
    rw [decodeSrv, if_neg (by omega), readRdataName, read, portRead]
    simp only [bind, Except.bind]
    rw [if_neg (by omega)]
    rfl
  · have read := readName_of_standsAt encoded back.rdata
    rw [decodePtr, readRdataName, read]
    exact if_neg (by rw [back.length]; exact Nat.lt_irrefl _)

/-- A response as the header and the sections it is put together of. -/
theorem encodeResponse_of_sections {records : List Record} {ident : Nat}
    {questions : List Question} {asked answers : Bytes} (identFits : ident < 256 ^ 2)
    (questionsFit : questions.length < 256 ^ 2) (recordsFit : records.length < 256 ^ 2)
    (askedEncoded : encodeAll encodeQuestion questions = .ok asked)
    (answersEncoded : encodeAll (encodeRecord (!questions.isEmpty)) records = .ok answers) :
    encodeResponse records ident questions = .ok (toBytes 2 ident ++ (toBytes 2 0x8400 ++
      (toBytes 2 questions.length ++ (toBytes 2 records.length ++
        (toBytes 2 0 ++ (toBytes 2 0 ++ (asked ++ answers))))))) := by
  simp only [encodeResponse, toBytes?_of_lt identFits, toBytes?_of_lt questionsFit,
    toBytes?_of_lt recordsFit, askedEncoded, answersEncoded, bind, Except.bind, pure, Except.pure,
    List.append_assoc]

/-- A message with some questions and records decodes to the records. -/
theorem decodeMessage_of_sections {ident flags : Nat} {questions : List Question} {legacy : Bool}
    {records : List Record} {data asked answers : Bytes} (identFits : ident < 256 ^ 2)
    (questionsFit : questions.length < 256 ^ 2) (recordsFit : records.length < 256 ^ 2)
    (flagsFit : flags < 256 ^ 2)
    (askedEncoded : encodeAll encodeQuestion questions = .ok asked)
    (answersEncoded : encodeAll (encodeRecord legacy) records = .ok answers)
    (put : data = toBytes 2 ident ++ (toBytes 2 flags ++ (toBytes 2 questions.length ++
      (toBytes 2 records.length ++ (toBytes 2 0 ++ (toBytes 2 0 ++ (asked ++ answers))))))) :
    ∃ message, decodeMessage data = .ok message ∧ message.ident = ident ∧
      List.Forall₂ (ReadsAs message legacy) message.records records := by
  have stands := standsAt_self data
  nth_rewrite 2 [put] at stands
  obtain ⟨identRead, stands⟩ := numberAt_of_standsAt stands identFits
  obtain ⟨-, stands⟩ := numberAt_of_standsAt stands flagsFit
  obtain ⟨questionsRead, stands⟩ := numberAt_of_standsAt stands questionsFit
  obtain ⟨recordsRead, stands⟩ := numberAt_of_standsAt stands recordsFit
  obtain ⟨authorityRead, stands⟩ := numberAt_of_standsAt stands (by decide)
  obtain ⟨additionalRead, stands⟩ := numberAt_of_standsAt stands (by decide)
  obtain ⟨askedHere, answersHere⟩ := standsAt_append stands
  have skipped := skipQuestions_of_standsAt askedEncoded askedHere
  obtain ⟨found, read, back⟩ := readRecords_of_standsAt answersEncoded answersHere
  simp only [Nat.zero_add, Nat.reduceAdd] at identRead questionsRead recordsRead authorityRead
  simp only [Nat.zero_add, Nat.reduceAdd] at additionalRead skipped read
  have header : ¬ data.length < 12 := by
    have := askedHere.le
    omega
  refine ⟨⟨ident, found, data⟩, ?_, rfl, back.imp fun _ _ same => same.readsAs⟩
  simp only [decodeMessage, if_neg header, questionsRead, skipped, recordsRead, authorityRead,
    additionalRead, Nat.add_zero, read, identRead, bind, Except.bind, pure, Except.pure]

theorem queryClass_spec (unicast : Bool) :
    (classIn ||| if unicast then quBit else 0) < 256 ^ 2 ∧
      decide ((classIn ||| if unicast then quBit else 0) &&& quBit ≠ 0) = unicast := by
  cases unicast <;> decide

/-- A query decodes to its question. -/
theorem query_round_trip {asked : Question} (encodable : asked.Encodable) {ident : Nat}
    (identFits : ident < 2 ^ 16) :
    ∃ data, encodeQuery asked.name asked.qtype ident asked.unicast = .ok data ∧
      decodeQuestions data = .ok [asked] := by
  obtain ⟨name, named⟩ := encodeName_of_encodable encodable.name
  have identFits : ident < 256 ^ 2 := identFits
  have qtypeFits : asked.qtype < 256 ^ 2 := encodable.qtype
  let qclass := classIn ||| (if asked.unicast then quBit else 0)
  have classFits : qclass < 256 ^ 2 ∧ decide (qclass &&& quBit ≠ 0) = asked.unicast :=
    queryClass_spec asked.unicast
  let data := toBytes 2 ident ++ (toBytes 2 0 ++ (toBytes 2 1 ++ (toBytes 2 0 ++ (toBytes 2 0 ++
    (toBytes 2 0 ++ (name ++ (toBytes 2 asked.qtype ++ (toBytes 2 qclass ++ []))))))))
  have encoded : encodeQuery asked.name asked.qtype ident asked.unicast = .ok data := by
    simp only [encodeQuery, toBytes?_of_lt identFits, toBytes?_of_lt qtypeFits, named, bind,
      Except.bind, pure, Except.pure, List.append_assoc, List.append_nil, data, qclass]
  obtain ⟨-, stands⟩ := numberAt_of_standsAt (standsAt_self data) identFits
  obtain ⟨flagsRead, stands⟩ := numberAt_of_standsAt stands (by decide)
  obtain ⟨countRead, stands⟩ := numberAt_of_standsAt stands (by decide)
  obtain ⟨-, stands⟩ := numberAt_of_standsAt stands (by decide)
  obtain ⟨-, stands⟩ := numberAt_of_standsAt stands (by decide)
  obtain ⟨-, stands⟩ := numberAt_of_standsAt stands (by decide)
  obtain ⟨nameHere, stands⟩ := standsAt_append stands
  have read := readName_of_standsAt named nameHere
  obtain ⟨qtypeRead, stands⟩ := numberAt_of_standsAt stands qtypeFits
  obtain ⟨classRead, stands⟩ := numberAt_of_standsAt stands classFits.1
  have room := stands.le
  simp only [Nat.zero_add, Nat.reduceAdd] at flagsRead countRead read qtypeRead classRead room
  generalize data = data at *
  have header : ¬ data.length < 12 := by omega
  have whole : ¬ data.length < 12 + name.length + 4 := by
    simp only [List.length_nil] at room
    omega
  refine ⟨data, encoded, ?_⟩
  have classRead : numberAt data (12 + name.length + 2) (12 + name.length + 4) = qclass := classRead
  simp only [decodeQuestions, if_neg header, flagsRead, countRead, readQuestions, read,
    if_neg whole, bind, Except.bind, pure, Except.pure, qtypeRead, classRead, classFits.2]
  rfl

/-- What is encoded decodes to the same: the identifier and, in order, the records of a response,
with the ports and names in them, and the question of a query. -/
theorem message_round_trip {records : List Record} (recordsEncodable : ∀ r ∈ records, r.Encodable)
    (recordsFew : records.length < 65536) {questions : List Question}
    (questionsEncodable : ∀ q ∈ questions, q.Encodable) (questionsFew : questions.length < 65536)
    {ident : Nat} (identFits : ident < 2 ^ 16) {asked : Question} (askedEncodable : asked.Encodable) :
    (∃ data message, encodeResponse records ident questions = .ok data ∧
      decodeMessage data = .ok message ∧ message.ident = ident ∧
      List.Forall₂ (ReadsAs message (!questions.isEmpty)) message.records records) ∧
    ∃ data, encodeQuery asked.name asked.qtype ident asked.unicast = .ok data ∧
      decodeQuestions data = .ok [asked] := by
  refine ⟨?_, query_round_trip askedEncodable identFits⟩
  obtain ⟨askedBytes, askedEncoded⟩ := encodeAll_of_each fun q member =>
    encodeQuestion_of_encodable (questionsEncodable q member)
  obtain ⟨answers, answersEncoded⟩ := encodeAll_of_each fun r member =>
    encodeRecord_of_encodable (!questions.isEmpty) (recordsEncodable r member)
  have flagsFit : 0x8400 < 256 ^ 2 := by decide
  obtain ⟨message, decoded, same, reads⟩ := decodeMessage_of_sections identFits
    questionsFew recordsFew flagsFit askedEncoded answersEncoded rfl
  exact ⟨_, message, encodeResponse_of_sections identFits questionsFew recordsFew askedEncoded
    answersEncoded, decoded, same, reads⟩

/-- The question `a.` for a pointer. -/
def plainQuestion : Question := ⟨[[97]], 12, false⟩

theorem plainQuestion_encodable : plainQuestion.Encodable := ⟨by decide, by decide⟩

/-- The answer to it, `b.`. -/
def plainAnswer : Record := ⟨[[97]], 12, 120, [1, 98, 0], false⟩

/-- One question too many: their number does not fit the header. -/
theorem many_questions_overflow :
    (∀ q ∈ List.replicate 65536 plainQuestion, Encodable q.name) ∧
      ∀ ident data, encodeResponse [] ident (List.replicate 65536 plainQuestion) ≠ .ok data := by
  refine ⟨fun q member => ?_, fun ident data encoded => ?_⟩
  · rw [List.eq_of_mem_replicate member]
    exact plainQuestion_encodable.name
  · obtain ⟨_, -, encoded⟩ := bind_eq_ok.mp encoded
    obtain ⟨_, counted, -⟩ := bind_eq_ok.mp encoded
    have fits := (toBytes?_ok counted).1
    rw [List.length_replicate] at fits
    exact absurd fits (by decide)

/-- With what the pointer leads to: the port 443 of `h.`, a text and an address. -/
def plainAnswers : List Record :=
  [plainAnswer, ⟨[[98]], 33, 120, [0, 0, 0, 0, 1, 187, 1, 104, 0], true⟩,
    ⟨[[98]], 16, 4500, [3, 97, 61, 49], true⟩, ⟨[[104]], 1, 120, [10, 0, 0, 7], true⟩]

theorem plain_round_trip :
    (∃ data message, encodeResponse plainAnswers 7 [plainQuestion] = .ok data ∧
      decodeMessage data = .ok message ∧ message.ident = 7 ∧
      List.Forall₂ (ReadsAs message true) message.records plainAnswers) ∧
    ∃ data, encodeQuery [[97]] 12 7 false = .ok data ∧
      decodeQuestions data = .ok [plainQuestion] := by
  have records : ∀ r ∈ plainAnswers, r.Encodable := by
    intro r member
    simp only [plainAnswers, List.mem_cons, List.not_mem_nil, or_false] at member
    rcases member with rfl | rfl | rfl | rfl
    all_goals exact ⟨by decide, by decide, by decide, by decide⟩
  have questions : ∀ q ∈ [plainQuestion], q.Encodable := by
    intro q member
    rw [List.mem_singleton.mp member]
    exact plainQuestion_encodable
  exact message_round_trip records (by decide) questions (by decide) (by decide)
    plainQuestion_encodable

end Py20305.Dnssd
