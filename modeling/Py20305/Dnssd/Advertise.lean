import Py20305.Dnssd.Discover

/-!
Announcing a service, and answering for it (`client/dnssd/advertise.py`).

A responder publishes the records of a `ServiceAdvertisement` on each of its sockets (`Binding`) and
answers the questions about them. What it sends names the records that were asked for, and no other
responder answers it (`handle_answers`). A client on the link that asks for the service finds what
each responder there advertises (`discovers_advertised`).

Left out: the sockets and the routes, and the log. The address that `local_address_for` finds in the
routing table is a parameter.
-/

namespace Py20305.Dnssd

/-! ### What is published -/

/-- `TYPE_ANY`. -/
def typeAny : Nat := 255

/-- `_SERVICE_TTL`. -/
def serviceTtl : Nat := 4500

/-- `_ADDRESS_TTL`. -/
def addressTtl : Nat := 120

/-- The service that is published. `__post_init__` has checked the labels and the port. -/
structure ServiceAdvertisement where
  instanceLabel : Bytes
  service : Bytes × Bytes
  port : Nat
  txt : Attributes
  hostname : Bytes
  instance_fits : 0 < instanceLabel.length ∧ instanceLabel.length ≤ 63
  hostname_fits : 0 < hostname.length ∧ hostname.length ≤ 63
  port_fits : 0 < port ∧ port ≤ 65535

namespace IpAddress

/-- `packed`. -/
def packed : IpAddress → Bytes
  | v4 value => toBytes 4 value.toNat
  | v6 value => toBytes 16 value.toNat

/-- The type of the record that holds an address. -/
def rtype (address : IpAddress) : Nat := if address.isV6 then typeAaaa else typeA

end IpAddress

namespace ServiceAdvertisement

variable (ad : ServiceAdvertisement) (transport : MulticastTransport)

/-- `service_name`. -/
def serviceName : Name := [ad.service.1, ad.service.2, transport.domain]

/-- `instance_name`. -/
def instanceName : Name := ad.instanceLabel :: ad.serviceName transport

/-- `host_name`. -/
def hostName : Name := [ad.hostname, transport.domain]

/-- `records`. -/
def records (addresses : List IpAddress) : Except EncodeError (List Record) := do
  let target ← encodeName (ad.instanceName transport)
  let srv ← encodeSrv ad.port (ad.hostName transport)
  let txt ← encodeTxt ad.txt
  return [⟨ad.serviceName transport, typePtr, serviceTtl, target, false⟩,
    ⟨ad.instanceName transport, typeSrv, serviceTtl, srv, true⟩,
    ⟨ad.instanceName transport, typeTxt, serviceTtl, txt, true⟩] ++
    addresses.map fun address =>
      ⟨ad.hostName transport, address.rtype, addressTtl, address.packed, true⟩

end ServiceAdvertisement

/-- `with_ttl`. -/
def Record.withTtl (record : Record) (ttl : Nat) : Record := { record with ttl := ttl }

/-- `local_address_for`, of the address that the routing table gives. -/
def localAddressFor (routed : Option IpAddress) : Option IpAddress :=
  routed.filter fun address => !(address.isUnspecified || address.isLinkLocal)

/-- What `_open` publishes on one socket. -/
structure Publication where
  advertisement : ServiceAdvertisement
  transport : MulticastTransport
  address : IpAddress
  records : List Record
  routable : localAddressFor (some address) = some address
  published : advertisement.records transport [address] = .ok records

/-- The name of the instance that it announces. -/
def Publication.instanceName (p : Publication) : Name := p.advertisement.instanceName p.transport

/-! ### Answers -/

/-- `_MULTICAST_MIN_INTERVAL`. -/
def multicastMinInterval : ℚ := 1

/-- `_UNICAST_BURST`. -/
def unicastBurst : Nat := 10

/-- `_UNICAST_WINDOW`. -/
def unicastWindow : ℚ := 1

/-- `now - then >= span`, where there was no such time before the first one. -/
def elapsed (since : Option ℚ) (span now : ℚ) : Bool := since.all fun time => span ≤ now - time

/-- `_Binding`: a socket of a responder, by its port, with what is published through it. -/
structure Binding where
  port : Nat
  publication : Publication
  lastMulticast : Option ℚ := none
  unicastWindowStart : Option ℚ := none
  unicastSent : Nat := 0

/-- `may_respond`. -/
def Binding.mayRespond (b : Binding) (unicast : Bool) (now : ℚ) : Bool × Binding :=
  if unicast then
    let b := if elapsed b.unicastWindowStart unicastWindow now then
      { b with unicastWindowStart := some now, unicastSent := 0 } else b
    if unicastBurst ≤ b.unicastSent then (false, b)
    else (true, { b with unicastSent := b.unicastSent + 1 })
  else if elapsed b.lastMulticast multicastMinInterval now then
    (true, { b with lastMulticast := some now })
  else (false, b)

/-- The question is about the record. -/
def Question.asksFor (question : Question) (record : Record) : Bool :=
  fold record.name = fold question.name &&
    (question.qtype = record.rtype || question.qtype = typeAny)

/-- Add the records that meet a condition, those that are new. -/
def addWanted (meets : Record → Bool) (records wanted : List Record) : List Record :=
  records.foldl (fun wanted record =>
    if meets record && !decide (record ∈ wanted) then wanted ++ [record] else wanted) wanted

/-- `_answers_for`. -/
def answersFor (records : List Record) (questions : List Question) : List Record :=
  let wanted := questions.foldl (fun wanted question =>
    addWanted question.asksFor records wanted) []
  if wanted = [] then []
  else
    let wanted := if wanted.any fun record => record.rtype = typePtr then
      addWanted (fun record => record.rtype ≠ typePtr) records wanted else wanted
    records.filter fun record => record ∈ wanted

/-- Where a datagram comes from. -/
structure Endpoint where
  host : Host
  port : Nat
  deriving DecidableEq

/-- A datagram that a responder sends, to one receiver or to the group. -/
structure Sent where
  payload : Bytes
  receiver : Option Endpoint
  deriving DecidableEq

/-- `_handle`, of a datagram that was read. -/
def Binding.handle (b : Binding) (payload : Bytes) (source : Endpoint) (now : ℚ) :
    Except EncodeError (Option Sent × Binding) :=
  match decodeQuestions payload with
  | .error _ => .ok (none, b)
  | .ok questions =>
      let answers := answersFor b.publication.records questions
      if answers = [] then .ok (none, b)
      else
        let legacy : Bool := source.port ≠ b.port
        let unicast := legacy || questions.any (·.unicast)
        let responds := b.mayRespond unicast now
        if responds.1 then
          let response := if legacy then encodeResponse answers (numberAt payload 0 2) questions
            else encodeResponse answers 0 []
          response.map fun response =>
            (some ⟨response, if unicast then some source else none⟩, responds.2)
        else .ok (none, responds.2)

/-! ### What is asked for -/

section Asked

variable {records wanted : List Record} {questions : List Question} {record : Record}

/-- Some question is about the record. -/
def isAsked (questions : List Question) (record : Record) : Bool :=
  questions.any fun question => question.asksFor record

/-- The record answers the questions: it is asked for, or completes a pointer that is. -/
def isWanted (records : List Record) (questions : List Question) (record : Record) : Bool :=
  isAsked questions record ||
    (record.rtype ≠ typePtr &&
      records.any fun pointer => pointer.rtype = typePtr && isAsked questions pointer)

theorem mem_addWanted {meets : Record → Bool} :
    record ∈ addWanted meets records wanted ↔
      record ∈ wanted ∨ record ∈ records ∧ meets record = true := by
  unfold addWanted
  induction records generalizing wanted with
  | nil => simp
  | cons next rest ih =>
      rw [List.foldl_cons, ih]
      by_cases new : (meets next && !decide (next ∈ wanted)) = true
      · rw [if_pos new]
        simp only [Bool.and_eq_true] at new
        have := new.1
        simp only [List.mem_append, List.mem_cons]
        grind
      · rw [if_neg new]
        simp only [Bool.and_eq_true, Bool.not_eq_true', decide_eq_false_iff_not, not_and,
          not_not] at new
        simp only [List.mem_cons]
        grind

theorem mem_asked : record ∈ questions.foldl
      (fun wanted question => addWanted question.asksFor records wanted) wanted ↔
    record ∈ wanted ∨ record ∈ records ∧ isAsked questions record = true := by
  induction questions generalizing wanted with
  | nil => simp [isAsked]
  | cons question rest ih =>
      rw [List.foldl_cons, ih, mem_addWanted]
      simp only [isAsked, List.any_cons, Bool.or_eq_true]
      tauto

/-- The answers are the records that answer the questions, in the order they are announced in. -/
theorem answersFor_eq (records : List Record) (questions : List Question) :
    answersFor records questions = records.filter (isWanted records questions) := by
  have asked (record : Record) : record ∈ questions.foldl
        (fun wanted question => addWanted question.asksFor records wanted) [] ↔
      record ∈ records ∧ isAsked questions record = true :=
    mem_asked.trans (or_iff_right List.not_mem_nil)
  unfold answersFor
  generalize questions.foldl (fun wanted question =>
    addWanted question.asksFor records wanted) [] = wanted at asked ⊢
  have pointers : (wanted.any fun record => record.rtype = typePtr) =
      records.any fun pointer => pointer.rtype = typePtr && isAsked questions pointer := by
    rw [Bool.eq_iff_iff]
    simp only [List.any_eq_true, Bool.and_eq_true, asked]
    exact ⟨fun ⟨r, ⟨listed, is⟩, p⟩ => ⟨r, listed, p, is⟩, fun ⟨r, listed, p, is⟩ =>
      ⟨r, ⟨listed, is⟩, p⟩⟩
  by_cases nothing : wanted = []
  · have none_ (r : Record) (listed : r ∈ records) : isAsked questions r = false := by
      by_contra is
      have := (asked r).mpr ⟨listed, by simpa using is⟩
      rw [nothing] at this
      cases this
    have noPointer : (records.any fun pointer => pointer.rtype = typePtr &&
        isAsked questions pointer) = false := by rw [← pointers, nothing]; rfl
    simp only [if_pos nothing]
    symm
    refine List.filter_eq_nil_iff.mpr fun r listed => ?_
    simp [isWanted, none_ r listed, noPointer]
  · simp only [if_neg nothing]
    refine List.filter_congr fun r listed => ?_
    rw [pointers, Bool.eq_iff_iff, decide_eq_true_iff]
    unfold isWanted
    split
    · rename_i pointer
      simp [mem_addWanted, asked, listed, pointer]
    · rename_i pointer
      simp only [Bool.not_eq_true] at pointer
      simp [asked, listed, pointer]

end Asked

/-! ### What is sent -/

section Sending

variable {records : List Record} {questions : List Question} {ident : Nat} {data : Bytes}

/-- The sections of a response that was encoded. -/
theorem encodeResponse_ok (encoded : encodeResponse records ident questions = .ok data) :
    ∃ asked answers, ident < 256 ^ 2 ∧ questions.length < 256 ^ 2 ∧ records.length < 256 ^ 2 ∧
      encodeAll encodeQuestion questions = .ok asked ∧
      encodeAll (encodeRecord (!questions.isEmpty)) records = .ok answers ∧
      data = toBytes 2 ident ++ (toBytes 2 0x8400 ++ (toBytes 2 questions.length ++
        (toBytes 2 records.length ++ (toBytes 2 0 ++ (toBytes 2 0 ++ (asked ++ answers)))))) := by
  obtain ⟨_, identEncoded, more⟩ := bind_eq_ok.mp encoded
  obtain ⟨_, questionsCounted, more⟩ := bind_eq_ok.mp more
  obtain ⟨_, recordsCounted, more⟩ := bind_eq_ok.mp more
  obtain ⟨asked, askedEncoded, more⟩ := bind_eq_ok.mp more
  obtain ⟨answers, answersEncoded, -⟩ := bind_eq_ok.mp more
  obtain ⟨identFits, -⟩ := toBytes?_ok identEncoded
  obtain ⟨questionsFit, -⟩ := toBytes?_ok questionsCounted
  obtain ⟨recordsFit, -⟩ := toBytes?_ok recordsCounted
  have whole := encodeResponse_of_sections identFits questionsFit recordsFit askedEncoded
    answersEncoded
  exact ⟨asked, answers, identFits, questionsFit, recordsFit, askedEncoded, answersEncoded,
    Except.ok.inj (encoded.symm.trans whole)⟩

/-- A response holds no question for a responder. -/
theorem decodeQuestions_response (encoded : encodeResponse records ident questions = .ok data) :
    decodeQuestions data = .ok [] := by
  obtain ⟨asked, answers, identFits, -, -, -, -, put⟩ := encodeResponse_ok encoded
  have stands := standsAt_self data
  nth_rewrite 2 [put] at stands
  obtain ⟨-, stands⟩ := numberAt_of_standsAt stands identFits
  obtain ⟨flags, stands⟩ := numberAt_of_standsAt stands (by decide)
  have room := stands.le
  simp only [List.length_append, length_toBytes, Nat.zero_add, Nat.reduceAdd] at flags room
  rw [decodeQuestions, if_neg (by omega), flags]
  exact if_pos (by decide)

/-- It decodes to what was put in. -/
theorem decodeMessage_response (encoded : encodeResponse records ident questions = .ok data) :
    ∃ message, decodeMessage data = .ok message ∧ message.ident = ident ∧
      List.Forall₂ (ReadsAs message (!questions.isEmpty)) message.records records := by
  obtain ⟨asked, answers, identFits, questionsFit, recordsFit, askedEncoded, answersEncoded, put⟩ :=
    encodeResponse_ok encoded
  exact decodeMessage_of_sections identFits questionsFit recordsFit (by decide) askedEncoded
    answersEncoded put

end Sending

section Handling

variable {b b' : Binding} {payload : Bytes} {source : Endpoint} {now : ℚ} {sent : Sent}
variable {questions : List Question}

/-- The answer goes to the host that asked, and not to the group. -/
def Binding.unicasts (b : Binding) (source : Endpoint) (questions : List Question) : Bool :=
  source.port ≠ b.port || questions.any (·.unicast)

/-- The answer to some questions, as it is sent. -/
def Binding.respond (b : Binding) (payload : Bytes) (source : Endpoint)
    (questions : List Question) : Except EncodeError Bytes :=
  let answers := answersFor b.publication.records questions
  if source.port ≠ b.port then encodeResponse answers (numberAt payload 0 2) questions
  else encodeResponse answers 0 []

theorem handle_malformed {e : DnsDecodeError} (asked : decodeQuestions payload = .error e) :
    b.handle payload source now = .ok (none, b) := by
  simp only [Binding.handle, asked]

/-- A datagram that asks for nothing that is published is dropped. -/
theorem handle_other (asked : decodeQuestions payload = .ok questions)
    (nothing : answersFor b.publication.records questions = []) :
    b.handle payload source now = .ok (none, b) := by
  simp only [Binding.handle, asked]
  exact if_pos nothing

theorem handle_asked (asked : decodeQuestions payload = .ok questions)
    (some_ : answersFor b.publication.records questions ≠ []) :
    b.handle payload source now =
      let responds := b.mayRespond (b.unicasts source questions) now
      if responds.1 then (b.respond payload source questions).map fun response =>
        (some ⟨response, if b.unicasts source questions then some source else none⟩, responds.2)
      else .ok (none, responds.2) := by
  simp only [Binding.handle, asked]
  rw [if_neg some_]
  by_cases legacy : source.port = b.port
  · simp [Binding.unicasts, Binding.respond, legacy]
  · simp [Binding.unicasts, Binding.respond, legacy]

/-- What a responder that sends something has read, and what it has put into its answer. -/
theorem handle_spoke (spoke : b.handle payload source now = .ok (some sent, b')) :
    ∃ questions, decodeQuestions payload = .ok questions ∧
      answersFor b.publication.records questions ≠ [] ∧
      b.mayRespond (b.unicasts source questions) now = (true, b') ∧
      sent.receiver = (if b.unicasts source questions then some source else none) ∧
      b.respond payload source questions = .ok sent.payload := by
  cases asked : decodeQuestions payload with
  | error e =>
      rw [handle_malformed asked] at spoke
      cases spoke
  | ok questions =>
      by_cases nothing : answersFor b.publication.records questions = []
      · rw [handle_other asked nothing] at spoke
        cases spoke
      · rw [handle_asked asked nothing] at spoke
        dsimp only at spoke
        cases may : (b.mayRespond (b.unicasts source questions) now).1 with
        | false =>
            rw [may] at spoke
            cases spoke
        | true =>
            rw [may, if_pos rfl] at spoke
            cases encoded : b.respond payload source questions with
            | error e =>
                rw [encoded] at spoke
                cases spoke
            | ok response =>
                rw [encoded] at spoke
                cases spoke
                exact ⟨questions, rfl, nothing, Prod.ext may rfl, rfl, encoded⟩

end Handling

/-! ### What a responder cannot answer -/

section Labels

variable {data : Bytes} {labels : Name} {last : Nat}

/-- A byte that stands before a label is its length. -/
theorem labelByte_le {byte : UInt8} (plain : byte &&& 0xC0 = 0) : byte.toNat ≤ 63 := by
  have each : ∀ k : Fin 256, UInt8.ofNat k.val &&& 0xC0 = 0 → k.val ≤ 63 := by
    decide +kernel
  have same : UInt8.ofNat byte.toNat = byte := UInt8.ofNat_toNat
  exact each ⟨byte.toNat, byte.toNat_lt⟩ (by rw [same]; exact plain)

theorem labels_of_readFrom {s : Reading} (read : readFrom data s = .ok (labels, last))
    (before : ∀ label ∈ s.labels, 0 < label.length ∧ label.length ≤ 63) :
    ∀ label ∈ labels, 0 < label.length ∧ label.length ≤ 63 := by
  fun_induction readFrom data s with
  | case1 s e met => cases read
  | case2 s found endOffset met =>
      cases read
      have same : labels = s.labels := by
        unfold Reading.round at met
        grind
      rw [same]
      exact before
  | case3 s next met ih =>
      refine ih read ?_
      rcases Reading.round_goesOn met with ⟨high, low, -, -, -, -, rfl⟩ |
        ⟨length, -, plain, nonzero, whole, -, rfl⟩
      · exact before
      · intro label listed
        rcases List.mem_append.mp listed with old | new
        · exact before label old
        · rw [List.mem_singleton.mp new, whole]
          refine ⟨Nat.pos_of_ne_zero fun zero => nonzero ?_, labelByte_le plain⟩
          exact UInt8.toNat_inj.mp zero

/-- The labels of a name that was read have 1 to 63 bytes. -/
theorem labels_of_readName {offset : Nat} (read : readName data offset = .ok (labels, last)) :
    ∀ label ∈ labels, 0 < label.length ∧ label.length ≤ 63 :=
  labels_of_readFrom read (by simp)

theorem labels_of_encodeLabels {body : Bytes} (encoded : encodeLabels labels = .ok body) :
    ∀ label ∈ labels, 0 < label.length ∧ label.length ≤ 63 := by
  induction labels generalizing body with
  | nil => simp
  | cons label rest ih =>
      obtain ⟨later, more, positive, short, -⟩ := encodeLabels_cons encoded
      intro l listed
      rcases List.mem_cons.mp listed with rfl | there
      · exact ⟨positive, short⟩
      · exact ih more l there

theorem encodable_iff : Encodable labels ↔ ∃ out, encodeName labels = .ok out := by
  refine ⟨encodeName_of_encodable, fun ⟨out, encoded⟩ => ?_⟩
  obtain ⟨body, found, rfl, fits⟩ := encodeName_ok encoded
  have each := labels_of_encodeLabels found
  obtain ⟨body', found', length⟩ := encodeLabels_of_lengths each
  rw [Except.ok.inj (found.symm.trans found')] at fits
  refine ⟨each, ?_⟩
  rw [← length]
  simpa using fits

end Labels

section Raising

variable {payload : Bytes} {questions : List Question}

theorem numberAt_lt (data : Bytes) (first : Nat) : numberAt data first (first + 2) < 256 ^ 2 := by
  have short := slice_length_le data first (first + 2)
  rw [Nat.add_sub_cancel_left] at short
  exact (ofBytes_lt _).trans_le (Nat.pow_le_pow_right (by decide) short)

/-- What can be said of a question that was read. -/
structure Question.Read (question : Question) : Prop where
  labels : ∀ label ∈ question.name, 0 < label.length ∧ label.length ≤ 63
  qtype : question.qtype < 256 ^ 2

theorem readQuestions_read {count offset : Nat}
    (read : readQuestions payload count offset = .ok questions) :
    questions.length = count ∧ ∀ question ∈ questions, question.Read := by
  induction count generalizing offset questions with
  | zero =>
      cases read
      exact ⟨rfl, by simp⟩
  | succ count ih =>
      obtain ⟨⟨name, next⟩, named, more⟩ := bind_eq_ok.mp read
      dsimp only at more
      by_cases room : payload.length < next + 4
      · rw [if_pos room] at more
        cases more
      · rw [if_neg room] at more
        obtain ⟨rest, later, more⟩ := bind_eq_ok.mp more
        cases more
        obtain ⟨length, each⟩ := ih later
        refine ⟨by rw [List.length_cons, length], fun question listed => ?_⟩
        rcases List.mem_cons.mp listed with rfl | there
        · exact ⟨labels_of_readName named, numberAt_lt payload next⟩
        · exact each question there

theorem decodeQuestions_read (asked : decodeQuestions payload = .ok questions) :
    questions.length < 256 ^ 2 ∧ ∀ question ∈ questions, question.Read := by
  unfold decodeQuestions at asked
  split at asked
  · cases asked
  · split at asked
    · cases asked
      exact ⟨by decide, by simp⟩
    · obtain ⟨length, each⟩ := readQuestions_read asked
      exact ⟨length ▸ numberAt_lt payload 4, each⟩

/-- The name of the question has more than 255 bytes when it is written without pointers. -/
def Question.Overlong (question : Question) : Prop :=
  255 < (question.name.map fun label => label.length + 1).sum + 1

theorem Question.Read.encodes_iff {question : Question} (read : question.Read) :
    (∃ out, encodeQuestion question = .ok out) ↔ ¬ question.Overlong := by
  have name : Dnssd.Encodable question.name ↔ ¬ question.Overlong :=
    ⟨fun encodable => Nat.not_lt.mpr encodable.2, fun short => ⟨read.labels, Nat.not_lt.mp short⟩⟩
  rw [← name, encodable_iff]
  constructor
  · rintro ⟨out, encoded⟩
    obtain ⟨out', named, -⟩ := encodeQuestion_ok encoded
    exact ⟨out', named⟩
  · rintro ⟨out, named⟩
    exact ⟨_, bind_eq_ok.mpr ⟨out, named, bind_eq_ok.mpr ⟨_, toBytes?_of_lt read.qtype, rfl⟩⟩⟩

theorem encodeAll_each {α : Type} {encode : α → Except EncodeError Bytes} {items : List α}
    {out : Bytes} (encoded : encodeAll encode items = .ok out) :
    ∀ item ∈ items, ∃ out, encode item = .ok out := by
  induction items generalizing out with
  | nil => simp
  | cons item rest ih =>
      obtain ⟨first, later, this, more, -⟩ := encodeAll_cons encoded
      intro i listed
      rcases List.mem_cons.mp listed with rfl | there
      · exact ⟨first, this⟩
      · exact ih more i there

/-- A record that can be announced can be written for a legacy querier. -/
theorem encodeRecord_legacy {record : Record} {out : Bytes}
    (encoded : encodeRecord false record = .ok out) :
    ∃ out, encodeRecord true record = .ok out := by
  obtain ⟨name, named, typeFits, ttlFits, lengthFits, -⟩ := encodeRecord_ok encoded
  have ttl : min record.ttl legacyMaxTtl < 256 ^ 4 := (min_le_left _ _).trans_lt ttlFits
  exact ⟨_, bind_eq_ok.mpr ⟨name, named, bind_eq_ok.mpr ⟨_, toBytes?_of_lt typeFits,
    bind_eq_ok.mpr ⟨_, toBytes?_of_lt ttl, bind_eq_ok.mpr ⟨_, toBytes?_of_lt lengthFits, rfl⟩⟩⟩⟩⟩

/-- The answers of a responder that could announce its records fail for no other reason than a
question that cannot be repeated. -/
theorem encodeAnswers_iff {records answers : List Record} {data : Bytes}
    (announced : encodeResponse records 0 [] = .ok data) (few : answers.Sublist records)
    (asked : decodeQuestions payload = .ok questions) (several : questions ≠ []) :
    (∃ out, encodeResponse answers (numberAt payload 0 2) questions = .ok out) ↔
      ∀ question ∈ questions, ¬ question.Overlong := by
  obtain ⟨questionsFit, read⟩ := decodeQuestions_read asked
  obtain ⟨_, _, -, -, recordsFit, -, each, -⟩ := encodeResponse_ok announced
  constructor
  · rintro ⟨out, encoded⟩ question listed
    obtain ⟨_, _, -, -, -, askedEncoded, -, -⟩ := encodeResponse_ok encoded
    exact (read question listed).encodes_iff.mp (encodeAll_each askedEncoded question listed)
  · intro short
    obtain ⟨asked, askedEncoded⟩ := encodeAll_of_each fun question listed =>
      (read question listed).encodes_iff.mpr (short question listed)
    obtain ⟨answersOut, answersEncoded⟩ :
        ∃ out, encodeAll (encodeRecord (!questions.isEmpty)) answers = .ok out := by
      refine encodeAll_of_each fun record listed => ?_
      obtain ⟨out, encoded⟩ := encodeAll_each each record (few.subset listed)
      rw [List.isEmpty_eq_false_iff.mpr several]
      exact encodeRecord_legacy encoded
    exact ⟨_, encodeResponse_of_sections (numberAt_lt payload 0) questionsFit
      (few.length_le.trans_lt recordsFit) askedEncoded answersEncoded⟩

theorem encodeAnnounced {records answers : List Record} {data : Bytes}
    (announced : encodeResponse records 0 [] = .ok data) (few : answers.Sublist records) :
    ∃ out, encodeResponse answers 0 [] = .ok out := by
  obtain ⟨_, _, -, -, recordsFit, -, each, -⟩ := encodeResponse_ok announced
  obtain ⟨out, encoded⟩ := encodeAll_of_each fun record listed =>
    encodeAll_each each record (few.subset listed)
  exact ⟨_, encodeResponse_of_sections (by decide) (by decide) (few.length_le.trans_lt recordsFit)
    rfl encoded⟩

end Raising

theorem answersFor_eq_nil_iff {records : List Record} {questions : List Question} :
    answersFor records questions = [] ↔
      ¬ ∃ record ∈ records, isAsked questions record = true := by
  rw [answersFor_eq, List.filter_eq_nil_iff]
  constructor
  · rintro none_ ⟨record, listed, asked⟩
    exact none_ record listed (by simp [isWanted, asked])
  · intro none_ record listed wanted
    rcases Bool.or_eq_true _ _ ▸ wanted with asked | completes
    · exact none_ ⟨record, listed, asked⟩
    · obtain ⟨pointer, there, asked⟩ := List.any_eq_true.mp (Bool.and_eq_true _ _ ▸ completes).2
      exact none_ ⟨pointer, there, (Bool.and_eq_true _ _ ▸ asked).2⟩

/-! ### What a client finds -/

/-- The server that a client finds in what is published, unless the attributes describe none. -/
def Publication.server (p : Publication) : Option DiscoveredServer :=
  (usablePort p.advertisement.txt).map fun port =>
    ⟨formatName p.instanceName, .literal p.address, port, p.advertisement.txt, p.transport.name⟩

/-- A client of a transport can find it: it is published there, under the service of the standard,
and with keys that read as they are written. -/
structure Publication.Findable (lower : String → String) (transport : MulticastTransport)
    (p : Publication) : Prop where
  transport : p.transport = transport
  service : fold [p.advertisement.service.1, p.advertisement.service.2] = fold serviceNames
  keys : ∀ key ∈ p.advertisement.txt.keys, IsKey lower key

/-- The reply is what some responder with this publication sent when the client asked it. -/
def Publication.Replies (query : Bytes) (client : Endpoint) (p : Publication) (reply : Reply) :
    Prop :=
  ∃ b : Binding, ∃ now sent b', b.publication = p ∧ client.port ≠ b.port ∧
    b.handle query client now = .ok (some sent, b') ∧ sent.payload = reply.payload

section Found

variable {p : Publication} {lower : String → String} {transport : MulticastTransport}

/-- The records that are published. -/
theorem Publication.records_eq (p : Publication) : ∃ target srv txt,
    encodeName p.instanceName = .ok target ∧
    encodeSrv p.advertisement.port (p.advertisement.hostName p.transport) = .ok srv ∧
    encodeTxt p.advertisement.txt = .ok txt ∧
    p.records = [⟨p.advertisement.serviceName p.transport, typePtr, serviceTtl, target, false⟩,
      ⟨p.instanceName, typeSrv, serviceTtl, srv, true⟩,
      ⟨p.instanceName, typeTxt, serviceTtl, txt, true⟩,
      ⟨p.advertisement.hostName p.transport, p.address.rtype, addressTtl, p.address.packed,
        true⟩] := by
  obtain ⟨target, named, more⟩ := bind_eq_ok.mp p.published
  obtain ⟨srv, served, more⟩ := bind_eq_ok.mp more
  obtain ⟨txt, described, more⟩ := bind_eq_ok.mp more
  exact ⟨target, srv, txt, named, served, described, (Except.ok.inj more).symm⟩

theorem encodeTxt_short {values : Attributes} {rdata : Bytes}
    (encoded : encodeTxt values = .ok rdata) : ∀ e ∈ values.entries, (txtItem e).length ≤ 255 := by
  have each (entries : List (String × Option String)) (out : Bytes)
      (encoded : encodeItems entries = .ok out) : ∀ e ∈ entries, (txtItem e).length ≤ 255 := by
    induction entries generalizing out with
    | nil => simp
    | cons entry rest ih =>
        obtain ⟨key, value⟩ := entry
        rw [encodeItems] at encoded
        split at encoded
        · cases encoded
        · rename_i short
          cases more : encodeItems rest with
          | error e =>
              rw [more] at encoded
              cases encoded
          | ok later =>
              intro e listed
              rcases List.mem_cons.mp listed with rfl | there
              · exact Nat.not_lt.mp short
              · exact ih later more e there
  cases found : encodeItems values.entries with
  | error e =>
      rw [encodeTxt, found] at encoded
      cases encoded
  | ok out => exact each values.entries out found

/-- An address is read back from its record. -/
theorem decodeAddress_packed {message : DnsMessage} {record : ResourceRecord} {address : IpAddress}
    (rtype : record.rtype = address.rtype) (rdata : recordRdata message record = address.packed) :
    decodeAddress message record = .ok address := by
  cases address with
  | v4 value =>
      have fits : value.toNat < 256 ^ 4 := value.isLt
      have back := ofBytes_toBytes fits
      simp [decodeAddress, rtype, rdata, IpAddress.rtype, IpAddress.isV6, IpAddress.packed, back]
  | v6 value =>
      have fits : value.toNat < 256 ^ 16 := value.isLt
      have back := ofBytes_toBytes fits
      simp [decodeAddress, rtype, rdata, IpAddress.rtype, IpAddress.isV6, IpAddress.packed, back,
        typeA, typeAaaa]

theorem IpAddress.rtype_cases (address : IpAddress) :
    address.rtype = typeA ∨ address.rtype = typeAaaa := by
  unfold IpAddress.rtype
  split
  · exact .inr rfl
  · exact .inl rfl

theorem IpAddress.rtype_ne (address : IpAddress) : address.rtype ≠ typePtr := by
  rcases address.rtype_cases with type | type <;> rw [type] <;> decide

theorem Publication.Findable.service_eq (findable : p.Findable lower transport) :
    fold (p.advertisement.serviceName p.transport) = fold (serviceLabels p.transport none) := by
  have same := findable.service
  simp only [fold, ServiceAdvertisement.serviceName, serviceLabels, serviceNames, List.map_cons,
    List.map_nil, List.cons_append, List.nil_append] at same ⊢
  simp_all

/-- What a message says that holds the records of a publication. -/
structure Describes (lower : String → String) (message : DnsMessage) (p : Publication) : Prop where
  named : namedIn (serviceLabels p.transport none) message = [p.instanceName]
  srv : (first message p.instanceName typeSrv).isSome = true
  txt : (first message p.instanceName typeTxt).isSome = true
  server : ∀ host, serverFromRecords lower message p.instanceName p.transport.name host = p.server

theorem describes {message : DnsMessage} (findable : p.Findable lower transport)
    (reads : List.Forall₂ (ReadsAs message true) message.records p.records) :
    Describes lower message p := by
  obtain ⟨target, srv, txt, named, served, described, records⟩ := p.records_eq
  rw [records] at reads
  obtain ⟨ptr', _, ptrReads, later, found⟩ := List.forall₂_cons_right_iff.mp reads
  obtain ⟨srv', _, srvReads, later', rfl⟩ := List.forall₂_cons_right_iff.mp later
  obtain ⟨txt', _, txtReads, last, rfl⟩ := List.forall₂_cons_right_iff.mp later'
  obtain ⟨address', _, addressReads, rest, rfl⟩ := List.forall₂_cons_right_iff.mp last
  rw [List.forall₂_nil_right_iff.mp rest] at found
  have service := findable.service_eq
  have addressType := p.address.rtype_cases
  have others := p.address.rtype_ne
  have srvFirst : first message p.instanceName typeSrv = some srv' := by
    simp [first, found, ptrReads.rtype, srvReads.rtype, srvReads.name, typePtr, typeSrv]
  have txtFirst : first message p.instanceName typeTxt = some txt' := by
    simp [first, found, ptrReads.rtype, srvReads.rtype, txtReads.rtype, txtReads.name, typePtr,
      typeSrv, typeTxt]
  obtain ⟨rdata, encoded, decoded⟩ :=
    encodeTxt_decodeTxt findable.keys (encodeTxt_short described)
  obtain rfl := Except.ok.inj (described.symm.trans encoded)
  have routable : p.address.isLinkLocal = false := by
    have := p.routable
    simp only [localAddressFor, Option.filter_eq_some_iff] at this
    simpa using (Bool.or_eq_false_iff.mp (by simpa using this.2)).2
  have address : addressFor message (p.advertisement.hostName p.transport) =
      some (.literal p.address) := by
    have here := decodeAddress_packed addressReads.rtype addressReads.rdata
    have this : (address'.rtype = typeA ∨ address'.rtype = typeAaaa) ∧
        fold address'.name = fold (p.advertisement.hostName p.transport) :=
      ⟨addressReads.rtype ▸ addressType, by rw [addressReads.name]⟩
    have only : (message.records.filterMap fun record =>
        if (record.rtype = typeA ∨ record.rtype = typeAaaa) ∧
            fold record.name = fold (p.advertisement.hostName p.transport) then
          (decodeAddress message record).toOption.filter fun address => !address.isLinkLocal
        else none) = [p.address] := by
      have last : (if (address'.rtype = typeA ∨ address'.rtype = typeAaaa) ∧
            fold address'.name = fold (p.advertisement.hostName p.transport) then
          (decodeAddress message address').toOption.filter fun address => !address.isLinkLocal
        else none) = some p.address := by
        rw [if_pos this, here]
        simp [Except.toOption, routable]
      have other {r : ResourceRecord}
          (kind : r.rtype = typePtr ∨ r.rtype = typeSrv ∨ r.rtype = typeTxt) :
          ¬ (r.rtype = typeA ∨ r.rtype = typeAaaa) := by
        rcases kind with type | type | type <;> rw [type] <;> decide
      simp only [found, List.filterMap_cons, other (.inl ptrReads.rtype),
        other (.inr (.inl srvReads.rtype)), other (.inr (.inr txtReads.rtype)), false_and, if_false,
        last, List.filterMap_nil]
    rw [addressFor, only]
    cases six : p.address.isV6 with
    | true => simp [six]
    | false => simp [six]
  refine ⟨?_, by rw [srvFirst]; rfl, by rw [txtFirst]; rfl, fun host => ?_⟩
  · have pointer : fold ptr'.name = fold (serviceLabels p.transport none) := by
      rw [ptrReads.name, service]
    have last : address'.rtype ≠ typePtr := by
      rw [addressReads.rtype]
      exact others
    simp only [typePtr] at last
    simp [namedIn, found, ptrReads.rtype, srvReads.rtype, txtReads.rtype, last, pointer, typePtr,
      typeSrv, typeTxt, ptrReads.ptr _ named, Except.toOption]
  · rw [serverFromRecords, srvFirst, txtFirst]
    simp only [srvReads.srv _ _ served, txtReads.rdata, decoded, address, Except.toOption,
      Option.bind_eq_bind, Option.bind_some, Option.some_or, Publication.server]
    cases usablePort p.advertisement.txt <;> rfl

variable {query : Bytes} {client : Endpoint} {ident : Nat} {reply : Reply} {timeout : ℚ}
variable {idents : List Nat} {replies answers : List Reply}

/-- The query that `discover` sends asks for the pointers of the service. -/
theorem decodeQuestions_query
    (asked : encodeQuery (serviceLabels transport none) typePtr ident true = .ok query) :
    decodeQuestions query = .ok [⟨serviceLabels transport none, typePtr, true⟩] ∧
      numberAt query 0 2 = ident := by
  obtain ⟨_, identEncoded, more⟩ := bind_eq_ok.mp asked
  obtain ⟨name, named, more⟩ := bind_eq_ok.mp more
  obtain ⟨identFits, rfl⟩ := toBytes?_ok identEncoded
  have encodable : (⟨serviceLabels transport none, typePtr, true⟩ : Question).Encodable :=
    ⟨encodable_iff.mpr ⟨name, named⟩, show typePtr < 2 ^ 16 by decide⟩
  obtain ⟨data, encoded, decoded⟩ := query_round_trip encodable identFits
  obtain rfl := Except.ok.inj (asked.symm.trans encoded)
  refine ⟨decoded, ?_⟩
  have stands := standsAt_self query
  nth_rewrite 2 [← Except.ok.inj more] at stands
  simp only [List.append_assoc] at stands
  exact (numberAt_of_standsAt stands identFits).1

/-- A pointer that is asked for brings all the records. -/
theorem answersFor_service (findable : p.Findable lower transport) (unicast : Bool) :
    answersFor p.records [⟨serviceLabels transport none, typePtr, unicast⟩] = p.records := by
  obtain ⟨target, srv, txt, -, -, -, records⟩ := p.records_eq
  have service : fold (p.advertisement.serviceName p.transport) =
      fold (serviceLabels transport none) := by
    rw [← findable.transport]
    exact findable.service_eq
  rw [answersFor_eq, List.filter_eq_self, records]
  have pointer : isAsked [⟨serviceLabels transport none, typePtr, unicast⟩]
      ⟨p.advertisement.serviceName p.transport, typePtr, serviceTtl, target, false⟩ = true := by
    simp [isAsked, Question.asksFor, service]
  have others : typeSrv ≠ typePtr ∧ typeTxt ≠ typePtr ∧ p.address.rtype ≠ typePtr :=
    ⟨by decide, by decide, p.address.rtype_ne⟩
  intro record listed
  simp only [List.mem_cons, List.not_mem_nil, or_false] at listed
  rcases listed with rfl | rfl | rfl | rfl
  · simp [isWanted, pointer]
  · simp [isWanted, pointer, others]
  · simp [isWanted, pointer, others]
  · simp [isWanted, pointer, others]

theorem describes_of_replies (findable : p.Findable lower transport)
    (asked : encodeQuery (serviceLabels transport none) typePtr ident true = .ok query)
    (replied : p.Replies query client reply) :
    ∃ message, decodeReply [ident] reply = some (message, reply.source) ∧
      Describes lower message p := by
  obtain ⟨b, now, sent, b', rfl, legacy, spoke, same⟩ := replied
  obtain ⟨questions, read, -, -, -, encoded⟩ := handle_spoke spoke
  obtain ⟨decoded, number⟩ := decodeQuestions_query asked
  obtain rfl := Except.ok.inj (read.symm.trans decoded)
  rw [Binding.respond, if_pos legacy, answersFor_service findable true, number, same] at encoded
  obtain ⟨message, whole, identRead, reads⟩ := decodeMessage_response encoded
  refine ⟨message, ?_, describes findable reads⟩
  rw [decodeReply, whole]
  exact if_pos (by rw [identRead]; exact List.mem_singleton_self ident)

/-- What a message names is the instance of a publication, and the message describes it. -/
structure NamedFor (lower : String → String) (transport : MulticastTransport) (p : Publication)
    (named : Named) : Prop where
  name : named.instanceName = p.instanceName
  transport : p.transport = transport
  describes : Describes lower named.message p

/-- What the replies of some responders name: their instances, each in a message that describes
it. -/
theorem named_of_replies {found : List Publication} (each : ∀ p ∈ found, p.Findable lower transport)
    (asked : encodeQuery (serviceLabels transport none) typePtr ident true = .ok query)
    (replied : List.Forall₂ (Publication.Replies query client) found replies) :
    List.Forall₂ (NamedFor lower transport) found
      ((decodeAll replies [ident]).flatMap fun (message, host) =>
        (namedIn (serviceLabels transport none) message).map fun name =>
          ⟨name, message, host⟩) := by
  induction replied with
  | nil => exact .nil
  | cons first later ih =>
      rename_i p reply found replies
      have findable := each p List.mem_cons_self
      obtain ⟨message, decoded, described⟩ := describes_of_replies findable asked first
      have rest := ih fun q listed => each q (List.mem_cons_of_mem p listed)
      have named := described.named
      rw [findable.transport] at named
      simp only [decodeAll, List.filterMap_cons, decoded, List.flatMap_cons, named, List.map_cons,
        List.map_nil, List.cons_append, List.nil_append] at rest ⊢
      exact .cons ⟨rfl, findable.transport, described⟩ rest

end Found

section Described

variable {lower : String → String} {transport : MulticastTransport} {found : List Named}

/-- The message of an instance has its records, whatever they say. -/
def Named.Complete (named : Named) : Prop :=
  (first named.message named.instanceName typeSrv).isSome = true ∧
    (first named.message named.instanceName typeTxt).isSome = true

theorem unresolved_of_complete (complete : ∀ named ∈ found, named.Complete) (search : Search) :
    (found.foldl (Search.look lower transport) search).unresolved = search.unresolved := by
  induction found generalizing search with
  | nil => rfl
  | cons named rest ih =>
      obtain ⟨srv, txt⟩ := complete named List.mem_cons_self
      rw [List.foldl_cons, ih fun n listed => complete n (List.mem_cons_of_mem named listed)]
      unfold Search.look
      split
      · split <;> rfl
      · rw [if_neg]
        simp [Option.isNone_iff_eq_none, Option.isSome_iff_ne_none.mp srv,
          Option.isSome_iff_ne_none.mp txt]

/-- Where every instance is described by the message that names it, nothing more is asked. -/
theorem discover_of_complete {timeout : ℚ} {ident : Nat} {idents : List Nat}
    {replies answers : List Reply} {subtype : Option String}
    (complete : ∀ named ∈ (instances (decodeAll replies [ident])
      (serviceLabels transport subtype)).take maxInstances, named.Complete) :
    discover lower transport subtype timeout ident idents replies answers =
      ((instances (decodeAll replies [ident]) (serviceLabels transport subtype)).take
        maxInstances).filterMap fun named =>
          serverFromRecords lower named.message named.instanceName transport.name
            (some named.host) := by
  have distinct : (((instances (decodeAll replies [ident])
      (serviceLabels transport subtype)).take maxInstances).map fun f =>
        fold f.instanceName).Nodup := by
    rw [List.map_take]
    exact List.Nodup.sublist (List.take_sublist _ _) nodup_firsts
  simp only [discover, discoverNamed, unresolved_of_complete complete, if_true, List.foldl_nil,
    List.map_filterMap]
  refine List.filterMap_congr fun named listed => ?_
  rw [get?_foldl_look, Dict.get?_empty, Option.none_or,
    findSome?_of_distinct (fun f => serverFromRecords lower f.message f.instanceName
      transport.name (some f.host)) distinct listed]
  cases serverFromRecords lower named.message named.instanceName transport.name
    (some named.host) <;> rfl

theorem complete_of_named {publications : List Publication}
    (named : List.Forall₂ (NamedFor lower transport) publications found) :
    ∀ named ∈ found, named.Complete := by
  induction named with
  | nil => simp
  | cons related _ ih =>
      intro named listed
      rcases List.mem_cons.mp listed with rfl | there
      · unfold Named.Complete
        rw [related.name]
        exact ⟨related.describes.srv, related.describes.txt⟩
      · exact ih named there

theorem servers_of_named {publications : List Publication}
    (named : List.Forall₂ (NamedFor lower transport) publications found) :
    (found.filterMap fun named => serverFromRecords lower named.message named.instanceName
      transport.name (some named.host)) = publications.filterMap Publication.server := by
  induction named with
  | nil => rfl
  | cons related _ ih =>
      rw [List.filterMap_cons, List.filterMap_cons, ih, related.name, ← related.transport,
        related.describes.server]

end Described

/-- A responder that could announce its records, and may send, answers a query for its service. -/
theorem handle_query {b : Binding} {lower : String → String} {transport : MulticastTransport}
    {ident : Nat} {query data : Bytes} {client : Endpoint} {now : ℚ}
    (findable : b.publication.Findable lower transport)
    (asked : encodeQuery (serviceLabels transport none) typePtr ident true = .ok query)
    (announced : encodeResponse b.publication.records 0 [] = .ok data)
    (legacy : client.port ≠ b.port) (may : (b.mayRespond true now).1 = true) :
    ∃ sent b', b.handle query client now = .ok (some sent, b') := by
  obtain ⟨decoded, -⟩ := decodeQuestions_query asked
  obtain ⟨-, read⟩ := decodeQuestions_read decoded
  have short : ∀ question ∈ [⟨serviceLabels transport none, typePtr, true⟩],
      ¬ Question.Overlong question := by
    obtain ⟨_, -, more⟩ := bind_eq_ok.mp asked
    obtain ⟨name, named, -⟩ := bind_eq_ok.mp more
    intro question listed
    rw [List.mem_singleton.mp listed]
    exact Nat.not_lt.mpr (encodable_iff.mpr ⟨name, named⟩).2
  obtain ⟨response, encoded⟩ := (encodeAnswers_iff announced (List.Sublist.refl _) decoded
    (List.cons_ne_nil _ _)).mpr short
  have some_ : answersFor b.publication.records [⟨serviceLabels transport none, typePtr, true⟩] ≠
      [] := by
    obtain ⟨target, srv, txt, -, -, -, records⟩ := b.publication.records_eq
    rw [answersFor_service findable true, records]
    exact List.cons_ne_nil _ _
  have responds : b.respond query client [⟨serviceLabels transport none, typePtr, true⟩] =
      .ok response := by
    rw [Binding.respond, if_pos legacy, answersFor_service findable true, encoded]
  have unicast : b.unicasts client [⟨serviceLabels transport none, typePtr, true⟩] = true := by
    simp [Binding.unicasts]
  refine ⟨⟨response, some client⟩, (b.mayRespond true now).2, ?_⟩
  rw [handle_asked decoded some_, unicast, responds]
  simp only [may, if_true]
  rfl

/-! ### A responder on the link -/

/-- A server that is announced under the service of the standard. -/
def siteAdvertisement : ServiceAdvertisement where
  instanceLabel := utf8 "site"
  service := (utf8 "_smartenergy", utf8 "_tcp")
  port := 443
  txt := siteTxt
  hostname := utf8 "host"
  instance_fits := by decide
  hostname_fits := by decide
  port_fits := by decide

def siteTransport : MulticastTransport := ⟨"mdns", utf8 "local"⟩

def sitePublication : Publication where
  advertisement := siteAdvertisement
  transport := siteTransport
  address := .v4 0xC0A80001
  records := ((siteAdvertisement.records siteTransport [.v4 0xC0A80001]).toOption).getD []
  routable := by decide
  published := by rfl

def siteBinding : Binding := ⟨5353, sitePublication, none, none, 0⟩

def siteClient : Endpoint := ⟨.literal (.v4 0xC0A80002), 40000⟩

theorem sitePublication_findable : sitePublication.Findable id siteTransport := by
  have keys : ∀ key ∈ siteTxt.keys, key ≠ "" ∧ '=' ∉ key.toList := by decide
  exact ⟨rfl, by decide, fun key listed => ⟨(keys key listed).1, (keys key listed).2, rfl⟩⟩

def siteAnnouncement : Bytes := (encodeResponse sitePublication.records 0 []).toOption.getD []

theorem siteAnnouncement_ok :
    encodeResponse sitePublication.records 0 [] = .ok siteAnnouncement := by
  rfl

def siteQuery : Bytes :=
  (encodeQuery (serviceLabels siteTransport none) typePtr 7 true).toOption.getD []

theorem siteQuery_ok :
    encodeQuery (serviceLabels siteTransport none) typePtr 7 true = .ok siteQuery := by
  rfl

theorem siteBinding_answers :
    ∃ sent b', siteBinding.handle siteQuery siteClient 0 = .ok (some sent, b') :=
  handle_query sitePublication_findable siteQuery_ok siteAnnouncement_ok (by decide) (by decide)

/-! ### A name that cannot be repeated -/

section Overlong

variable {data body rest : Bytes} {labels : Name} {offset : Nat}

/-- A name is read where it stands, however long it is, if its labels are few enough. -/
theorem readName_of_labels (encoded : encodeLabels labels = .ok body)
    (few : labels.length ≤ maxLabels) (stands : StandsAt data offset (body ++ [0])) :
    readName data offset = .ok (labels, offset + body.length + 1) := by
  obtain ⟨first, root⟩ := standsAt_append stands
  rw [readName, readFrom_labels _ encoded (by simpa using few) first]
  refine readFrom_returns ?_
  simp [Reading.round, (standsAt_cons root).1]

theorem readQuestions_cons {qtype count : Nat} {questions : List Question}
    (encoded : encodeLabels labels = .ok body) (few : labels.length ≤ maxLabels)
    (fits : qtype < 256 ^ 2)
    (stands : StandsAt data offset
      (body ++ [0] ++ (toBytes 2 qtype ++ (toBytes 2 classIn ++ rest))))
    (later : readQuestions data count (offset + body.length + 5) = .ok questions) :
    readQuestions data (count + 1) offset = .ok (⟨labels, qtype, false⟩ :: questions) := by
  obtain ⟨named, fields⟩ := standsAt_append stands
  have length : offset + (body ++ [0]).length = offset + body.length + 1 := by
    rw [List.length_append, List.length_singleton, Nat.add_assoc]
  rw [length] at fields
  have room := fields.le
  obtain ⟨typed, fields⟩ := numberAt_of_standsAt fields fits
  obtain ⟨classed, -⟩ := numberAt_of_standsAt fields (by decide)
  simp only [List.length_append, length_toBytes] at room
  have classed : numberAt data (offset + body.length + 1 + 2) (offset + body.length + 1 + 4) =
      classIn := classed
  rw [readQuestions, readName_of_labels encoded few named]
  simp only [bind, Except.bind]
  rw [if_neg (by omega), later, typed, classed]
  rfl

/-- Five labels of 63 bytes. -/
def overlongName : Name := List.replicate 5 (List.replicate 63 97)

def overlongBody : Bytes := (encodeLabels overlongName).toOption.getD []

def serviceBody : Bytes := (encodeLabels (serviceLabels siteTransport none)).toOption.getD []

/-- A query for the service, and for this name. -/
def overlongQuery : Bytes :=
  toBytes 2 7 ++ (toBytes 2 0 ++ (toBytes 2 2 ++ (toBytes 6 0 ++
    (serviceBody ++ [0] ++ (toBytes 2 typePtr ++ (toBytes 2 classIn ++
      (overlongBody ++ [0] ++ (toBytes 2 typePtr ++ (toBytes 2 classIn ++ [])))))))))

theorem decodeQuestions_overlong : decodeQuestions overlongQuery =
    .ok [⟨serviceLabels siteTransport none, typePtr, false⟩, ⟨overlongName, typePtr, false⟩] := by
  have stands := standsAt_self overlongQuery
  nth_rewrite 2 [overlongQuery] at stands
  obtain ⟨-, stands⟩ := numberAt_of_standsAt stands (by decide)
  obtain ⟨flags, stands⟩ := numberAt_of_standsAt stands (by decide)
  obtain ⟨count, stands⟩ := numberAt_of_standsAt stands (by decide)
  obtain ⟨-, stands⟩ := numberAt_of_standsAt stands (by decide)
  have service : encodeLabels (serviceLabels siteTransport none) = .ok serviceBody := by rfl
  have overlong : encodeLabels overlongName = .ok overlongBody := by rfl
  have serviceLength : serviceBody.length = 24 := by decide
  have second := (standsAt_append (standsAt_append (standsAt_append stands).2).2).2
  simp only [Nat.zero_add, Nat.reduceAdd, List.length_append, List.length_singleton,
    length_toBytes, serviceLength] at flags count stands second
  have size : ¬ overlongQuery.length < 12 := by
    have := stands.le
    omega
  rw [decodeQuestions, if_neg size, flags, count, if_neg (by decide)]
  refine readQuestions_cons service (by decide) (by decide) stands ?_
  rw [serviceLength]
  exact readQuestions_cons overlong (by decide) (by decide) second rfl

end Overlong

/-! ### On the link -/

/-- What a responder sends, to whatever datagram: the records it publishes that the datagram asks
for or that complete a pointer it asks for, to the host that asked or to the group. No responder
answers it. -/
theorem handle_answers (b : Binding) (payload : Bytes) (source : Endpoint) (now : ℚ) {sent : Sent}
    {b' : Binding} (spoke : b.handle payload source now = .ok (some sent, b')) :
    ∃ questions message, decodeQuestions payload = .ok questions ∧
      decodeMessage sent.payload = .ok message ∧
      message.ident = (if source.port ≠ b.port then numberAt payload 0 2 else 0) ∧
      b.publication.records.filter (isWanted b.publication.records questions) ≠ [] ∧
      List.Forall₂ (ReadsAs message (source.port ≠ b.port)) message.records
        (b.publication.records.filter (isWanted b.publication.records questions)) ∧
      sent.receiver = (if b.unicasts source questions then some source else none) ∧
      ∀ other : Binding, ∀ source' now',
        other.handle sent.payload source' now' = .ok (none, other) := by
  obtain ⟨questions, asked, some_, -, receiver, encoded⟩ := handle_spoke spoke
  rw [answersFor_eq] at some_
  simp only [Binding.respond, answersFor_eq] at encoded
  refine ⟨questions, ?_⟩
  by_cases legacy : source.port ≠ b.port
  · rw [if_pos legacy] at encoded
    obtain ⟨message, decoded, ident, reads⟩ := decodeMessage_response encoded
    have several : questions.isEmpty = false := by
      cases questions with
      | nil =>
          exact absurd (List.filter_eq_nil_iff.mpr fun r _ => by simp [isWanted, isAsked]) some_
      | cons question rest => rfl
    refine ⟨message, asked, decoded, by rw [if_pos legacy, ident], some_, ?_, receiver,
      fun other source' now' => handle_other (decodeQuestions_response encoded) rfl⟩
    simpa [several, legacy] using reads
  · rw [if_neg legacy] at encoded
    obtain ⟨message, decoded, ident, reads⟩ := decodeMessage_response encoded
    refine ⟨message, asked, decoded, by rw [if_neg legacy, ident], some_, ?_, receiver,
      fun other source' now' => handle_other (decodeQuestions_response encoded) rfl⟩
    simpa [legacy] using reads

/-- Nobody answers the answer to the query. -/
theorem handle_answers_site : ∃ sent b',
    siteBinding.handle siteQuery siteClient 0 = .ok (some sent, b') ∧
    ∀ other : Binding, ∀ source now, other.handle sent.payload source now = .ok (none, other) := by
  obtain ⟨sent, b', spoke⟩ := siteBinding_answers
  obtain ⟨questions, message, -, -, -, -, -, -, silent⟩ :=
    handle_answers siteBinding siteQuery siteClient 0 spoke
  exact ⟨sent, b', spoke, silent⟩

/-- What stops a responder that could announce its records: a query from another port than its own
that asks for one of its records, and with it for a name of more than 255 bytes. A name in a message
can be that long by its pointers, and the answer repeats the questions without pointers. -/
theorem handle_raises_iff (b : Binding) {data : Bytes}
    (announced : encodeResponse b.publication.records 0 [] = .ok data) (payload : Bytes)
    (source : Endpoint) (now : ℚ) :
    (∃ e, b.handle payload source now = .error e) ↔
      source.port ≠ b.port ∧ (b.mayRespond true now).1 = true ∧
      ∃ questions, decodeQuestions payload = .ok questions ∧
        (∃ record ∈ b.publication.records, isAsked questions record = true) ∧
        ∃ question ∈ questions, question.Overlong := by
  cases asked : decodeQuestions payload with
  | error e => simp [handle_malformed asked]
  | ok questions =>
      have few : (answersFor b.publication.records questions).Sublist b.publication.records := by
        rw [answersFor_eq]
        exact List.filter_sublist
      by_cases nothing : answersFor b.publication.records questions = []
      · have none_ := answersFor_eq_nil_iff.mp nothing
        simp only [handle_other asked nothing, reduceCtorEq, exists_false, Except.ok.injEq,
          exists_eq_left', none_, false_and, and_false]
      · have some_ := not_not.mp (mt answersFor_eq_nil_iff.mpr nothing)
        rw [handle_asked asked nothing]
        by_cases legacy : source.port ≠ b.port
        · have unicast : b.unicasts source questions = true := by simp [Binding.unicasts, legacy]
          have several : questions ≠ [] := by
            rintro rfl
            exact nothing (answersFor_eq_nil_iff.mpr (by simp [isAsked]))
          have repeats := encodeAnswers_iff announced few asked several
          simp only [unicast, Binding.respond, if_pos legacy, Except.ok.injEq, exists_eq_left',
            some_, true_and]
          cases (b.mayRespond true now).1 with
          | false => simp
          | true =>
              cases encoded : encodeResponse (answersFor b.publication.records questions)
                  (numberAt payload 0 2) questions with
              | ok out =>
                  have short := repeats.mp ⟨out, encoded⟩
                  simpa [Except.map, legacy] using short
              | error e =>
                  rw [encoded] at repeats
                  simpa [Except.map, legacy] using repeats
        · obtain ⟨out, encoded⟩ := encodeAnnounced announced few
          refine ⟨fun ⟨e, raised⟩ => ?_, fun ⟨other, _⟩ => absurd other legacy⟩
          simp only [Binding.respond, if_neg legacy, encoded] at raised
          split at raised
          · cases raised
          · cases raised

/-- The query stops the responder. -/
theorem handle_raises_overlong :
    ∃ e, siteBinding.handle overlongQuery siteClient 0 = .error e := by
  have asked : ∃ record ∈ siteBinding.publication.records,
      isAsked [⟨serviceLabels siteTransport none, typePtr, false⟩, ⟨overlongName, typePtr, false⟩]
        record = true := by decide +kernel
  exact (handle_raises_iff siteBinding siteAnnouncement_ok overlongQuery siteClient 0).mpr
    ⟨by decide, by decide, _, decodeQuestions_overlong, asked, ⟨overlongName, typePtr, false⟩,
      List.mem_cons_of_mem _ (List.mem_singleton_self _), show 255 < _ by decide⟩

/-- A client asks for the service on a link, and some responders there answer it, in any order and
from any address: of the first 16 instances it finds each once, at the address, the port and with
the attributes that its responder advertises, as long as the attributes describe a server. Keys of
attributes are in lower case. -/
theorem discovers_advertised (lower : String → String) (transport : MulticastTransport)
    (timeout : ℚ) (ident : Nat) (idents : List Nat) {query : Bytes} (client : Endpoint)
    (asked : encodeQuery (serviceLabels transport none) typePtr ident true = .ok query)
    {found : List Publication} (each : ∀ p ∈ found, p.Findable lower transport)
    {replies : List Reply}
    (replied : List.Forall₂ (Publication.Replies query client) found replies)
    (answers : List Reply) :
    discover lower transport none timeout ident idents replies answers =
      ((firsts (fun p : Publication => fold p.instanceName) [] found).take
        maxInstances).filterMap Publication.server := by
  have named := named_of_replies each asked replied
  have kept := List.forall₂_take maxInstances (forall₂_firsts
    (fun p entry related => congrArg fold related.name.symm) named [])
  rw [discover_of_complete (complete_of_named kept)]
  exact servers_of_named kept

/-- The client finds the server where its answer comes in twice, from two addresses. -/
theorem discovers_advertised_site : ∃ payload, ∀ first second : Host,
    discover id siteTransport none 3 7 [] [⟨payload, first⟩, ⟨payload, second⟩] [] =
      [⟨formatName sitePublication.instanceName, .literal (.v4 0xC0A80001), 443, siteTxt,
        "mdns"⟩] := by
  obtain ⟨sent, b', spoke⟩ := siteBinding_answers
  refine ⟨sent.payload, fun first second => ?_⟩
  have replied (host : Host) : sitePublication.Replies siteQuery siteClient ⟨sent.payload, host⟩ :=
    ⟨siteBinding, 0, sent, b', rfl, by decide, spoke, rfl⟩
  have findable : ∀ p ∈ [sitePublication, sitePublication], p.Findable id siteTransport := by
    simpa using sitePublication_findable
  rw [discovers_advertised id siteTransport 3 7 [] siteClient siteQuery_ok findable
    (.cons (replied first) (.cons (replied second) .nil)) []]
  have port : usablePort siteTxt = some 443 := by decide +kernel
  simp [firsts, maxInstances, Publication.server, port, sitePublication, siteAdvertisement,
    siteTransport]

end Py20305.Dnssd
