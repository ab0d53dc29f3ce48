import Mathlib.Data.List.DropRight
import Mathlib.Data.Rat.Defs
import Mathlib.Order.Basic
import Mathlib.Algebra.Order.Ring.Rat
import Py20305.Dnssd.Messages
import Py20305.Dnssd.Txt
import Py20305.Lib.Firsts

/-!
Discovery (`client/dnssd/discover.py`).

`discover` looks at the first reply that names an instance, and at no other: an instance that a
later reply describes is lost when the first one does not (`discovers_offered_iff`).

An address is what `ipaddress.ip_address` makes of its text, and `str.lower` is a parameter. Left
out: the sockets, the queries sent, the check of a subtype, and the log.
-/

namespace Py20305.Dnssd

/-! ### Records -/

/-- `TYPE_A`. -/
def typeA : Nat := 1

/-- `TYPE_PTR`. -/
def typePtr : Nat := 12

/-- `TYPE_TXT`. -/
def typeTxt : Nat := 16

/-- `TYPE_AAAA`. -/
def typeAaaa : Nat := 28

/-- `TYPE_SRV`. -/
def typeSrv : Nat := 33

/-- A byte in `bytes.lower`. -/
def lowerByte (byte : UInt8) : UInt8 := if 65 ≤ byte ∧ byte ≤ 90 then byte + 32 else byte

/-- `fold`. -/
def fold (name : Name) : Name := name.map (·.map lowerByte)

/-- A label in `format_name`. -/
def escapeLabel (label : Bytes) : String :=
  String.ofList ((decodeReplace label).toList.flatMap fun c =>
    if c = '\\' then ['\\', '\\'] else if c = '.' then ['\\', '.'] else [c])

/-- `format_name`. -/
def formatName (labels : Name) : String := ".".intercalate (labels.map escapeLabel)

/-- `_first`. -/
def first (message : DnsMessage) (name : Name) (rtype : Nat) : Option ResourceRecord :=
  message.records.find? fun record => record.rtype = rtype && fold record.name = fold name

/-! ### Addresses -/

inductive IpAddress where
  | v4 (value : BitVec 32)
  | v6 (value : BitVec 128)
  deriving DecidableEq, Repr

namespace IpAddress

/-- `is_link_local`: in 169.254.0.0/16 or fe80::/10. -/
def isLinkLocal : IpAddress → Bool
  | v4 value => value.extractLsb' 16 16 = 0xA9FE#16
  | v6 value => value.extractLsb' 118 10 = 0x3FA#10

def isUnspecified : IpAddress → Bool
  | v4 value => value = 0
  | v6 value => value = 0

def isV6 : IpAddress → Bool
  | v4 _ => false
  | v6 _ => true

end IpAddress

/-- A host: a literal address, or a name. -/
inductive Host where
  | literal (address : IpAddress)
  | name (text : String)
  deriving DecidableEq, Repr

/-- `decode_address`. -/
def decodeAddress (message : DnsMessage) (record : ResourceRecord) :
    Except DnsDecodeError IpAddress :=
  let raw := recordRdata message record
  let expected := if record.rtype = typeA then 4 else 16
  if raw.length ≠ expected then
    .error ⟨s!"address record has {raw.length} bytes, expected {expected}"⟩
  else if record.rtype = typeA then .ok (.v4 (BitVec.ofNat 32 (ofBytes raw)))
  else .ok (.v6 (BitVec.ofNat 128 (ofBytes raw)))

/-- `_address_for`. -/
def addressFor (message : DnsMessage) (target : Name) : Option Host :=
  let found := message.records.filterMap fun record =>
    if (record.rtype = typeA ∨ record.rtype = typeAaaa) ∧ fold record.name = fold target then
      (decodeAddress message record).toOption.filter fun address => !address.isLinkLocal
    else none
  (found.filter IpAddress.isV6 ++ found.filter fun address => !address.isV6).head?.map .literal

/-- `_usable_host`. -/
def usableHost : Option Host → Option Host
  | none => none
  | some (.name text) => some (.name text)
  | some (.literal address) =>
      if address.isLinkLocal || address.isUnspecified then none else some (.literal address)

/-! ### Numbers in texts -/

/-- The zeros of the decimal digits that `int` reads. -/
def decimalZeros : List Nat :=
  [0x30, 0x660, 0x6F0, 0x7C0, 0x966, 0x9E6, 0xA66, 0xAE6, 0xB66, 0xBE6, 0xC66, 0xCE6, 0xD66, 0xDE6,
    0xE50, 0xED0, 0xF20, 0x1040, 0x1090, 0x17E0, 0x1810, 0x1946, 0x19D0, 0x1A80, 0x1A90, 0x1B50,
    0x1BB0, 0x1C40, 0x1C50, 0xA620, 0xA8D0, 0xA900, 0xA9D0, 0xA9F0, 0xAA50, 0xABF0, 0xFF10, 0x104A0,
    0x10D30, 0x11066, 0x110F0, 0x11136, 0x111D0, 0x112F0, 0x11450, 0x114D0, 0x11650, 0x116C0,
    0x11730, 0x118E0, 0x11950, 0x11C50, 0x11D50, 0x11DA0, 0x11F50, 0x16A60, 0x16AC0, 0x16B50,
    0x1D7CE, 0x1D7D8, 0x1D7E2, 0x1D7EC, 0x1D7F6, 0x1E140, 0x1E2F0, 0x1E4F0, 0x1E950, 0x1FBF0]

def digitValue (c : Char) : Option Nat :=
  (decimalZeros.find? fun base => base ≤ c.toNat ∧ c.toNat < base + 10).map fun base =>
    c.toNat - base

/-- `str.isspace`. -/
def isSpace (c : Char) : Bool :=
  let n := c.toNat
  (9 ≤ n && n ≤ 13) || (0x1C ≤ n && n ≤ 0x20) || (0x2000 ≤ n && n ≤ 0x200A) ||
    [0x85, 0xA0, 0x1680, 0x2028, 0x2029, 0x202F, 0x205F, 0x3000].contains n

/-- Digits after one another, with single underscores between them. -/
def readDigits (value : Nat) : List Char → Option Nat
  | [] => some value
  | '_' :: c :: rest => (digitValue c).bind fun digit => readDigits (value * 10 + digit) rest
  | c :: rest => (digitValue c).bind fun digit => readDigits (value * 10 + digit) rest

def readNumber : List Char → Option Nat
  | [] => none
  | c :: rest => (digitValue c).bind fun digit => readDigits digit rest

/-- `int(text)`. -/
def readInt (text : String) : Option ℤ :=
  match (text.toList.dropWhile isSpace).rdropWhile isSpace with
  | '-' :: rest => (readNumber rest).map fun value => -(value : ℤ)
  | '+' :: rest => (readNumber rest).map fun value => (value : ℤ)
  | chars => (readNumber chars).map fun value => (value : ℤ)

/-! ### Servers -/

structure MulticastTransport where
  name : String
  domain : Bytes

structure DiscoveredServer where
  instanceName : String
  host : Host
  port : ℤ
  txt : Attributes
  transport : String

/-- `_INVALID_PORT`. -/
def invalidPort : ℤ := -1

/-- `_https_port`. -/
def httpsPort (txt : Attributes) : Option ℤ :=
  match txt.get? "https" with
  | none => none
  | some none => some 443
  | some (some value) =>
      if value = "" then some 443
      else match readInt value with
        | none => some invalidPort
        | some port => if 0 < port ∧ port ≤ 65535 then some port else some invalidPort

/-- The value of a key that is there and has one. -/
def valueOf (txt : Attributes) (key : String) : Option String :=
  ((txt.get? key).getD none).filter (· ≠ "")

/-- Is it a path, and no address of another server? -/
def isRooted (dcap : String) : Bool :=
  "/".toList.isPrefixOf dcap.toList && !"//".toList.isPrefixOf dcap.toList

/-- What `server_from_records` asks of a TXT record: the port, where it can be used. -/
def usablePort (txt : Attributes) : Option ℤ :=
  if (txt.get? "txtvers").getD none ≠ some "1" then none
  else do
    let dcap ← valueOf txt "dcap"
    let _ ← valueOf txt "level"
    if !isRooted dcap then none else (httpsPort txt).filter (· ≠ invalidPort)

variable (lower : String → String)

/-- `server_from_records`. -/
def serverFromRecords (message : DnsMessage) (named : Name) (transport : String)
    (fallbackHost : Option Host) : Option DiscoveredServer := do
  let srv ← first message named typeSrv
  let txtRecord ← first message named typeTxt
  let decoded ← (decodeSrv message srv).toOption
  let txt ← (decodeTxt lower (recordRdata message txtRecord)).toOption
  let port ← usablePort txt
  let host ← (addressFor message decoded.2).or (usableHost fallbackHost)
  return ⟨formatName named, host, port, txt, transport⟩

/-! ### Replies -/

structure Reply where
  payload : Bytes
  source : Host

/-- An instance that a message names, with where the message came from. -/
structure Named where
  instanceName : Name
  message : DnsMessage
  host : Host

/-- `_decode_all`, of one reply. -/
def decodeReply (idents : List Nat) (reply : Reply) : Option (DnsMessage × Host) :=
  match decodeMessage reply.payload with
  | .error _ => none
  | .ok message => if message.ident ∈ idents then some (message, reply.source) else none

/-- `_decode_all`. -/
def decodeAll (replies : List Reply) (idents : List Nat) : List (DnsMessage × Host) :=
  replies.filterMap (decodeReply idents)

/-- The instances that the pointers of a message for a service name. -/
def namedIn (service : Name) (message : DnsMessage) : List Name :=
  message.records.filterMap fun record =>
    if record.rtype = typePtr ∧ fold record.name = fold service then
      (decodePtr message record).toOption
    else none

/-- `_instances`. -/
def instances (messages : List (DnsMessage × Host)) (service : Name) : List Named :=
  firsts (fun found => fold found.instanceName) [] (messages.flatMap fun (message, host) =>
    (namedIn service message).map fun name => ⟨name, message, host⟩)

/-- `SERVICE_LABELS`. -/
def serviceNames : List Bytes := [utf8 "_smartenergy", utf8 "_tcp"]

/-- `service_labels`. -/
def serviceLabels (transport : MulticastTransport) : Option String → Name
  | none => serviceNames ++ [transport.domain]
  | some subtype => [utf8 subtype, utf8 "_sub"] ++ serviceNames ++ [transport.domain]

/-- `_MAX_INSTANCES`. -/
def maxInstances : Nat := 16

/-- The servers found, and the instances to ask about. -/
structure Search where
  servers : Dict Name DiscoveredServer
  unresolved : List Name

/-- One instance in the loop of `discover`. -/
def Search.look (transport : MulticastTransport) (search : Search) (found : Named) : Search :=
  match serverFromRecords lower found.message found.instanceName transport.name (some found.host) with
  | some server =>
      if (search.servers.get? found.instanceName).isSome then search
      else { search with servers := search.servers.set found.instanceName server }
  | none =>
      if (first found.message found.instanceName typeSrv).isNone ∨
          (first found.message found.instanceName typeTxt).isNone then
        { search with unresolved := search.unresolved ++ [found.instanceName] }
      else search

/-- `_resolve_instances`, with the answers to its questions. -/
def resolveInstances (transport : MulticastTransport) (asked : List Name) (timeout : ℚ)
    (idents : List Nat) (answers : List Reply) : List (Name × DiscoveredServer) :=
  if timeout ≤ 0 then []
  else
    let messages := decodeAll answers idents
    asked.filterMap fun name =>
      (messages.findSome? fun (message, host) =>
        serverFromRecords lower message name transport.name (some host)).map fun server =>
          (name, server)

/-- `discover`, with the replies to its query and the answers to its questions: the servers under
the names of their instances. -/
def discoverNamed (transport : MulticastTransport) (subtype : Option String) (timeout : ℚ)
    (ident : Nat) (idents : List Nat) (replies answers : List Reply) :
    List (Name × DiscoveredServer) :=
  let ptrTimeout := timeout * 2 / 3
  let found := (instances (decodeAll replies [ident]) (serviceLabels transport subtype)).take
    maxInstances
  let search := found.foldl (Search.look lower transport) ⟨.empty, []⟩
  let resolved := if search.unresolved = [] then []
    else resolveInstances lower transport search.unresolved (timeout - ptrTimeout) idents answers
  let servers := resolved.foldl (fun servers entry => servers.set entry.1 entry.2) search.servers
  found.filterMap fun found =>
    (servers.get? found.instanceName).map fun server => (found.instanceName, server)

/-- `discover`. -/
def discover (transport : MulticastTransport) (subtype : Option String) (timeout : ℚ) (ident : Nat)
    (idents : List Nat) (replies answers : List Reply) : List DiscoveredServer :=
  (discoverNamed lower transport subtype timeout ident idents replies answers).map Prod.snd

/-! ### What replies offer -/

section Offers

variable (service : Name) (transport : String) (ident : Nat) (key : Name) (reply : Reply)

/-- The reply decodes, answers the query and names the instance. -/
def names : Bool :=
  match decodeReply [ident] reply with
  | none => false
  | some (message, _) => (namedIn service message).any fun name => fold name = key

/-- It names the instance, and describes a server for it. -/
def offers : Bool :=
  match decodeReply [ident] reply with
  | none => false
  | some (message, host) => (namedIn service message).any fun name =>
      fold name = key && (serverFromRecords lower message name transport (some host)).isSome

end Offers

/-- The names a reply has for instances. -/
def namesIn (service : Name) (ident : Nat) (reply : Reply) : List Name :=
  match decodeReply [ident] reply with
  | none => []
  | some (message, _) => (namedIn service message).map fold

/-- The instance is among those reported, where the direct questions get no answer. -/
def Reported (transport : MulticastTransport) (subtype : Option String) (timeout : ℚ) (ident : Nat)
    (idents : List Nat) (replies : List Reply) (key : Name) : Prop :=
  ∃ entry ∈ discoverNamed lower transport subtype timeout ident idents replies [],
    fold entry.1 = key

/-! ### The instances looked at -/

section Looked

variable {lower}
variable {message : DnsMessage} {transport : MulticastTransport} {subtype : Option String}
variable {timeout : ℚ} {ident : Nat} {idents : List Nat} {replies : List Reply}

theorem first_congr {name other : Name} (same : fold name = fold other) (rtype : Nat) :
    first message name rtype = first message other rtype := by
  rw [first, first, same]

/-- Whether a message describes a server does not depend on the case of the name. -/
theorem isSome_serverFromRecords_congr {name other : Name} (same : fold name = fold other)
    (transport : String) (host : Option Host) :
    (serverFromRecords lower message name transport host).isSome =
      (serverFromRecords lower message other transport host).isSome := by
  simp only [serverFromRecords, first_congr same, Option.bind_eq_bind, Option.isSome_bind,
    Option.pure_def, Option.isSome_some]

/-- What the loop of `discover` keeps for a name. -/
theorem get?_foldl_look (transport : MulticastTransport) (found : List Named) (search : Search)
    (name : Name) :
    (found.foldl (Search.look lower transport) search).servers.get? name =
      (search.servers.get? name).or (found.findSome? fun f =>
        if f.instanceName = name then
          serverFromRecords lower f.message f.instanceName transport.name (some f.host)
        else none) := by
  induction found generalizing search with
  | nil => simp
  | cons f rest ih =>
      rw [List.foldl_cons, ih, List.findSome?_cons]
      cases server : serverFromRecords lower f.message f.instanceName transport.name
          (some f.host) with
      | none =>
          have same : (search.look lower transport f).servers = search.servers := by
            simp only [Search.look, server]
            split <;> rfl
          rw [same]
          split <;> simp_all
      | some server' =>
          by_cases here : f.instanceName = name
          · subst here
            cases known : search.servers.get? f.instanceName with
            | none => simp [Search.look, server, known]
            | some old => simp [Search.look, server, known]
          · have other : (search.look lower transport f).servers.get? name =
                search.servers.get? name := by
              simp only [Search.look, server]
              split
              · rfl
              · exact Dict.get?_set_ne _ _ (Ne.symm here)
            rw [other, if_neg here]

/-- Without an answer to the direct questions nothing is resolved. -/
theorem resolveInstances_nil (transport : MulticastTransport) (asked : List Name) (timeout : ℚ)
    (idents : List Nat) : resolveInstances lower transport asked timeout idents [] = [] := by
  unfold resolveInstances
  split
  · rfl
  · simp [decodeAll]

/-- Of two items with one key in a list of distinct keys neither is another. -/
theorem findSome?_of_distinct {α : Type} {found : List Named} {f : Named} (g : Named → Option α)
    (distinct : (found.map fun f => fold f.instanceName).Nodup) (listed : f ∈ found) :
    (found.findSome? fun h => if h.instanceName = f.instanceName then g h else none) = g f := by
  induction found with
  | nil => cases listed
  | cons h rest ih =>
      rw [List.map_cons, List.nodup_cons] at distinct
      rw [List.findSome?_cons]
      by_cases same : h.instanceName = f.instanceName
      · have this : f = h := by
          refine (List.mem_cons.mp listed).resolve_right fun later => distinct.1 ?_
          exact List.mem_map.mpr ⟨f, later, by rw [same]⟩
        subst this
        rw [if_pos rfl]
        cases g f with
        | some found => rfl
        | none =>
            refine List.findSome?_eq_none_iff.mpr fun h later => ?_
            refine if_neg fun same => distinct.1 ?_
            exact List.mem_map.mpr ⟨h, later, by rw [same]⟩
      · rw [if_neg same]
        refine ih distinct.2 ((List.mem_cons.mp listed).resolve_left ?_)
        rintro rfl
        exact same rfl

/-- The instance a reply names under a key. -/
def namedAs (service : Name) (ident : Nat) (key : Name) (reply : Reply) : Option Named :=
  (decodeReply [ident] reply).bind fun decoded =>
    ((namedIn service decoded.1).find? fun name => fold name = key).map fun name =>
      ⟨name, decoded.1, decoded.2⟩

variable {service key : Name} {reply : Reply} {found : Named}

theorem isSome_namedAs : (namedAs service ident key reply).isSome = names service ident key reply := by
  unfold namedAs names
  cases decodeReply [ident] reply with
  | none => rfl
  | some decoded =>
      obtain ⟨message, host⟩ := decoded
      simp only [Option.bind_some, Option.isSome_map]
      rw [List.isSome_find?]

theorem fold_of_namedAs (named : namedAs service ident key reply = some found) :
    fold found.instanceName = key := by
  obtain ⟨decoded, -, named⟩ := Option.bind_eq_some_iff.mp named
  obtain ⟨name, looked, rfl⟩ := Option.map_eq_some_iff.mp named
  simpa using List.find?_some looked

theorem offers_iff (transport : String) : offers lower service transport ident key reply = true ↔
    ∃ found, namedAs service ident key reply = some found ∧
      (serverFromRecords lower found.message found.instanceName transport
        (some found.host)).isSome = true := by
  unfold offers namedAs
  cases decodeReply [ident] reply with
  | none => simp
  | some decoded =>
      obtain ⟨message, host⟩ := decoded
      simp only [Option.bind_some, List.any_eq_true, Bool.and_eq_true, decide_eq_true_eq]
      constructor
      · rintro ⟨name, listed, same, server⟩
        have there : ((namedIn service message).find? fun name => fold name = key).isSome :=
          List.find?_isSome.mpr ⟨name, listed, by simpa using same⟩
        obtain ⟨name', looked⟩ := Option.isSome_iff_exists.mp there
        have same' : fold name' = key := by simpa using List.find?_some looked
        refine ⟨⟨name', message, host⟩, by rw [looked]; rfl, ?_⟩
        rwa [isSome_serverFromRecords_congr (same'.trans same.symm)]
      · rintro ⟨f, named, server⟩
        obtain ⟨name, looked, rfl⟩ := Option.map_eq_some_iff.mp named
        exact ⟨name, List.mem_of_find?_eq_some looked, by simpa using List.find?_some looked, server⟩

theorem find?_named (key : Name) : ((decodeAll replies [ident]).flatMap fun (message, host) =>
      (namedIn service message).map fun name => (⟨name, message, host⟩ : Named)).find?
        (fun f => fold f.instanceName = key) =
      (replies.find? (names service ident key)).bind (namedAs service ident key) := by
  have each : names service ident key = fun reply => (namedAs service ident key reply).isSome :=
    funext fun _ => isSome_namedAs.symm
  rw [each, ← findSome?_eq_bind]
  induction replies with
  | nil => rfl
  | cons reply rest ih =>
      rw [List.findSome?_cons, decodeAll, List.filterMap_cons, namedAs]
      cases decoded : decodeReply [ident] reply with
      | none => exact ih
      | some found =>
          rw [List.flatMap_cons, List.find?_append, List.find?_map, Option.bind_some]
          have later := ih
          simp only [decodeAll] at later
          rw [later]
          show Option.or (Option.map _ ((namedIn service found.1).find? fun name => fold name = key)) _ = _
          cases (namedIn service found.1).find? fun name => fold name = key <;> rfl

/-- What is looked at for an instance comes from the first reply that names it. -/
theorem mem_instances_iff : found ∈ instances (decodeAll replies [ident]) service ↔
    ∃ reply, replies.find? (names service ident (fold found.instanceName)) = some reply ∧
      namedAs service ident (fold found.instanceName) reply = some found := by
  rw [instances, mem_firsts_iff, find?_named, Option.bind_eq_some_iff]
  simp only [List.not_mem_nil, not_false_eq_true, true_and]

theorem length_instances_le (service : Name) (ident : Nat) (replies : List Reply) :
    (instances (decodeAll replies [ident]) service).length ≤
      (replies.flatMap (namesIn service ident)).toFinset.card := by
  have keys : ((decodeAll replies [ident]).flatMap fun (message, host) =>
      (namedIn service message).map fun name => (⟨name, message, host⟩ : Named)).map
        (fun f => fold f.instanceName) = replies.flatMap (namesIn service ident) := by
    induction replies with
    | nil => rfl
    | cons reply rest ih =>
        rw [List.flatMap_cons, decodeAll, List.filterMap_cons, namesIn]
        cases decoded : decodeReply [ident] reply with
        | none => exact ih
        | some found =>
            have later := ih
            simp only [decodeAll] at later
            rw [List.flatMap_cons, List.map_append, later, List.map_map]
            rfl
  rw [← keys]
  exact length_firsts_le _ _

/-- An instance is reported if and only if the first reply that names it describes a server. -/
theorem reported_iff
    (few : (replies.flatMap (namesIn (serviceLabels transport subtype) ident)).toFinset.card ≤
      maxInstances) (key : Name) :
    Reported lower transport subtype timeout ident idents replies key ↔
      FirstHas (names (serviceLabels transport subtype) ident key)
        (offers lower (serviceLabels transport subtype) transport.name ident key) replies := by
  have all : (instances (decodeAll replies [ident]) (serviceLabels transport subtype)).take
      maxInstances = instances (decodeAll replies [ident]) (serviceLabels transport subtype) :=
    List.take_of_length_le ((length_instances_le _ _ _).trans few)
  have server {found : Named}
      (listed : found ∈ instances (decodeAll replies [ident]) (serviceLabels transport subtype)) :
      ((instances (decodeAll replies [ident]) (serviceLabels transport subtype)).foldl
        (Search.look lower transport) ⟨.empty, []⟩).servers.get? found.instanceName =
      serverFromRecords lower found.message found.instanceName transport.name (some found.host) := by
    rw [get?_foldl_look, Dict.get?_empty, Option.none_or]
    exact findSome?_of_distinct (fun f => serverFromRecords lower f.message f.instanceName
      transport.name (some f.host)) nodup_firsts listed
  simp only [Reported, discoverNamed, all, resolveInstances_nil, ite_self, List.foldl_nil,
    List.mem_filterMap, Option.map_eq_some_iff]
  constructor
  · rintro ⟨entry, ⟨found, listed, server', kept, rfl⟩, rfl⟩
    obtain ⟨reply, first, named⟩ := mem_instances_iff.mp listed
    rw [server listed] at kept
    exact ⟨reply, first, (offers_iff _).mpr ⟨found, named, by rw [kept]; rfl⟩⟩
  · rintro ⟨reply, first, offered⟩
    obtain ⟨found, named, described⟩ := (offers_iff _).mp offered
    have same := fold_of_namedAs named
    subst same
    have listed := mem_instances_iff.mpr ⟨reply, first, named⟩
    obtain ⟨server', kept⟩ := Option.isSome_iff_exists.mp described
    exact ⟨_, ⟨found, listed, server', (server listed).trans kept, rfl⟩, rfl⟩

theorem names_of_offers {transport : String}
    (offered : offers lower service transport ident key reply = true) :
    names service ident key reply = true := by
  obtain ⟨found, named, -⟩ := (offers_iff transport).mp offered
  rw [← isSome_namedAs, named]
  rfl

end Looked

/-- The instances reported are those that some reply offers if and only if the first reply that
names an instance offers it where any does; and they are so in any order of the replies if and only
if each instance is offered by all the replies that name it or by none. -/
theorem discovers_offered_iff (lower : String → String) (transport : MulticastTransport)
    (subtype : Option String) (timeout : ℚ) (ident : Nat) (idents : List Nat) (replies : List Reply)
    (few : (replies.flatMap (namesIn (serviceLabels transport subtype) ident)).toFinset.card ≤
      maxInstances) :
    let reported := Reported lower transport subtype timeout ident idents
    let named := names (serviceLabels transport subtype) ident
    let offered := offers lower (serviceLabels transport subtype) transport.name ident
    ((∀ key, reported replies key ↔ ∃ reply ∈ replies, offered key reply = true) ↔
      ∀ key reply, replies.find? (named key) = some reply →
        (∃ other ∈ replies, offered key other = true) → offered key reply = true) ∧
    (((∀ key, reported replies key ↔ ∃ reply ∈ replies, offered key reply = true) ∧
        ∀ other, other.Perm replies → ∀ key, reported other key ↔ reported replies key) ↔
      ∀ key, ∀ reply ∈ replies, ∀ other ∈ replies, offered key reply = true →
        named key other = true → offered key other = true) := by
  intro reported named offered
  have candidates (key : Name) (reply : Reply) (offers : offered key reply = true) :
      named key reply = true := names_of_offers offers
  have each (other : List Reply) (same : other.Perm replies) (key : Name) :
      reported other key ↔ FirstHas (named key) (offered key) other := by
    refine reported_iff ?_ key
    have keys : (other.flatMap (namesIn (serviceLabels transport subtype) ident)).toFinset =
        (replies.flatMap (namesIn (serviceLabels transport subtype) ident)).toFinset :=
      List.toFinset_eq_of_perm _ _ (same.flatMap_right _)
    rwa [keys]
  have here := each replies (List.Perm.refl _)
  have whole : (∀ key, reported replies key ↔ ∃ reply ∈ replies, offered key reply = true) ↔
      ∀ key, FirstHas (named key) (offered key) replies ↔
        ∃ reply ∈ replies, offered key reply = true :=
    forall_congr' fun key => by rw [here key]
  refine ⟨whole.trans (forall_congr' fun key => firstHas_iff (candidates key)), ?_⟩
  constructor
  · rintro ⟨found, invariant⟩ key
    refine (firstHas_perm_iff (candidates key)).mp fun other same => ?_
    rw [← each other same key, invariant other same key, found key]
  · intro uniform
    have each' (key : Name) := (firstHas_perm_iff (candidates key)).mpr (uniform key)
    refine ⟨whole.mpr fun key => each' key replies (List.Perm.refl _), fun other same key => ?_⟩
    rw [each other same key, here key, each' key other same,
      each' key replies (List.Perm.refl _)]

/-! ### An answer with no address -/

/-- `_smartenergy._tcp.local`. -/
def siteService : Name := serviceLabels ⟨"mdns", utf8 "local"⟩ none

/-- An instance of it. -/
def siteName : Name := utf8 "site" :: siteService

/-- The attributes of its server. -/
def siteTxt : Attributes :=
  ⟨[("txtvers", some "1"), ("dcap", some "/dcap"), ("level", some "-S1"), ("https", none)],
    by decide⟩

def siteRecords : List Record :=
  [⟨siteService, typePtr, 120, (encodeName siteName).toOption.getD [], false⟩,
    ⟨siteName, typeSrv, 120, (encodeSrv 443 [utf8 "site"]).toOption.getD [], true⟩,
    ⟨siteName, typeTxt, 120, (encodeTxt siteTxt).toOption.getD [], true⟩]

def sitePayload : Bytes := (encodeResponse siteRecords 7 []).toOption.getD []

theorem toOption_getD_of_ok {x : Except EncodeError Bytes} {out : Bytes} (ok : x = .ok out) :
    x.toOption.getD [] = out := by
  rw [ok]
  rfl

theorem siteRecords_encodable : ∀ r ∈ siteRecords, r.Encodable := by
  have each : ∀ r ∈ siteRecords, Encodable r.name ∧ r.rtype < 2 ^ 16 ∧ r.ttl < 2 ^ 32 ∧
      r.rdata.length < 2 ^ 16 := by decide +kernel
  intro r listed
  obtain ⟨name, rtype, ttl, rdata⟩ := each r listed
  exact ⟨name, rtype, ttl, rdata⟩

/-- The answer names the instance, and describes it where its source can be connected to. -/
theorem decodeReply_site (source : Host) : ∃ message,
    decodeReply [7] ⟨sitePayload, source⟩ = some (message, source) ∧
      namedIn siteService message = [siteName] ∧
      (serverFromRecords id message siteName "mdns" (some source)).isSome =
        (usableHost (some source)).isSome := by
  obtain ⟨answers, encoded⟩ := encodeAll_of_each fun r listed =>
    encodeRecord_of_encodable false (siteRecords_encodable r listed)
  have whole : encodeResponse siteRecords 7 [] = .ok _ :=
    encodeResponse_of_sections (by decide) (by decide) (by decide) rfl encoded
  obtain ⟨message, decoded, ident, reads⟩ :=
    decodeMessage_of_sections (by decide) (by decide) (by decide) (by decide) rfl encoded
      (toOption_getD_of_ok whole)
  have reply : decodeReply [7] ⟨sitePayload, source⟩ = some (message, source) := by
    rw [decodeReply, sitePayload, decoded]
    exact if_pos (by rw [ident]; exact List.mem_singleton_self 7)
  obtain ⟨named, nameEncoded⟩ : ∃ out, encodeName siteName = .ok out :=
    encodeName_of_encodable (by decide +kernel)
  obtain ⟨txt, txtEncoded, txtDecoded⟩ :
      ∃ rdata, encodeTxt siteTxt = .ok rdata ∧ decodeTxt id rdata = .ok siteTxt := by
    have keys : ∀ key ∈ siteTxt.keys, key ≠ "" ∧ '=' ∉ key.toList := by decide
    exact encodeTxt_decodeTxt (fun key listed => ⟨(keys key listed).1, (keys key listed).2, rfl⟩)
      (by decide +kernel)
  obtain ⟨srv, srvEncoded⟩ : ∃ out, encodeSrv 443 [utf8 "site"] = .ok out := by
    obtain ⟨target, targetEncoded⟩ : ∃ out, encodeName [utf8 "site"] = .ok out :=
      encodeName_of_encodable (by decide)
    exact ⟨_, by rw [encodeSrv, targetEncoded]; rfl⟩
  rw [siteRecords, toOption_getD_of_ok nameEncoded, toOption_getD_of_ok srvEncoded,
    toOption_getD_of_ok txtEncoded] at reads
  obtain ⟨ptr, _, ptrReads, later, records⟩ := List.forall₂_cons_right_iff.mp reads
  obtain ⟨srv', _, srvReads, last, rfl⟩ := List.forall₂_cons_right_iff.mp later
  obtain ⟨txt', _, txtReads, rest, rfl⟩ := List.forall₂_cons_right_iff.mp last
  rw [List.forall₂_nil_right_iff.mp rest] at records
  refine ⟨message, reply, ?_, ?_⟩
  · simp [namedIn, records, ptrReads.rtype, srvReads.rtype, txtReads.rtype, ptrReads.name,
      typePtr, typeSrv, typeTxt, ptrReads.ptr _ nameEncoded, Except.toOption]
  · have srvFirst : first message siteName typeSrv = some srv' := by
      simp [first, records, ptrReads.rtype, srvReads.rtype, srvReads.name, typePtr, typeSrv]
    have txtFirst : first message siteName typeTxt = some txt' := by
      simp [first, records, ptrReads.rtype, srvReads.rtype, txtReads.rtype, txtReads.name, typePtr,
        typeSrv, typeTxt]
    have address (target : Name) : addressFor message target = none := by
      simp [addressFor, records, ptrReads.rtype, srvReads.rtype, txtReads.rtype, typePtr, typeSrv,
        typeTxt, typeA, typeAaaa]
    have port : usablePort siteTxt = some 443 := by decide +kernel
    simp [serverFromRecords, srvFirst, txtFirst, srvReads.srv _ _ srvEncoded, txtReads.rdata,
      txtDecoded, port, address, Except.toOption]
    cases usableHost (some source) <;> rfl

theorem namesIn_site (source : Host) :
    namesIn siteService 7 ⟨sitePayload, source⟩ = [fold siteName] := by
  obtain ⟨message, reply, named, -⟩ := decodeReply_site source
  simp [namesIn, reply, named]

theorem names_site (source : Host) :
    names siteService 7 (fold siteName) ⟨sitePayload, source⟩ = true := by
  obtain ⟨message, reply, named, -⟩ := decodeReply_site source
  simp [names, reply, named]

theorem offers_site (source : Host) :
    offers id siteService "mdns" 7 (fold siteName) ⟨sitePayload, source⟩ =
      (usableHost (some source)).isSome := by
  obtain ⟨message, reply, named, described⟩ := decodeReply_site source
  simp [offers, reply, named, described]

/-- The answer from a link-local address, and from another of the same server. -/
def siteReplies : List Reply :=
  [⟨sitePayload, .literal (.v6 0xFE800000000000000000000000000001)⟩,
    ⟨sitePayload, .literal (.v4 0xC0A80001)⟩]

theorem siteReplies_few :
    (siteReplies.flatMap (namesIn siteService 7)).toFinset.card ≤ maxInstances := by
  simp [siteReplies, namesIn_site, maxInstances]

/-- The second reply offers the instance, and `discover` reports it in the other order only. -/
theorem site_lost : (siteReplies.flatMap (namesIn siteService 7)).toFinset.card ≤ maxInstances ∧
    (¬ ∀ key, Reported id ⟨"mdns", utf8 "local"⟩ none 3 7 [] siteReplies key ↔
      ∃ reply ∈ siteReplies, offers id siteService "mdns" 7 key reply = true) ∧
    ¬ ∀ other, other.Perm siteReplies → ∀ key,
      Reported id ⟨"mdns", utf8 "local"⟩ none 3 7 [] other key ↔
        Reported id ⟨"mdns", utf8 "local"⟩ none 3 7 [] siteReplies key := by
  have lost : ¬ Reported id ⟨"mdns", utf8 "local"⟩ none 3 7 [] siteReplies (fold siteName) := by
    rw [reported_iff siteReplies_few]
    rintro ⟨reply, found, offered⟩
    have first : siteReplies.find? (names siteService 7 (fold siteName)) =
        some ⟨sitePayload, .literal (.v6 0xFE800000000000000000000000000001)⟩ :=
      List.find?_cons_of_pos (names_site _)
    rw [← Option.some.inj (first.symm.trans found)] at offered
    exact absurd ((offers_site _).symm.trans offered) (by decide)
  have second : offers id siteService "mdns" 7 (fold siteName)
      ⟨sitePayload, .literal (.v4 0xC0A80001)⟩ = true := by
    rw [offers_site]
    decide
  refine ⟨siteReplies_few, fun whole => lost ((whole _).mpr ⟨_, ?_, second⟩), fun same => ?_⟩
  · exact List.mem_cons_of_mem _ (List.mem_singleton_self _)
  · refine lost ((same siteReplies.reverse siteReplies.reverse_perm _).mp ?_)
    have few : (siteReplies.reverse.flatMap (namesIn siteService 7)).toFinset.card ≤
        maxInstances := by
      simp [siteReplies, namesIn_site, maxInstances]
    refine (reported_iff few _).mpr ⟨_, ?_, second⟩
    exact List.find?_cons_of_pos (names_site _)

theorem discovers_site :
    let reported := Reported id ⟨"mdns", utf8 "local"⟩ none 3 7 []
    let named := names siteService 7
    let offered := offers id siteService "mdns" 7
    ((∀ key, reported siteReplies key ↔ ∃ reply ∈ siteReplies, offered key reply = true) ↔
      ∀ key reply, siteReplies.find? (named key) = some reply →
        (∃ other ∈ siteReplies, offered key other = true) → offered key reply = true) ∧
    (((∀ key, reported siteReplies key ↔ ∃ reply ∈ siteReplies, offered key reply = true) ∧
        ∀ other, other.Perm siteReplies → ∀ key, reported other key ↔ reported siteReplies key) ↔
      ∀ key, ∀ reply ∈ siteReplies, ∀ other ∈ siteReplies, offered key reply = true →
        named key other = true → offered key other = true) :=
  discovers_offered_iff id ⟨"mdns", utf8 "local"⟩ none 3 7 [] siteReplies siteReplies_few

end Py20305.Dnssd
