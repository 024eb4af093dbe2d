import JsWaku.Enr.Setters
import JsWaku.Runtime.Text

/-!
# Location multiaddrs

`setLocationMultiaddr` of `packages/enr/src/enr.ts`, and `getLocationMultiaddr` with `get_multiaddr.ts` and
`multiaddr_from_fields.ts`. A multiaddr is given by its `tuples()`.

The setter rejects an address only if it is wrong in both its length and its second protocol, so that it accepts many that
the getter cannot rebuild. What was set is found again iff it is an IP address and a UDP or TCP port, and no more
(`getLocation_setLocation_iff`).
-/

namespace JsWaku.Enr

/-! ## Imports -/

/-- A component of a multiaddr: the code of its protocol, and its value. -/
structure Tuple where
  code : ℕ
  value : Option Bytes
  deriving DecidableEq, Repr

/-- The functions of `@multiformats/multiaddr`. -/
structure Multiformats where
  /-- the name of a protocol, `getProtocol(code).name` -/
  name : ℕ → String
  /-- `convertToString(proto, value)` -/
  convertToString : String → ENRValue → Except JsError String
  /-- `multiaddr(text)` -/
  multiaddr : String → Except JsError (List Tuple)
  /-- `ma.encapsulate(addr)` -/
  encapsulate : List Tuple → List Tuple → Except JsError (List Tuple)

/-- The names of the IP protocols. -/
def ipNames : List String := ["ip4", "ip6"]

/-- The names of the transport protocols. -/
def transportNames : List String := ["udp", "tcp"]

namespace Multiformats

variable (lib : Multiformats)

/-- What the package relies on. -/
structure Lawful : Prop where
  /-- The code of `ip4`. -/
  name_eq_ip4 : ∀ code, lib.name code = "ip4" ↔ code = 4
  /-- The text of an address or a port makes one component of its protocol. -/
  single : ∀ {proto}, proto ∈ ipNames ++ transportNames → ∀ {value text tuples},
    lib.convertToString proto value = .ok text → lib.multiaddr ("/" ++ proto ++ "/" ++ text) = .ok tuples →
    ∃ tuple, tuples = [tuple] ∧ lib.name tuple.code = proto
  /-- An address encapsulates a port. -/
  encapsulate : ∀ {ipText portText ip port}, lib.multiaddr ipText = .ok [ip] → lib.multiaddr portText = .ok [port] →
    lib.name ip.code ∈ ipNames → lib.name port.code ∈ transportNames → lib.encapsulate [ip] [port] = .ok [ip, port]

/-- Converting a value to a string and parsing it back gives the same component. -/
def ConvertsBack (tuple : Tuple) : Prop :=
  ∀ value, tuple.value = some value → ∃ text, lib.convertToString (lib.name tuple.code) (.bytes value) = .ok text ∧
    lib.multiaddr ("/" ++ lib.name tuple.code ++ "/" ++ text) = .ok [tuple]

end Multiformats

variable (lib : Multiformats)

/-! ## Getter -/

/-- `multiaddrFromFields`. -/
def multiaddrFromFields (ipFamily protocol : String) (ipBytes protocolBytes : ENRValue) :
    Except JsError (List Tuple) := do
  let ipText ← lib.convertToString ipFamily ipBytes
  let ma ← lib.multiaddr ("/" ++ ipFamily ++ "/" ++ ipText)
  let protocolText ← lib.convertToString protocol protocolBytes
  let addr ← lib.multiaddr ("/" ++ protocol ++ "/" ++ protocolText)
  lib.encapsulate ma addr

namespace ENR

/-- `locationMultiaddrFromEnrFields` after the first `switch`. -/
def locationMultiaddrPerIpVersion (enr : ENR) (protocol : String) : Except JsError (Option (List Tuple)) :=
  let isIpv6 := Text.endsWith protocol "6"
  match enr.kvs.get (if isIpv6 then "ip6" else "ip") with
  | none => return none
  | some ipVal =>
    let protoName := Text.sliceTo protocol 3
    let protoVal :=
      if protoName = "udp" then enr.kvs.get (if isIpv6 then "udp6" else "udp")
      else if protoName = "tcp" then enr.kvs.get (if isIpv6 then "tcp6" else "tcp")
      else none
    match protoVal with
    | none => return none
    | some protoVal => some <$> multiaddrFromFields lib (if isIpv6 then "ip6" else "ip4") protoName ipVal protoVal

/-- `locationMultiaddrFromEnrFields(enr, first) || locationMultiaddrFromEnrFields(enr, second)`. -/
def locationMultiaddrOr (enr : ENR) (first second : String) : Except JsError (Option (List Tuple)) := do
  match ← enr.locationMultiaddrPerIpVersion lib first with
  | some ma => return some ma
  | none => enr.locationMultiaddrPerIpVersion lib second

/-- `getLocationMultiaddr`, which is `locationMultiaddrFromEnrFields`. -/
def getLocationMultiaddr (enr : ENR) (protocol : String) : Except JsError (Option (List Tuple)) :=
  if protocol = "udp" then enr.locationMultiaddrOr lib "udp4" "udp6"
  else if protocol = "tcp" then enr.locationMultiaddrOr lib "tcp4" "tcp6"
  else enr.locationMultiaddrPerIpVersion lib protocol

/-! ## Setter -/

/-- `setLocationMultiaddr`. An address of fewer than two components does not come past the first check. -/
def setLocationMultiaddr (enr : ENR) (multiaddr : List Tuple) : Except JsError ENR :=
  let protoNames := multiaddr.map fun tuple => lib.name tuple.code
  if protoNames.length ≠ 2 ∧ protoNames[1]? ≠ some "udp" ∧ protoNames[1]? ≠ some "tcp" then
    throw (.error "Invalid multiaddr")
  else
    match multiaddr with
    | ⟨code, some address⟩ :: ⟨protocol, some port⟩ :: _ =>
      -- IPv4
      if code = 4 then return (enr.set "ip" (.bytes address)).set (lib.name protocol) (.bytes port)
      else return (enr.set "ip6" (.bytes address)).set (lib.name protocol ++ "6") (.bytes port)
    | _ => throw (.error "Invalid multiaddr")

end ENR

/-! ## Keys -/

/-- The key under which the address is set. -/
def addressKey (ip : Tuple) : String := if ip.code = 4 then "ip" else "ip6"

/-- The key under which the port is set. -/
def portKey (ip port : Tuple) : String := if ip.code = 4 then lib.name port.code else lib.name port.code ++ "6"

/-- The protocol by which the address is looked up. -/
def locationProtocol (ip port : Tuple) : String := lib.name port.code ++ if ip.code = 4 then "4" else "6"

variable {lib} {enr enr' : ENR}

theorem ite_throw_eq_ok {α : Type} {p : Prop} [Decidable p] {e : JsError} {x : Except JsError α} {a : α} :
    (if p then throw e else x) = .ok a ↔ ¬p ∧ x = .ok a := by
  split
  · next hp => exact iff_of_false (fun h => by cases h) fun h => h.1 hp
  · next hp => exact ⟨fun h => ⟨hp, h⟩, fun h => h.2⟩

/-- What an accepted address sets. -/
theorem ENR.setLocationMultiaddr_eq_ok {ma : List Tuple} (h : enr.setLocationMultiaddr lib ma = .ok enr') :
    ∃ ip port rest address number, ma = ip :: port :: rest ∧ ip.value = some address ∧ port.value = some number ∧
      enr' = (enr.set (addressKey ip) (.bytes address)).set (portKey lib ip port) (.bytes number) := by
  unfold setLocationMultiaddr at h
  obtain ⟨-, h⟩ := ite_throw_eq_ok.1 h
  split at h
  · next code address protocol number rest _ =>
    refine ⟨_, _, rest, address, number, rfl, rfl, rfl, ?_⟩
    rw [addressKey, portKey]
    by_cases hcode : code = 4
    · simp only [if_pos hcode] at h ⊢
      exact (Except.ok.inj h).symm
    · simp only [if_neg hcode] at h ⊢
      exact (Except.ok.inj h).symm
  · cases h

/-- The keys of the address and of the port are the ones that change. -/
theorem ENR.get_set_set_ne {k k' key : String} (v v' : ENRValue) (hk : key ≠ k) (hk' : key ≠ k') :
    ((enr.set k v).set k' v').kvs.get key = enr.kvs.get key := by
  show ((enr.kvs.set k v).set k' v').get key = _
  rw [Map.get_set_ne _ _ hk', Map.get_set_ne _ _ hk]

/-- Both are found afterwards. -/
theorem ENR.get_set_set (enr : ENR) {k k' : String} (v v' : ENRValue) (h : k ≠ k') :
    ((enr.set k v).set k' v').kvs.get k = some v ∧ ((enr.set k v).set k' v').kvs.get k' = some v' := by
  constructor
  · show ((enr.kvs.set k v).set k' v').get k = _
    rw [Map.get_set_ne _ _ h, Map.get_set_self]
  · exact Map.get_set_self _ _ _

/-- The keys of an address and a port are different. -/
theorem keys_ne : ∀ protoName ∈ transportNames, "ip" ≠ protoName ∧ "ip6" ≠ protoName ++ "6" := by decide

/-! ## What the getter builds -/

/-- Fields make an address and a port. -/
theorem multiaddrFromFields_eq_ok (hlib : lib.Lawful) {ipFamily protocol : String} {ipBytes protocolBytes : ENRValue}
    {ma : List Tuple} (hip : ipFamily ∈ ipNames) (hprotocol : protocol ∈ transportNames)
    (h : multiaddrFromFields lib ipFamily protocol ipBytes protocolBytes = .ok ma) :
    ∃ ip port, ma = [ip, port] ∧ lib.name ip.code = ipFamily ∧ lib.name port.code = protocol := by
  obtain ⟨ipText, hipText, h⟩ := bind_eq_ok.1 h
  obtain ⟨ips, hips, h⟩ := bind_eq_ok.1 h
  obtain ⟨portText, hportText, h⟩ := bind_eq_ok.1 h
  obtain ⟨ports, hports, h⟩ := bind_eq_ok.1 h
  obtain ⟨ip, rfl, hipName⟩ := hlib.single (List.mem_append_left _ hip) hipText hips
  obtain ⟨port, rfl, hportName⟩ := hlib.single (List.mem_append_right _ hprotocol) hportText hports
  have hcapsule := hlib.encapsulate hips hports (by rwa [hipName]) (by rwa [hportName])
  rw [hcapsule] at h
  exact ⟨ip, port, (Except.ok.inj h).symm, hipName, hportName⟩

/-- Components that convert back are rebuilt. -/
theorem multiaddrFromFields_eq (hlib : lib.Lawful) {ip port : Tuple} {address number : Bytes}
    (hip : lib.name ip.code ∈ ipNames) (hport : lib.name port.code ∈ transportNames) (hipBack : lib.ConvertsBack ip)
    (hportBack : lib.ConvertsBack port) (haddress : ip.value = some address) (hnumber : port.value = some number) :
    multiaddrFromFields lib (lib.name ip.code) (lib.name port.code) (.bytes address) (.bytes number) =
      .ok [ip, port] := by
  obtain ⟨ipText, hipText, hips⟩ := hipBack address haddress
  obtain ⟨portText, hportText, hports⟩ := hportBack number hnumber
  rw [multiaddrFromFields]
  simp only [hipText, hips, hportText, hports, ok_bind]
  exact hlib.encapsulate hips hports hip hport

namespace ENR

/-- Whatever it is asked for, the getter returns nothing but an address and a port. -/
theorem locationMultiaddrPerIpVersion_eq_ok (hlib : lib.Lawful) {protocol : String} {ma : List Tuple}
    (h : enr.locationMultiaddrPerIpVersion lib protocol = .ok (some ma)) :
    ∃ ip port, ma = [ip, port] ∧ lib.name ip.code ∈ ipNames ∧ lib.name port.code ∈ transportNames := by
  rw [locationMultiaddrPerIpVersion] at h
  dsimp only at h
  split at h
  · cases h
  · next ipVal _ =>
    split at h
    · cases h
    · next protoVal hprotoVal =>
      have hprotocol : Text.sliceTo protocol 3 ∈ transportNames := by
        by_contra hother
        simp only [transportNames, List.mem_cons, List.not_mem_nil, or_false, not_or] at hother
        rw [if_neg hother.1, if_neg hother.2] at hprotoVal
        cases hprotoVal
      have hip : (if Text.endsWith protocol "6" then "ip6" else "ip4") ∈ ipNames := by split <;> decide
      cases hma : multiaddrFromFields lib _ (Text.sliceTo protocol 3) ipVal protoVal with
      | error e =>
        rw [hma] at h
        cases h
      | ok found =>
        rw [hma] at h
        cases h
        obtain ⟨ip, port, rfl, hipName, hportName⟩ := multiaddrFromFields_eq_ok hlib hip hprotocol hma
        exact ⟨ip, port, rfl, by rwa [hipName], by rwa [hportName]⟩

theorem getLocationMultiaddr_eq_ok (hlib : lib.Lawful) {protocol : String} {ma : List Tuple}
    (h : enr.getLocationMultiaddr lib protocol = .ok (some ma)) :
    ∃ ip port, ma = [ip, port] ∧ lib.name ip.code ∈ ipNames ∧ lib.name port.code ∈ transportNames := by
  have hor : ∀ {first second}, enr.locationMultiaddrOr lib first second = .ok (some ma) →
      ∃ ip port, ma = [ip, port] ∧ lib.name ip.code ∈ ipNames ∧ lib.name port.code ∈ transportNames := by
    intro first second h
    obtain ⟨found, hfound, h⟩ := bind_eq_ok.1 h
    cases found with
    | some found =>
      cases h
      exact locationMultiaddrPerIpVersion_eq_ok hlib hfound
    | none => exact locationMultiaddrPerIpVersion_eq_ok hlib h
  rw [getLocationMultiaddr] at h
  split at h
  · exact hor h
  · split at h
    · exact hor h
    · exact locationMultiaddrPerIpVersion_eq_ok hlib h

/-- The names that the enumeration has for a version of IP. -/
theorem protocolName_parts : ∀ protoName ∈ transportNames, ∀ isIpv6 : Bool,
    (protoName ++ if isIpv6 then "6" else "4") ≠ "udp" ∧ (protoName ++ if isIpv6 then "6" else "4") ≠ "tcp" ∧
      Text.endsWith (protoName ++ if isIpv6 then "6" else "4") "6" = isIpv6 ∧
      Text.sliceTo (protoName ++ if isIpv6 then "6" else "4") 3 = protoName := by
  decide

/-- What is found under the protocol of a version of IP, if both fields are there. -/
theorem getLocationMultiaddr_eq {ipVal protoVal : ENRValue} {protoName : String} (isIpv6 : Bool)
    (hprotocol : protoName ∈ transportNames) (hip : enr.kvs.get (if isIpv6 then "ip6" else "ip") = some ipVal)
    (hport : enr.kvs.get (if isIpv6 then protoName ++ "6" else protoName) = some protoVal) :
    enr.getLocationMultiaddr lib (protoName ++ if isIpv6 then "6" else "4") =
      some <$> multiaddrFromFields lib (if isIpv6 then "ip6" else "ip4") protoName ipVal protoVal := by
  obtain ⟨hudp, htcp, hends, hslice⟩ := protocolName_parts protoName hprotocol isIpv6
  rw [getLocationMultiaddr, if_neg hudp, if_neg htcp, locationMultiaddrPerIpVersion]
  simp only [hends, hslice, hip]
  simp only [transportNames, List.mem_cons, List.not_mem_nil, or_false] at hprotocol
  rcases hprotocol with rfl | rfl
  · have hkey : "udp" ++ "6" = "udp6" := by decide
    rw [hkey] at hport
    rw [if_pos rfl, hport]
  · have hkey : "tcp" ++ "6" = "tcp6" := by decide
    rw [hkey] at hport
    rw [if_neg (by decide), if_pos rfl, hport]

end ENR

/-! ## Round trip -/

/-- **The location comes back** iff it is an address of IP with a port of UDP or TCP, and nothing else. -/
theorem getLocation_setLocation_iff (hlib : lib.Lawful) {ma : List Tuple} (hback : ∀ tuple ∈ ma, lib.ConvertsBack tuple)
    (hset : enr.setLocationMultiaddr lib ma = .ok enr') :
    (∃ ip port rest, ma = ip :: port :: rest ∧
        enr'.getLocationMultiaddr lib (locationProtocol lib ip port) = .ok (some ma) ∧
        ∀ key, key ≠ addressKey ip → key ≠ portKey lib ip port → enr'.kvs.get key = enr.kvs.get key) ↔
      ∃ ip port, ma = [ip, port] ∧ lib.name ip.code ∈ ipNames ∧ lib.name port.code ∈ transportNames := by
  obtain ⟨ip, port, rest, address, number, rfl, haddress, hnumber, rfl⟩ := ENR.setLocationMultiaddr_eq_ok hset
  constructor
  · rintro ⟨ip', port', rest', -, hget, -⟩
    exact ENR.getLocationMultiaddr_eq_ok hlib hget
  · rintro ⟨ip', port', hma, hip, hport⟩
    cases hma
    refine ⟨ip, port, [], rfl, ?_, fun key => ENR.get_set_set_ne _ _⟩
    have hfields := multiaddrFromFields_eq hlib hip hport (hback ip (by simp)) (hback port (by simp)) haddress hnumber
    obtain ⟨hne, hne6⟩ := keys_ne _ hport
    by_cases hip4 : ip.code = 4
    · obtain ⟨haddressVal, hportVal⟩ := ENR.get_set_set enr (.bytes address) (.bytes number) hne
      rw [(hlib.name_eq_ip4 ip.code).2 hip4] at hfields
      rw [addressKey, portKey, locationProtocol, if_pos hip4, if_pos hip4, if_pos hip4]
      exact (ENR.getLocationMultiaddr_eq false hport haddressVal hportVal).trans (congrArg _ hfields)
    · obtain ⟨haddressVal, hportVal⟩ := ENR.get_set_set enr (.bytes address) (.bytes number) hne6
      have hip6 : lib.name ip.code = "ip6" := by
        have hip4' := (hlib.name_eq_ip4 ip.code).not.2 hip4
        simpa [ipNames, hip4'] using hip
      rw [hip6] at hfields
      rw [addressKey, portKey, locationProtocol, if_neg hip4, if_neg hip4, if_neg hip4]
      exact (ENR.getLocationMultiaddr_eq true hport haddressVal hportVal).trans (congrArg _ hfields)

/-- The names of four codes. -/
def sampleName (code : ℕ) : String :=
  if code = 4 then "ip4" else if code = 6 then "tcp" else if code = 41 then "ip6" else if code = 478 then "wss" else ""

/-- The functions of the library on `/ip4/127.0.0.1` and `/tcp/443`. -/
def sampleLib : Multiformats where
  name := sampleName
  convertToString
    | proto, .bytes bytes =>
      if proto = "ip4" ∧ bytes = [127, 0, 0, 1] then .ok "127.0.0.1"
      else if proto = "tcp" ∧ bytes = [1, 187] then .ok "443"
      else .error (.error "")
    | _, .list _ => .error .typeError
  multiaddr text :=
    if text = "/ip4/127.0.0.1" then .ok [⟨4, some [127, 0, 0, 1]⟩]
    else if text = "/tcp/443" then .ok [⟨6, some [1, 187]⟩]
    else .error (.error "")
  encapsulate ma addr := .ok (ma ++ addr)

theorem lawful_sampleLib : sampleLib.Lawful where
  name_eq_ip4 code := by
    show sampleName code = "ip4" ↔ code = 4
    unfold sampleName
    by_cases h4 : code = 4
    · simp [h4]
    · rw [if_neg h4]
      refine iff_of_false (fun h => ?_) h4
      split at h
      · exact absurd h (by decide)
      · split at h
        · exact absurd h (by decide)
        · split at h <;> exact absurd h (by decide)
  single := by
    intro proto _ value text tuples htext hparse
    cases value with
    | list values => cases htext
    | bytes bytes =>
      simp only [sampleLib] at htext
      split at htext
      · next h =>
        cases htext
        rw [h.1] at hparse ⊢
        cases hparse
        exact ⟨_, rfl, rfl⟩
      · split at htext
        · next h =>
          cases htext
          rw [h.1] at hparse ⊢
          cases hparse
          exact ⟨_, rfl, rfl⟩
        · cases htext
  encapsulate _ _ _ _ := rfl

/-- `/ip4/127.0.0.1/tcp/443`. -/
def sampleLocation : List Tuple := [⟨4, some [127, 0, 0, 1]⟩, ⟨6, some [1, 187]⟩]

theorem convertsBack_sampleLocation : ∀ tuple ∈ sampleLocation, sampleLib.ConvertsBack tuple := by
  intro tuple hmem value hvalue
  simp only [sampleLocation, List.mem_cons, List.not_mem_nil, or_false] at hmem
  rcases hmem with rfl | rfl
  · cases hvalue
    exact ⟨"127.0.0.1", rfl, rfl⟩
  · cases hvalue
    exact ⟨"443", rfl, rfl⟩

/-- A record without entries. -/
def emptyEnr : ENR := ⟨⟨Map.empty, 1, none⟩, none⟩

/-- This location comes back. -/
theorem getLocation_setLocation_iff_sample : ∃ enr', emptyEnr.setLocationMultiaddr sampleLib sampleLocation = .ok enr' ∧
    enr'.getLocationMultiaddr sampleLib "tcp4" = .ok (some sampleLocation) := by
  refine ⟨_, rfl, ?_⟩
  obtain ⟨ip, port, rest, hma, hget, -⟩ := (@getLocation_setLocation_iff sampleLib emptyEnr _
    lawful_sampleLib _ convertsBack_sampleLocation rfl).2 ⟨_, _, rfl, by decide, by decide⟩
  cases hma
  exact hget

/-- `/ip4/127.0.0.1/tcp/443/wss`. -/
def wssLocation : List Tuple := sampleLocation ++ [⟨478, none⟩]

/-- A secure websocket is accepted, and comes back without it. -/
theorem not_getLocation_setLocation : (∀ tuple ∈ wssLocation, sampleLib.ConvertsBack tuple) ∧
    ∃ enr', emptyEnr.setLocationMultiaddr sampleLib wssLocation = .ok enr' ∧
      enr'.getLocationMultiaddr sampleLib "tcp4" ≠ .ok (some wssLocation) := by
  refine ⟨?_, _, rfl, fun h => ?_⟩
  · intro tuple hmem
    rcases List.mem_append.1 hmem with hmem | hmem
    · exact convertsBack_sampleLocation tuple hmem
    · cases List.mem_singleton.1 hmem
      exact fun value hvalue => by cases hvalue
  · obtain ⟨ip, port, hma, -⟩ := ENR.getLocationMultiaddr_eq_ok lawful_sampleLib h
    have hlength : wssLocation.length = 2 := congrArg List.length hma
    exact absurd hlength (by decide)

end JsWaku.Enr
