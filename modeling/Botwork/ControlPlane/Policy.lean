import Botwork.ControlPlane.Sessions

/-!
# Egress policies as envoy RBAC rules

The compiler from session records to the RBAC filter of the egress listener, the
filter's verdict on a request, and what an egress policy declares in terms of
its JSON shape alone.  `permissionsForEgress_matches` relates the two for one policy
and `buildRbac_allows` for every list of records with distinct ids.

## Main definitions

- `permissionsForEgress`, `buildRbacPolicies`, `buildRbac` — the compiler
- `Rbac.allows` — the filter's verdict
- `Declares` — the destinations an egress policy declares
-/

namespace Botwork.ControlPlane

open Botwork.Foundations

-- ════════════════════════════════════════════════════════════════════════
-- Addresses
-- ════════════════════════════════════════════════════════════════════════

namespace Ipv4Addr

/-- Dotted-quad notation. -/
def toString (ip : Ipv4Addr) : String := s!"{ip.a.val}.{ip.b.val}.{ip.c.val}.{ip.d.val}"

/-- The address as a 32-bit number, the first octet on top. -/
def toBits (ip : Ipv4Addr) : Nat :=
  ((ip.a.val * 256 + ip.b.val) * 256 + ip.c.val) * 256 + ip.d.val

theorem parseOctet_toString (n : Fin 256) :
    parseOctet (ToString.toString n.val).toList = some n := by
  rw [show (ToString.toString n.val).toList = Nat.toDigits 10 n.val from Nat.toList_repr]
  have hne : Nat.toDigits 10 n.val ≠ [] := Nat.toDigits_ne_nil
  have hlength : (Nat.toDigits 10 n.val).length ≤ 3 :=
    (Nat.length_toDigits_le_iff (by decide) (by decide)).mpr (by omega)
  have hzero : (Nat.toDigits 10 n.val).length ≤ 1 ∨ (Nat.toDigits 10 n.val).head? ≠ some '0' := by
    have hall : ∀ n < 256,
        (Nat.toDigits 10 n).length ≤ 1 ∨ (Nat.toDigits 10 n).head? ≠ some '0' := by
      decide +kernel
    exact hall n.val n.isLt
  have hdigits : (Nat.toDigits 10 n.val).all Char.isDigit = true :=
    List.all_eq_true.mpr fun _ hc => Nat.isDigit_of_mem_toDigits (by decide) (by decide) hc
  have hguard : (decide (1 < (Nat.toDigits 10 n.val).length) &&
      (Nat.toDigits 10 n.val).head? == some '0') = false := by
    obtain hone | hhead := hzero
    · simp [Nat.not_lt.mpr hone]
    · simp [hhead]
  simp [parseOctet, hne, hguard, hdigits, Nat.not_lt.mpr hlength, Nat.ofDigitChars_ten_toDigits]

theorem dot_notMem_toString (n : Fin 256) : '.' ∉ (ToString.toString n.val).toList := by
  intro hdot
  rw [show (ToString.toString n.val).toList = Nat.toDigits 10 n.val from Nat.toList_repr] at hdot
  exact absurd (Nat.isDigit_of_mem_toDigits (by decide) (by decide) hdot) (by decide)

theorem parse_toString (ip : Ipv4Addr) : parse ip.toString = some ip := by
  have hsplit : ip.toString.toList.splitOn '.' =
      [ip.a, ip.b, ip.c, ip.d].map fun n => (ToString.toString n.val).toList := by
    have hdots : ∀ octet ∈ [ip.a, ip.b, ip.c, ip.d].map fun n => (ToString.toString n.val).toList,
        '.' ∉ octet := by
      intro octet hoctet
      obtain ⟨n, -, rfl⟩ := List.mem_map.mp hoctet
      exact dot_notMem_toString n
    rw [← List.splitOn_intercalate '.' hdots (by simp)]
    have hdot : (ToString.toString ".").toList = ['.'] := rfl
    simp [toString, hdot, List.intercalate]
  simp only [parse, hsplit, List.map_cons, List.map_nil, parseOctet_toString]
  rfl

theorem toBits_injective {ip other : Ipv4Addr} (h : ip.toBits = other.toBits) : ip = other := by
  obtain ⟨a, b, c, d⟩ := ip
  obtain ⟨a', b', c', d'⟩ := other
  simp only [toBits] at h
  have ha : a = a' := by omega
  have hb : b = b' := by omega
  have hc : c = c' := by omega
  have hd : d = d' := by omega
  rw [ha, hb, hc, hd]

end Ipv4Addr

-- ════════════════════════════════════════════════════════════════════════
-- RBAC rules
-- ════════════════════════════════════════════════════════════════════════

/-- An exact match of one request header. -/
structure HeaderMatcher where
  name : String
  exact : String
  deriving DecidableEq, Repr

/-- The two permission rules the compiler emits. -/
inductive Permission where
  | any (value : Bool)
  | header (matcher : HeaderMatcher)
  deriving DecidableEq, Repr

structure CidrRange where
  addressPrefix : String
  prefixLen : Nat
  deriving DecidableEq, Repr

/-- The one principal identifier the compiler emits. -/
inductive Principal where
  | directRemoteIp (range : CidrRange)
  deriving DecidableEq, Repr

structure Policy where
  permissions : List Permission
  principals : List Principal
  deriving DecidableEq, Repr

/-- What the filter looks at: the peer address and the `:authority` header. -/
structure Request where
  remoteIp : Ipv4Addr
  authority : String
  deriving DecidableEq, Repr

/-- The header of a request the rules name; others never match here. -/
def HeaderMatcher.matches (matcher : HeaderMatcher) (request : Request) : Bool :=
  matcher.name == ":authority" && matcher.exact == request.authority

def Permission.matches (request : Request) : Permission → Bool
  | .any value => value
  | .header matcher => matcher.matches request

/-- An address lies in a range when both agree on the prefix; a prefix that is
    no address contains nothing. -/
def CidrRange.contains (range : CidrRange) (ip : Ipv4Addr) : Bool :=
  match Ipv4Addr.parse range.addressPrefix with
  | none => false
  | some base =>
    base.toBits >>> (32 - range.prefixLen) == ip.toBits >>> (32 - range.prefixLen)

def Principal.matches (request : Request) : Principal → Bool
  | .directRemoteIp range => range.contains request.remoteIp

/-- One of the principals and one of the permissions. -/
def Policy.matches (policy : Policy) (request : Request) : Bool :=
  policy.principals.any (Principal.matches request) &&
    policy.permissions.any (Permission.matches request)

inductive RbacAction where
  | allow
  | deny
  deriving DecidableEq, Repr

/-- The rules of the filter: an action and the policies by name. -/
structure Rbac where
  action : RbacAction
  policies : FiniteMap String Policy

/-- `ALLOW` lets a request pass when a policy matches, `DENY` when none does. -/
def Rbac.allows (rbac : Rbac) (request : Request) : Bool :=
  let hit := rbac.policies.values.any (·.matches request)
  match rbac.action with
  | .allow => hit
  | .deny => !hit

-- ════════════════════════════════════════════════════════════════════════
-- The compiler
-- ════════════════════════════════════════════════════════════════════════

/-- The mode keyword of either encoding: a bare string, or the `mode` of an
    object. -/
def egressMode (egress : Json) : Option String :=
  match egress.asStr with
  | some keyword => some keyword
  | none => (egress.get "mode").bind Json.asStr

def authorityHeaderMatch (host : String) (port : Nat) : Permission :=
  .header ⟨":authority", s!"{host}:{port}"⟩

def principalForIp (ip : Ipv4Addr) : Principal := .directRemoteIp ⟨ip.toString, 32⟩

/-- The permissions of one entry of an `allow` list; an entry without a host or
    a list of ports has none, and ports that are no integers are skipped. -/
def permissionsForEntry (entry : Json) : List Permission :=
  match (entry.get "host").bind Json.asStr with
  | none => []
  | some host =>
    match (entry.get "ports").bind Json.asArray with
    | none => []
    | some ports => ports.filterMap fun port => port.asU64.map (authorityHeaderMatch host)

/-- The permissions of an egress policy; `none` compiles to no policy. -/
def permissionsForEgress (egress : Json) : Option (List Permission) :=
  let mode := egressMode egress
  if mode = some "all" then some [.any true]
  else if mode = some "none" then none
  else
    match (egress.get "allow").bind Json.asArray with
    | some allow =>
      let perms := allow.flatMap permissionsForEntry
      if perms.isEmpty then none else some perms
    | none => none

def buildRbacPolicies (sessions : List SessionRecord) : FiniteMap String Policy :=
  FiniteMap.insertAll ∅ (sessions.filterMap fun record =>
    (permissionsForEgress record.egressPolicy).map fun permissions =>
      (s!"session_{record.sessionId}", ⟨permissions, [principalForIp record.containerIp]⟩))

/-- The rules of the listener compiled from a snapshot. -/
def buildRbac (sessions : List SessionRecord) : Rbac where
  action := .allow
  policies := buildRbacPolicies sessions

-- ════════════════════════════════════════════════════════════════════════
-- What an egress policy declares
-- ════════════════════════════════════════════════════════════════════════

/-- The policy is the mode keyword, bare or as the `mode` of an object. -/
def HasMode (egress : Json) (keyword : String) : Prop :=
  egress = .string keyword ∨
    ∃ members, egress = .object members ∧ Json.member? members "mode" = some (.string keyword)

/-- An entry names an authority: a host text and, among its ports, an unsigned
    integer that render to it. -/
def EntryNames (entry : Json) (authority : String) : Prop :=
  ∃ (members : List (String × Json)) (host : String) (ports : List Json) (port : Nat),
    entry = .object members ∧
    Json.member? members "host" = some (.string host) ∧
    Json.member? members "ports" = some (.array ports) ∧
    Json.number (.int port) ∈ ports ∧ port < 2 ^ 64 ∧ s!"{host}:{port}" = authority

/-- The policy is an object with an allow list one of whose entries names the
    authority. -/
def AllowNames (egress : Json) (authority : String) : Prop :=
  ∃ members items entry, egress = .object members ∧
    Json.member? members "allow" = some (.array items) ∧ entry ∈ items ∧
    EntryNames entry authority

/-- What a policy declares: everything, or an allow list.  The mode `none`
    withdraws the list of an object that carries both. -/
def Declares (egress : Json) (authority : String) : Prop :=
  HasMode egress "all" ∨ (¬ HasMode egress "none" ∧ AllowNames egress authority)

/-- What a policy declares when its allow list is read whatever its mode. -/
def DeclaresAnyMode (egress : Json) (authority : String) : Prop :=
  HasMode egress "all" ∨ AllowNames egress authority

/-- A record of `sessions` owns the peer address and declares the authority. -/
def DeclaredBy (declares : Json → String → Prop) (sessions : List SessionRecord)
    (request : Request) : Prop :=
  ∃ record ∈ sessions, record.containerIp = request.remoteIp ∧
    declares record.egressPolicy request.authority

-- ════════════════════════════════════════════════════════════════════════
-- The filter decides what is declared
-- ════════════════════════════════════════════════════════════════════════

theorem egressMode_eq_some {egress : Json} {keyword : String} :
    egressMode egress = some keyword ↔ HasMode egress keyword := by
  cases egress with
  | string s => simp [egressMode, HasMode, Json.asStr]
  | object members =>
    have hbare : (Json.object members).asStr = none := rfl
    simp only [egressMode, hbare, Json.get_asStr_eq_some, HasMode, reduceCtorEq, false_or]
  | null | bool | number | array => simp [egressMode, HasMode, Json.asStr, Json.get]

theorem authorityHeaderMatch_matches (host : String) (port : Nat) (request : Request) :
    (authorityHeaderMatch host port).matches request = true ↔
      s!"{host}:{port}" = request.authority := by
  rw [authorityHeaderMatch, Permission.matches, HeaderMatcher.matches, Bool.and_eq_true,
    beq_iff_eq, beq_iff_eq]
  exact and_iff_right rfl

theorem principalForIp_matches (ip : Ipv4Addr) (request : Request) :
    (principalForIp ip).matches request = true ↔ ip = request.remoteIp := by
  rw [principalForIp, Principal.matches, CidrRange.contains]
  simp only [Ipv4Addr.parse_toString, Nat.sub_self, Nat.shiftRight_zero, beq_iff_eq]
  exact ⟨Ipv4Addr.toBits_injective, congrArg Ipv4Addr.toBits⟩

theorem permissionsForEntry_matches (entry : Json) (request : Request) :
    (∃ permission ∈ permissionsForEntry entry, permission.matches request = true) ↔
      EntryNames entry request.authority := by
  constructor
  · rintro ⟨permission, hmem, hmatch⟩
    unfold permissionsForEntry at hmem
    split at hmem
    next => cases hmem
    next host hhost =>
      split at hmem
      next => cases hmem
      next ports hports =>
        obtain ⟨item, hitem, hport⟩ := List.mem_filterMap.mp hmem
        obtain ⟨port, hu64, rfl⟩ := Option.map_eq_some_iff.mp hport
        rw [Json.asU64_eq_some] at hu64
        obtain ⟨rfl, hlt⟩ := hu64
        obtain ⟨members, hentry, hhost⟩ := Json.get_asStr_eq_some.mp hhost
        obtain ⟨members', hentry', hports⟩ := Json.get_asArray_eq_some.mp hports
        obtain rfl : members = members' := Json.object.inj (hentry.symm.trans hentry')
        exact ⟨members, host, ports, port, hentry, hhost, hports, hitem, hlt,
          (authorityHeaderMatch_matches _ _ _).mp hmatch⟩
  · rintro ⟨members, host, ports, port, rfl, hhost, hports, hport, hlt, hauthority⟩
    refine ⟨authorityHeaderMatch host port, ?_, (authorityHeaderMatch_matches _ _ _).mpr hauthority⟩
    have hu64 : Json.asU64 (.number (.int port)) = some port :=
      Json.asU64_eq_some.mpr ⟨rfl, hlt⟩
    have hhost := Json.get_asStr_eq_some.mpr ⟨members, rfl, hhost⟩
    have hports := Json.get_asArray_eq_some.mpr ⟨members, rfl, hports⟩
    simp only [permissionsForEntry, hhost, hports]
    exact List.mem_filterMap.mpr ⟨_, hport, by rw [hu64]; rfl⟩

/-- **One policy**: the permissions it compiles to match exactly the requests
    it declares. -/
theorem permissionsForEgress_matches (egress : Json) (request : Request) :
    (∃ permissions, permissionsForEgress egress = some permissions ∧
        ∃ permission ∈ permissions, permission.matches request = true) ↔
      Declares egress request.authority := by
  unfold Declares permissionsForEgress
  rw [← egressMode_eq_some, ← egressMode_eq_some]
  by_cases hall : egressMode egress = some "all"
  · simp [hall, Permission.matches]
  by_cases hnone : egressMode egress = some "none"
  · simp [hnone]
  have hallow : AllowNames egress request.authority ↔
      ∃ items, (egress.get "allow").bind Json.asArray = some items ∧
        ∃ permission ∈ items.flatMap permissionsForEntry, permission.matches request = true := by
    constructor
    · rintro ⟨members, items, entry, rfl, hallow, hentry, hnames⟩
      obtain ⟨permission, hmem, hmatch⟩ := (permissionsForEntry_matches entry request).mpr hnames
      exact ⟨items, Json.get_asArray_eq_some.mpr ⟨members, rfl, hallow⟩, permission,
        List.mem_flatMap.mpr ⟨entry, hentry, hmem⟩, hmatch⟩
    · rintro ⟨items, hget, permission, hmem, hmatch⟩
      obtain ⟨members, rfl, hallow⟩ := Json.get_asArray_eq_some.mp hget
      obtain ⟨entry, hentry, hmem⟩ := List.mem_flatMap.mp hmem
      exact ⟨members, items, entry, rfl, hallow, hentry,
        (permissionsForEntry_matches entry request).mp ⟨permission, hmem, hmatch⟩⟩
  rw [hallow]
  simp only [hall, hnone, if_false, false_or, not_false_eq_true, true_and]
  cases hget : (egress.get "allow").bind Json.asArray with
  | none => simp
  | some items =>
    simp only [Option.some.injEq, exists_eq_left']
    cases items.flatMap permissionsForEntry with
    | nil => simp
    | cons permission rest => simp

/-- The policies of the rules are those of the records, one for each record
    whose egress policy compiles. -/
theorem mem_buildRbacPolicies {sessions : List SessionRecord}
    (hdistinct : (sessions.map SessionRecord.sessionId).Nodup) {policy : Policy} :
    policy ∈ (buildRbacPolicies sessions).values ↔
      ∃ record ∈ sessions, ∃ permissions, permissionsForEgress record.egressPolicy = some permissions ∧
        policy = ⟨permissions, [principalForIp record.containerIp]⟩ := by
  have hentry {name : String} {policy : Policy} :
      (name, policy) ∈ (sessions.filterMap fun record =>
          (permissionsForEgress record.egressPolicy).map fun permissions =>
            (s!"session_{record.sessionId}",
              (⟨permissions, [principalForIp record.containerIp]⟩ : Policy))) ↔
        ∃ record ∈ sessions, name = "session_" ++ record.sessionId ∧
          ∃ permissions, permissionsForEgress record.egressPolicy = some permissions ∧
            policy = ⟨permissions, [principalForIp record.containerIp]⟩ := by
    rw [List.mem_filterMap]
    constructor
    · rintro ⟨record, hrecord, hmap⟩
      obtain ⟨permissions, hperms, heq⟩ := Option.map_eq_some_iff.mp hmap
      obtain ⟨rfl, rfl⟩ := Prod.mk.inj heq
      exact ⟨record, hrecord, rfl, permissions, hperms, rfl⟩
    · rintro ⟨record, hrecord, rfl, permissions, hperms, rfl⟩
      exact ⟨record, hrecord, by rw [hperms]; rfl⟩
  rw [buildRbacPolicies, FiniteMap.mem_values_insertAll]
  · simp only [hentry]
    constructor
    · rintro ⟨_, record, hrecord, -, hpolicy⟩
      exact ⟨record, hrecord, hpolicy⟩
    · rintro ⟨record, hrecord, hpolicy⟩
      exact ⟨_, record, hrecord, rfl, hpolicy⟩
  · intro name policy policy' hmem hmem'
    obtain ⟨record, hrecord, hname, permissions, hperms, rfl⟩ := hentry.mp hmem
    obtain ⟨record', hrecord', hname', permissions', hperms', rfl⟩ := hentry.mp hmem'
    have hid : record.sessionId = record'.sessionId :=
      (String.append_right_inj "session_").mp (hname.symm.trans hname')
    obtain rfl : record = record' := List.inj_on_of_nodup_map hdistinct hrecord hrecord' hid
    rw [Option.some.inj (hperms.symm.trans hperms')]

/-- **The filter**: a request passes when a record that owns its peer address
    declares its authority. -/
theorem buildRbac_allows {sessions : List SessionRecord}
    (hdistinct : (sessions.map SessionRecord.sessionId).Nodup) (request : Request) :
    (buildRbac sessions).allows request = true ↔ DeclaredBy Declares sessions request := by
  have hpolicy (permissions : List Permission) (ip : Ipv4Addr) :
      (⟨permissions, [principalForIp ip]⟩ : Policy).matches request = true ↔
        ip = request.remoteIp ∧
          ∃ permission ∈ permissions, permission.matches request = true := by
    rw [Policy.matches, Bool.and_eq_true, List.any_cons, List.any_nil, Bool.or_false,
      principalForIp_matches, List.any_eq_true]
  rw [Rbac.allows, buildRbac, List.any_eq_true]
  constructor
  · rintro ⟨policy, hmem, hmatch⟩
    obtain ⟨record, hrecord, permissions, hperms, rfl⟩ := (mem_buildRbacPolicies hdistinct).mp hmem
    obtain ⟨hip, hpermission⟩ := (hpolicy _ _).mp hmatch
    exact ⟨record, hrecord, hip,
      (permissionsForEgress_matches _ _).mp ⟨permissions, hperms, hpermission⟩⟩
  · rintro ⟨record, hrecord, hip, hdeclares⟩
    obtain ⟨permissions, hperms, hpermission⟩ := (permissionsForEgress_matches _ _).mpr hdeclares
    exact ⟨_, (mem_buildRbacPolicies hdistinct).mpr ⟨record, hrecord, permissions, hperms, rfl⟩,
      (hpolicy _ _).mpr ⟨hip, hpermission⟩⟩

/-- A shape the compiler does not recognise, an empty allow list, or one without
    a well-formed entry. -/
def Unrecognised (egress : Json) : Prop :=
  ¬ HasMode egress "all" ∧
    ∀ members items, egress = .object members → Json.member? members "allow" = some (.array items) →
      ∀ entry ∈ items, ∀ authority, ¬ EntryNames entry authority

/-- **Egress compilation is exact**: the rules let a request pass exactly when a
    record with its peer address declares its authority, and a peer all of whose
    policies are unrecognised, empty or malformed is denied. -/
theorem egress_compilation_exact (sessions : List SessionRecord)
    (hdistinct : (sessions.map SessionRecord.sessionId).Nodup) (request : Request) :
    ((buildRbac sessions).allows request = true ↔ DeclaredBy Declares sessions request) ∧
      ((∀ record ∈ sessions, record.containerIp = request.remoteIp →
          Unrecognised record.egressPolicy) →
        (buildRbac sessions).allows request = false) := by
  have hallows := buildRbac_allows hdistinct request
  refine ⟨hallows, ?_⟩
  intro hunrecognised
  by_contra hpass
  rw [Bool.not_eq_false] at hpass
  obtain ⟨record, hrecord, hip, hdeclares⟩ := hallows.mp hpass
  obtain ⟨hmode, hentries⟩ := hunrecognised record hrecord hip
  rcases hdeclares with hall | ⟨-, members, items, entry, hobject, hallow, hentry, hnames⟩
  · exact hmode hall
  · exact hentries members items hobject hallow entry hentry request.authority hnames

namespace Sample

/-- The entry `{"host": "example.com", "ports": [443]}`. -/
def allowEntry : Json :=
  .object [("host", .string "example.com"), ("ports", .array [.number (.int 443)])]

/-- A session of one address under a given policy. -/
def session (id : String) (egressPolicy : Json) : SessionRecord :=
  ⟨id, ⟨10, 0, 0, 2⟩, "acme", "main", "git", egressPolicy⟩

def request : Request := ⟨⟨10, 0, 0, 2⟩, "example.com:443"⟩

/-- `{"mode": "none", "allow": [..]}`. -/
def withdrawn : SessionRecord :=
  session "mcp_session_a" (.object [("mode", .string "none"), ("allow", .array [allowEntry])])

end Sample

theorem egress_compilation_exact_allow_list :
    (([Sample.session "mcp_session_a" (.object [("allow", .array [Sample.allowEntry])]),
        Sample.session "mcp_session_b" (.string "none")].map SessionRecord.sessionId).Nodup ∧
      (buildRbac [Sample.session "mcp_session_a" (.object [("allow", .array [Sample.allowEntry])]),
        Sample.session "mcp_session_b" (.string "none")]).allows Sample.request = true) := by
  have hdistinct : ([Sample.session "mcp_session_a" (.object [("allow", .array [Sample.allowEntry])]),
      Sample.session "mcp_session_b" (.string "none")].map SessionRecord.sessionId).Nodup := by
    decide
  refine ⟨hdistinct, (egress_compilation_exact _ hdistinct Sample.request).1.mpr ?_⟩
  refine ⟨_, List.mem_cons_self, rfl, Or.inr ⟨?_, _, _, Sample.allowEntry, rfl, rfl,
    List.mem_cons_self, _, "example.com", _, 443, rfl, rfl, rfl, List.mem_cons_self, by decide, rfl⟩⟩
  rw [← egressMode_eq_some]
  decide

/-- The mode `none` of an object withdraws its allow list. -/
theorem mode_none_withdraws_allow_list :
    ¬ ∀ sessions : List SessionRecord, (sessions.map SessionRecord.sessionId).Nodup →
      ∀ request : Request, (buildRbac sessions).allows request = true ↔
        DeclaredBy DeclaresAnyMode sessions request := by
  intro h
  have hdeny : (buildRbac [Sample.withdrawn]).allows Sample.request = false := by decide +kernel
  have hpass := (h [Sample.withdrawn] (by decide) Sample.request).mpr
    ⟨Sample.withdrawn, List.mem_cons_self, rfl, Or.inr ⟨_, _, Sample.allowEntry, rfl, rfl,
      List.mem_cons_self, _, "example.com", _, 443, rfl, rfl, rfl, List.mem_cons_self, by decide, rfl⟩⟩
  rw [hdeny] at hpass
  cases hpass

end Botwork.ControlPlane
