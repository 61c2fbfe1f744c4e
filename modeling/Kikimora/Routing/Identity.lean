import Kikimora.Net.Text

/-!
# Selected-route identities and records

The exact kernel identities of a selected route and of a managed park, the two
transaction machines a record carries, and the validators of both identities.

The string-typed enumerations of the source are inductive types here. A decoded
checkpoint or a caller may still hold a text outside the enumeration, which is
the constructor `other`.
-/

namespace Kikimora.Routing

open Net

def managedSelectedRouteTable : Int := 254

def managedParkMetric : UInt32 := 42760

def scopeLink : Int := 253

inductive SelectedRouteSource
  | dns
  | static
  | other (text : String)
  deriving DecidableEq, Repr

inductive SelectedRouteState
  | pending
  | applying
  | active
  | retiring
  | other (text : String)
  deriving DecidableEq, Repr

inductive SelectedParkState
  | pending
  | applying
  | active
  | retiring
  | other (text : String)
  deriving DecidableEq, Repr

/-- Linux parks are unreachable rows without an interface, Windows parks are
    loopback next-hop rows. -/
inductive SelectedParkKind
  | unreachable
  | loopback
  | other (text : String)
  deriving DecidableEq, Repr

def SelectedRouteState.text : SelectedRouteState → String
  | pending => "pending"
  | applying => "applying"
  | active => "active"
  | retiring => "retiring"
  | other t => t

def SelectedParkState.text : SelectedParkState → String
  | pending => "pending"
  | applying => "applying"
  | active => "active"
  | retiring => "retiring"
  | other t => t

def SelectedParkKind.text : SelectedParkKind → String
  | unreachable => "unreachable"
  | loopback => "loopback"
  | other t => t

/-- The exact kernel identity of one selected route. -/
structure SelectedRouteIdentity where
  table : Int
  ifIndex : Int
  nextHop : String
  protocol : Int
  metric : UInt32
  scope : Int
  interfaceLuid : UInt64
  deriving DecidableEq, Repr

/-- The exact kernel identity of one managed park row. -/
structure SelectedParkIdentity where
  kind : SelectedParkKind
  table : Int
  ifIndex : Int
  nextHop : String
  protocol : Int
  metric : UInt32
  scope : Int
  interfaceLuid : UInt64
  deriving DecidableEq, Repr

/-- A character under the verb `%q`. A printable one stands for itself, and so does
    every character beyond ASCII. -/
def quoteChar (c : Char) : List Char :=
  match c.toNat with
  | 0x07 => ['\\', 'a']
  | 0x08 => ['\\', 'b']
  | 0x09 => ['\\', 't']
  | 0x0a => ['\\', 'n']
  | 0x0b => ['\\', 'v']
  | 0x0c => ['\\', 'f']
  | 0x0d => ['\\', 'r']
  | 0x22 => ['\\', '\x22']
  | 0x5c => ['\\', '\\']
  | n =>
    if n < 0x20 || n = 0x7f then ['\\', 'x', Nat.digitChar (n / 16), Nat.digitChar (n % 16)]
    else [c]

def quoted (s : String) : String :=
  String.ofList ('\x22' :: s.toList.flatMap quoteChar ++ ['\x22'])

example : quoted "a\tb" = "\"a\\tb\"" := by decide

def require (ok : Bool) (message : String) : Except String Unit :=
  if ok then .ok () else .error message

variable {i : SelectedRouteIdentity} {pfx : Prefix}

@[simp] theorem require_eq_ok {ok : Bool} {message : String} {u : Unit} :
    require ok message = .ok u ↔ ok = true := by
  cases ok <;> simp [require]

/-- The next hop of an identity: it parses and has the family of the prefix.
    The two validators word their errors differently. -/
def validateNextHop (label nextHop : String) (pfx : Prefix) : Except String Addr :=
  match Addr.parse nextHop with
  | none => .error (label ++ " next hop " ++ quoted nextHop ++ " does not parse")
  | some hop =>
    if hop.is4In6 || hop.is4 != pfx.addr.is4 then
      .error (label ++ " next hop " ++ quoted nextHop ++ " does not match the prefix family")
    else .ok hop

def SelectedRouteIdentity.validate (i : SelectedRouteIdentity) (pfx : Prefix) :
    Except String Unit := do
  require (pfx.isValid && isCanonicalPrefix pfx)
    ("identity prefix " ++ quoted pfx.toString ++ " is not canonical")
  require (i.table = managedSelectedRouteTable)
    ("identity table " ++ toString i.table ++ " must be " ++ toString managedSelectedRouteTable)
  require (0 < i.ifIndex) ("identity ifindex " ++ toString i.ifIndex ++ " must be positive")
  if i.nextHop ≠ "" then
    discard (validateNextHop "identity" i.nextHop pfx)
  require (0 < i.protocol) ("identity protocol " ++ toString i.protocol ++ " must be positive")
  require (i.scope = 0 || i.scope = scopeLink)
    ("identity scope " ++ toString i.scope ++ " is not a valid Linux route scope")

def SelectedParkIdentity.validateKind (i : SelectedParkIdentity) (pfx : Prefix) :
    Except String Unit :=
  match i.kind with
  | .unreachable =>
    require (i.ifIndex = 0 && i.nextHop = "" && i.interfaceLuid = 0)
      "unreachable park must have no interface and no next hop"
  | .loopback => do
    require (0 < i.ifIndex) "loopback park requires a positive ifindex"
    let hop ← validateNextHop "loopback park" i.nextHop pfx
    require hop.isLoopback
      ("loopback park next hop " ++ quoted i.nextHop ++ " is not a loopback address")
  | .other text => .error ("unknown park kind " ++ quoted text)

def SelectedParkIdentity.validate (i : SelectedParkIdentity) (pfx : Prefix) :
    Except String Unit := do
  require (pfx.isValid && isCanonicalPrefix pfx)
    ("park prefix " ++ quoted pfx.toString ++ " is not canonical")
  require (i.table = managedSelectedRouteTable)
    ("park table " ++ toString i.table ++ " must be " ++ toString managedSelectedRouteTable)
  require (0 < i.protocol) ("park protocol " ++ toString i.protocol ++ " must be positive")
  require (i.metric = managedParkMetric)
    ("park metric " ++ toString i.metric.toNat ++ " must be " ++
      toString managedParkMetric.toNat)
  i.validateKind pfx
  require (i.scope = 0 || i.scope = scopeLink)
    ("park scope " ++ toString i.scope ++ " is not a valid Linux route scope")

/-- The independent park transaction: `desired` is checkpointed before any park
    mutation, `owned` is the last identity proven by read-back. -/
structure SelectedPark where
  state : SelectedParkState
  desired : SelectedParkIdentity
  owned : Option SelectedParkIdentity := none
  retireDesired : Bool := false
  deriving DecidableEq, Repr

/-- One registered destination under a role. -/
structure SelectedRoute where
  role : String
  zone : String
  pfx : Prefix
  source : SelectedRouteSource
  toadGeneration : UInt64
  routeGeneration : UInt64
  iface : String
  desired : SelectedRouteIdentity
  owned : Option SelectedRouteIdentity := none
  state : SelectedRouteState
  retireDesired : Bool := false
  park : Option SelectedPark := none
  deriving DecidableEq, Repr

-- === What a validated identity satisfies ===

theorem bind_ok_iff {ε α β : Type} (first : Except ε α) (rest : α → Except ε β) (b : β) :
    (first >>= rest) = .ok b ↔ ∃ a, first = .ok a ∧ rest a = .ok b := by
  rcases first with e | a
  · constructor
    · intro h
      cases h
    · rintro ⟨_, h, _⟩
      cases h
  · constructor
    · exact fun h => ⟨a, rfl, h⟩
    · rintro ⟨_, h, hrest⟩
      cases h
      exact hrest

theorem SelectedRouteIdentity.isCanonicalPrefix_of_validate (h : i.validate pfx = .ok ()) :
    isCanonicalPrefix pfx = true := by
  obtain ⟨_, hc, _⟩ := (bind_ok_iff _ _ _).mp h
  simp only [require_eq_ok, Bool.and_eq_true] at hc
  exact hc.2

theorem SelectedRouteIdentity.ifIndex_pos_of_validate (h : i.validate pfx = .ok ()) :
    0 < i.ifIndex := by
  simp only [validate, bind_ok_iff, require_eq_ok, exists_const, decide_eq_true_eq] at h
  exact h.2.2.1

theorem SelectedParkIdentity.isCanonicalPrefix_of_validate {i : SelectedParkIdentity}
    (h : i.validate pfx = .ok ()) : isCanonicalPrefix pfx = true := by
  obtain ⟨_, hc, _⟩ := (bind_ok_iff _ _ _).mp h
  simp only [require_eq_ok, Bool.and_eq_true] at hc
  exact hc.2

theorem validateNextHop_eq_ok_iff {label nextHop : String} {hop : Addr} :
    validateNextHop label nextHop pfx = .ok hop ↔
      Addr.parse nextHop = some hop ∧ hop.is4In6 = false ∧ hop.is4 = pfx.addr.is4 := by
  unfold validateNextHop
  cases Addr.parse nextHop with
  | none => simp
  | some a =>
    dsimp only
    split
    · next hwrong =>
      refine ⟨nofun, ?_⟩
      rintro ⟨heq, hmapped, hfamily⟩
      cases heq
      simp [hmapped, hfamily] at hwrong
    · next hright =>
      simp only [Bool.or_eq_true, bne_iff_ne, ne_eq, not_or, not_not, Bool.not_eq_true] at hright
      constructor
      · intro h
        cases h
        exact ⟨rfl, hright.1, hright.2⟩
      · rintro ⟨heq, _, _⟩
        cases heq
        rfl

theorem SelectedRouteIdentity.validate_eq_ok_iff :
    i.validate pfx = .ok () ↔ isCanonicalPrefix pfx = true ∧ i.table = managedSelectedRouteTable ∧
      0 < i.ifIndex ∧ (i.nextHop ≠ "" → ∃ hop, Addr.parse i.nextHop = some hop ∧
        hop.is4In6 = false ∧ hop.is4 = pfx.addr.is4) ∧ 0 < i.protocol ∧
      (i.scope = 0 ∨ i.scope = scopeLink) := by
  have hcanonical : (pfx.isValid && isCanonicalPrefix pfx) = isCanonicalPrefix pfx := by
    rw [Bool.and_eq_right_iff_imp]
    exact isValid_of_isCanonicalPrefix
  by_cases hhop : i.nextHop = ""
  · simp [validate, bind_ok_iff, hcanonical, hhop]
  have hdiscard : ∀ e : Except String Addr, (∃ u, (discard e) = .ok u) ↔ ∃ a, e = .ok a := by
    rintro (e | a)
    · constructor <;>
      · rintro ⟨_, h⟩
        cases h
    · exact ⟨fun _ => ⟨a, rfl⟩, fun _ => ⟨(), rfl⟩⟩
  simp only [validate, bind_ok_iff, require_eq_ok, exists_const, decide_eq_true_eq, hcanonical,
    hhop, ne_eq, not_false_eq_true, if_true, forall_const, Bool.or_eq_true]
  constructor
  · rintro ⟨hc, ht, hi, u, hu, hp, hs⟩
    obtain ⟨a, ha⟩ := (hdiscard _).mp ⟨u, hu⟩
    exact ⟨hc, ht, hi, ⟨a, validateNextHop_eq_ok_iff.mp ha⟩, hp, hs⟩
  · rintro ⟨hc, ht, hi, ⟨a, ha⟩, hp, hs⟩
    obtain ⟨u, hu⟩ := (hdiscard _).mpr ⟨a, validateNextHop_eq_ok_iff.mpr ha⟩
    exact ⟨hc, ht, hi, u, hu, hp, hs⟩

/-- An identity that is right otherwise and has the text of a gateway is refused only for
    a mapped one. -/
theorem SelectedRouteIdentity.validate_gateway_iff {gateway : Addr}
    (hcanonical : isCanonicalPrefix pfx = true) (htable : i.table = managedSelectedRouteTable)
    (hindex : 0 < i.ifIndex) (hprotocol : 0 < i.protocol)
    (hscope : i.scope = 0 ∨ i.scope = scopeLink)
    (hhop : i.nextHop = if gateway.isValid then gateway.toString else "")
    (hfamily : gateway.isValid = true → gateway.is4 = pfx.addr.is4) :
    i.validate pfx = .ok () ↔ gateway.is4In6 = false := by
  rw [validate_eq_ok_iff, hhop]
  cases hvalid : gateway.isValid with
  | false =>
    rw [eq_zero_of_not_valid hvalid]
    exact iff_of_true ⟨hcanonical, htable, hindex, fun h => absurd rfl h, hprotocol, hscope⟩ rfl
  | true =>
    rw [if_pos rfl, Addr.parse_toString hvalid]
    constructor
    · rintro ⟨_, _, _, hhop, _⟩
      obtain ⟨_, heq, hmapped, _⟩ := hhop (toString_ne_empty hvalid)
      cases heq
      exact hmapped
    · exact fun hmapped => ⟨hcanonical, htable, hindex,
        fun _ => ⟨_, rfl, hmapped, hfamily hvalid⟩, hprotocol, hscope⟩

end Kikimora.Routing
