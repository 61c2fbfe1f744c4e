import Kikimora.Core.Model

/-!
# Readiness of the address families

A Toad is a route target for an address family when the addresses of that family are on
its interface. AmneziaWG and VLESS take them from the configuration. OpenConnect takes
them from what the server negotiated, and there any address of the family will do.
-/

namespace Kikimora.Toad

open Kikimora.Core Net

-- === Configuration ===

inductive Protocol
  | amneziawg2
  | vlessReality
  | openconnect
  deriving DecidableEq, Repr

def Protocol.text : Protocol → String
  | amneziawg2 => "amneziawg2"
  | vlessReality => "vless-reality"
  | openconnect => "openconnect"

structure OpenConnectConfig where
  disableIPv6 : Bool := false
  gateway : String := ""
  deriving DecidableEq, Repr

/-- The part of a `config.Config` that a runtime reads. -/
structure Config where
  name : String := ""
  interface : String := ""
  stateDir : String := ""
  protocol : Protocol
  address : List String := []
  openConnect : Option OpenConnectConfig := none
  deriving DecidableEq, Repr

structure Interface where
  name : String := ""
  ifIndex : Int := 0
  mtu : Int := 0
  addresses : List String := []
  deriving DecidableEq, Repr

/-- An `interfaceinfo.Expectation`. -/
structure Expectation where
  ifIndex : Int := 0
  mtu : Int := 0
  addresses : List Prefix := []
  deriving DecidableEq, Repr

-- === Readiness ===

def ready (families : RouteFamilies) : Bool := families.ipv4.ready || families.ipv6.ready

def interfaceIdentityReady (iface : Interface) : Bool :=
  0 < iface.ifIndex && iface.name ≠ "" && 0 < iface.mtu

def observed (iface : Interface) : List Prefix := iface.addresses.filterMap Prefix.parse

def routable (is4 : Bool) (p : Prefix) : Bool :=
  p.addr.isValid && !p.addr.isLinkLocalUnicast && p.addr.is4 == is4

def observedFamily (observed : List Prefix) (is4 : Bool) : Bool := observed.any (routable is4)

def openConnectDisableIPv6 (cfg : Config) : Bool :=
  match cfg.openConnect with
  | some openConnect => openConnect.disableIPv6
  | none => false

def notObservedReason (configured observed : Bool) (missing : String) : String :=
  if !configured || observed then "" else missing

/-- The readiness of a family of which is known whether it is configured and whether it
    was observed. -/
def familyReadiness (configured observed : Bool) (missing : String) : FamilyReadiness where
  configured := configured
  ready := configured && observed
  reason := notObservedReason configured observed missing

def unavailable : RouteFamilies where
  ipv4 := { reason := "negotiated interface expectation is unavailable" }
  ipv6 := { reason := "negotiated interface expectation is unavailable" }

def negotiatedFamily (expectation : Expectation) (observed : List Prefix) (is4 : Bool)
    (missing : String) : FamilyReadiness :=
  familyReadiness (expectation.addresses.any (routable is4)) (observedFamily observed is4) missing

def configuredPrefixes (cfg : Config) (is4 : Bool) : List Prefix :=
  (cfg.address.filterMap Prefix.parse).filter (·.addr.is4 == is4)

def configuredFamily (cfg : Config) (observed : List Prefix) (is4 : Bool) (missing : String) :
    FamilyReadiness :=
  familyReadiness (!(configuredPrefixes cfg is4).isEmpty)
    ((configuredPrefixes cfg is4).all (· ∈ observed)) missing

def interfaceFamilyReadiness (cfg : Config) (iface : Interface)
    (expectation : Option Expectation) : RouteFamilies :=
  match cfg.protocol with
  | .openconnect =>
    match expectation with
    | none => unavailable
    | some expectation =>
      { ipv6 :=
          if openConnectDisableIPv6 cfg then { reason := "IPv6 is disabled by configuration" }
          else negotiatedFamily expectation (observed iface) false
            "negotiated IPv6 prefix is missing from the interface"
        ipv4 := negotiatedFamily expectation (observed iface) true
          "negotiated IPv4 prefix is missing from the interface" }
  | _ =>
    { ipv4 := configuredFamily cfg (observed iface) true
        "a configured IPv4 prefix is missing from the interface"
      ipv6 := configuredFamily cfg (observed iface) false
        "a configured IPv6 prefix is missing from the interface" }

def family (families : RouteFamilies) (is4 : Bool) : FamilyReadiness :=
  if is4 then families.ipv4 else families.ipv6

-- === What a family is configured with ===

/-- The prefixes that a family is configured with. OpenConnect is configured by the
    negotiated addresses that are not link-local, and not at all for IPv6 where that is
    disabled. -/
def expectedPrefixes (cfg : Config) (expectation : Option Expectation) (is4 : Bool) :
    List Prefix :=
  match cfg.protocol with
  | .openconnect =>
    if !is4 && openConnectDisableIPv6 cfg then []
    else ((expectation.map Expectation.addresses).getD []).filter (routable is4)
  | _ => configuredPrefixes cfg is4

section

variable {cfg cfg' : Config} {iface iface' : Interface}
  {expectation expectation' : Option Expectation} {is4 : Bool}

theorem ready_iff_of_configured (h : cfg.protocol ≠ .openconnect) :
    (family (interfaceFamilyReadiness cfg iface expectation) is4).ready = true ↔
      expectedPrefixes cfg expectation is4 ≠ [] ∧
        ∀ p ∈ expectedPrefixes cfg expectation is4, p ∈ observed iface := by
  have hexpected : expectedPrefixes cfg expectation is4 = configuredPrefixes cfg is4 := by
    cases hprotocol : cfg.protocol <;> simp_all [expectedPrefixes]
  have hfamily : ∃ missing, family (interfaceFamilyReadiness cfg iface expectation) is4 =
      configuredFamily cfg (observed iface) is4 missing := by
    cases hprotocol : cfg.protocol <;> cases is4 <;>
      simp_all [interfaceFamilyReadiness, family]
  obtain ⟨missing, hfamily⟩ := hfamily
  rw [hexpected, hfamily]
  simp [configuredFamily, familyReadiness]

theorem ready_iff_of_negotiated (h : cfg.protocol = .openconnect) :
    (family (interfaceFamilyReadiness cfg iface expectation) is4).ready = true ↔
      expectedPrefixes cfg expectation is4 ≠ [] ∧ ∃ p ∈ observed iface, routable is4 p = true := by
  by_cases hdisabled : (!is4 && openConnectDisableIPv6 cfg) = true
  · -- IPv6 is switched off
    obtain ⟨rfl, hswitch⟩ : is4 = false ∧ openConnectDisableIPv6 cfg = true := by
      simpa using hdisabled
    cases expectation <;>
      simp [interfaceFamilyReadiness, expectedPrefixes, h, hswitch, family, unavailable]
  · rcases expectation with _ | expectation
    · cases is4 <;> simp [interfaceFamilyReadiness, expectedPrefixes, h, family, unavailable]
    have hfamily : ∃ missing, family (interfaceFamilyReadiness cfg iface expectation) is4 =
        negotiatedFamily expectation (observed iface) is4 missing := by
      cases is4 <;> simp_all [interfaceFamilyReadiness, family]
    obtain ⟨missing, hfamily⟩ := hfamily
    rw [hfamily]
    simp [negotiatedFamily, familyReadiness, observedFamily, expectedPrefixes, h, hdisabled,
      List.filter_eq_nil_iff]

def SameFamily (is4 : Bool) (l l' : List Prefix) : Prop :=
  ∀ p : Prefix, p.addr.is4 = is4 → (p ∈ l ↔ p ∈ l')

theorem SameFamily.any_routable {l l' : List Prefix} (h : SameFamily is4 l l') :
    l.any (routable is4) = l'.any (routable is4) := by
  have hfamily : ∀ p, routable is4 p = true → p.addr.is4 = is4 := by
    intro p hp
    simp only [routable, Bool.and_eq_true, beq_iff_eq] at hp
    exact hp.2
  rw [Bool.eq_iff_iff, List.any_eq_true, List.any_eq_true]
  exact ⟨fun ⟨p, hp, hr⟩ => ⟨p, (h p (hfamily p hr)).mp hp, hr⟩,
    fun ⟨p, hp, hr⟩ => ⟨p, (h p (hfamily p hr)).mpr hp, hr⟩⟩

theorem is4_of_mem_configuredPrefixes {p : Prefix} (h : p ∈ configuredPrefixes cfg is4) :
    p.addr.is4 = is4 := by
  simpa using (List.mem_filter.mp h).2

theorem SameFamily.mem_configured
    (h : SameFamily is4 (cfg.address.filterMap Prefix.parse) (cfg'.address.filterMap Prefix.parse))
    (p : Prefix) : p ∈ configuredPrefixes cfg is4 ↔ p ∈ configuredPrefixes cfg' is4 := by
  simp only [configuredPrefixes, List.mem_filter, beq_iff_eq]
  exact ⟨fun ⟨hp, hfamily⟩ => ⟨(h p hfamily).mp hp, hfamily⟩,
    fun ⟨hp, hfamily⟩ => ⟨(h p hfamily).mpr hp, hfamily⟩⟩

theorem configuredFamily_congr {l l' : List Prefix} {missing : String} (hl : SameFamily is4 l l')
    (h : SameFamily is4 (cfg.address.filterMap Prefix.parse)
      (cfg'.address.filterMap Prefix.parse)) :
    configuredFamily cfg l is4 missing = configuredFamily cfg' l' is4 missing := by
  have hmem := h.mem_configured
  have hempty : (configuredPrefixes cfg is4).isEmpty = (configuredPrefixes cfg' is4).isEmpty := by
    rw [Bool.eq_iff_iff, List.isEmpty_iff, List.isEmpty_iff, List.eq_nil_iff_forall_not_mem,
      List.eq_nil_iff_forall_not_mem]
    exact forall_congr' fun p => not_congr (hmem p)
  have hall : (configuredPrefixes cfg is4).all (· ∈ l) =
      (configuredPrefixes cfg' is4).all (· ∈ l') := by
    rw [Bool.eq_iff_iff, List.all_eq_true, List.all_eq_true]
    simp only [decide_eq_true_eq]
    refine forall_congr' fun p => ?_
    constructor
    · intro hin hp
      exact (hl p (is4_of_mem_configuredPrefixes hp)).mp (hin ((hmem p).mpr hp))
    · intro hin hp
      exact (hl p (is4_of_mem_configuredPrefixes hp)).mpr (hin ((hmem p).mp hp))
  rw [configuredFamily, configuredFamily, hempty, hall]

/-- The same configuration up to the addresses of the other family. -/
structure Config.SameFamily (cfg cfg' : Config) (is4 : Bool) : Prop where
  protocol : cfg'.protocol = cfg.protocol
  disable : openConnectDisableIPv6 cfg' = openConnectDisableIPv6 cfg
  address : Toad.SameFamily is4 (cfg.address.filterMap Prefix.parse)
    (cfg'.address.filterMap Prefix.parse)

def Expectation.SameFamily (is4 : Bool) : Option Expectation → Option Expectation → Prop
  | some e, some e' => Toad.SameFamily is4 e.addresses e'.addresses
  | none, none => True
  | _, _ => False

theorem family_congr (hcfg : cfg.SameFamily cfg' is4)
    (hiface : SameFamily is4 (observed iface) (observed iface'))
    (hexpectation : Expectation.SameFamily is4 expectation expectation') :
    family (interfaceFamilyReadiness cfg iface expectation) is4 =
      family (interfaceFamilyReadiness cfg' iface' expectation') is4 := by
  simp only [interfaceFamilyReadiness, hcfg.protocol, hcfg.disable]
  cases cfg.protocol with
  | openconnect =>
    rcases expectation with _ | e <;> rcases expectation' with _ | e'
    · rfl
    · exact hexpectation.elim
    · exact hexpectation.elim
    have hnegotiated : ∀ missing, negotiatedFamily e (observed iface) is4 missing =
        negotiatedFamily e' (observed iface') is4 missing := by
      intro missing
      have he : e.addresses.any (routable is4) = e'.addresses.any (routable is4) :=
        SameFamily.any_routable hexpectation
      rw [negotiatedFamily, negotiatedFamily, he, observedFamily, observedFamily,
        hiface.any_routable]
    cases is4 <;> simp [family, hnegotiated]
  | amneziawg2 | vlessReality =>
    cases is4 <;> exact configuredFamily_congr hiface hcfg.address

end

end Kikimora.Toad
